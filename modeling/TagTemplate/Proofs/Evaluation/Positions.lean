import TagTemplate.Proofs.Evaluation.Attribution
import TagTemplate.Proofs.Evaluation.Moments
import TagTemplate.Proofs.Evaluation.Placeholders

/-!
Where an evaluation stands in its documents.

Every level that is open at a moment evaluates a region of a parsed document, and what is left of
it is the outline of the region from some position on.  So every tag that is called stands in a
document, and evaluation goes on behind it, or behind its close tag where it has one.  It has been
looked up in a registry of the evaluation, of which everything is known that look-ups and handlers
keep.
-/

namespace TagTemplate

namespace Document

variable {document : Document} {d : Delimiters} {start stop index closer : Nat} {tag : Tag}
  {first : Item} {rest : List Item}

/-- An item that stands in a range, and the position at which evaluation goes on. -/
inductive Stands (document : Document) (start stop : Nat) : Item → Nat → Prop where
  | single {index : Nat} {tag : Tag} (first : start ≤ index) (last : index < stop)
      (found : document.tag? index = some tag) (role : document.role? index = some .selfClosed) :
      Stands document start stop (.call index tag none) (index + 1)
  | pair {index closer : Nat} {tag : Tag} (first : start ≤ index) (last : index < stop)
      (found : document.tag? index = some tag)
      (role : document.role? index = some (.closedAt closer)) :
      Stands document start stop (.call index tag (some closer)) (closer + 1)
  | loose {item : Item} {next : Nat} (first : start ≤ next)
      (uncalled : ∀ index tag closer, item ≠ .call index tag closer) :
      Stands document start stop item next

theorem Stands.mono {earlier next : Nat} (stands : document.Stands start stop first next)
    (le : earlier ≤ start) : document.Stands earlier stop first next := by
  cases stands with
  | single after last found role => exact .single (Nat.le_trans le after) last found role
  | pair after last found role => exact .pair (Nat.le_trans le after) last found role
  | loose after uncalled => exact .loose (Nat.le_trans le after) uncalled

section

variable (nested : Pairing.Nested document.segments.toList document.roles)

include nested

theorem Stands.le {next : Nat} (stands : document.Stands start stop first next) : start ≤ next := by
  cases stands with
  | single after => omega
  | pair after last found role =>
      have before := (nested.matched (role?_eq_some_iff.mp role)).1
      omega
  | loose after => exact after

/-- Behind the first item of a range lies the outline of the range from a later position on. -/
theorem outline_eq_cons (outlined : document.outline start stop = first :: rest) :
    ∃ next, document.Stands start stop first next ∧ rest = document.outline next stop := by
  induction distance : stop - start generalizing start with
  | zero =>
      have empty : document.range start stop = [] :=
        List.drop_eq_nil_of_le (Nat.le_trans (List.length_take_le _ _) (by omega))
      rw [outline, empty] at outlined
      cases outlined
  | succ distance ih =>
      cases found : document.segments[start]? with
      | none =>
          have size : document.segments.toList.length ≤ start := by
            simpa using Array.getElem?_eq_none_iff.mp found
          have empty : document.range start stop = [] :=
            List.drop_eq_nil_of_le (Nat.le_trans (List.length_take_le' _ _) size)
          rw [outline, empty] at outlined
          cases outlined
      | some segment =>
          have behind : document.outlineFrom (start + 1) start (document.range (start + 1) stop) =
              document.outline (start + 1) stop := outlineFrom_of_le (Nat.le_succ start) _
          rw [outline, range_eq_cons found (by omega)] at outlined
          simp only [outlineFrom, Nat.lt_irrefl, if_false] at outlined
          split at outlined
          · cases outlined
            exact ⟨start + 1, .loose (by omega) (by simp), behind⟩
          · rw [behind] at outlined
            obtain ⟨next, stands, same⟩ := ih outlined (by omega)
            exact ⟨next, stands.mono (Nat.le_succ start), same⟩
          · cases outlined
            exact ⟨start + 1, .loose (by omega) (by simp), behind⟩
          · rename_i tag role
            cases outlined
            refine ⟨start + 1, .single (Nat.le_refl _) (by omega) ?_ role, behind⟩
            simp [tag?, found, Segment.tag?]
          · rename_i tag closer role
            cases outlined
            have before := (nested.matched (role?_eq_some_iff.mp role)).1
            refine ⟨closer + 1, .pair (Nat.le_refl _) (by omega) ?_ role, ?_⟩
            · simp [tag?, found, Segment.tag?]
            · exact outlineFrom_skip (by omega)
          · cases outlined
            exact ⟨start + 1, .loose (by omega) (by simp), behind⟩

end

end Document

namespace Invocation

variable (holds : Registry → Prop) (settings : Settings) (invocation : Invocation)

/-- The tag stands in a parsed document in the role that it is called in, it has been looked up,
and what has been found permits the call. -/
structure Located : Prop where
  parsed : invocation.document.IsParsed settings.delimiters
  found : invocation.document.tag? invocation.index = some invocation.tag
  role : invocation.document.role? invocation.index =
    some (invocation.closer.elim .selfClosed .closedAt)
  looked : invocation.Found holds
  permitted : Evaluation.callViolation invocation.convention invocation.resolved.param
    invocation.closer.isSome = none

/-- There is a body if there is a close tag, and a raw one is what the document has between the
two tags. -/
structure Carries (body : Option String) : Prop where
  present : body.isSome = invocation.closer.isSome
  raw : invocation.convention.rawBody = true →
    body = invocation.closer.map fun closer =>
      invocation.document.raw settings.delimiters (invocation.index + 1) closer

/-- The call is decoded from the sides of the tag. -/
def Gives (call : TagCall) : Prop :=
  ∃ body : Option String, invocation.Carries settings body ∧
    invocation.call settings body = .ok call

variable {holds settings invocation}

theorem Located.makes {call : TagCall} (located : invocation.Located holds settings)
    (gives : invocation.Gives settings call) : invocation.Makes settings call := by
  obtain ⟨body, carries, given⟩ := gives
  exact ⟨located.permitted, body, carries.present, given⟩

end Invocation

section

variable (holds : Registry → Prop) (settings : Settings)

/-- The call of a binding is that of a tag that stands in a document. -/
def Binding.Calls (binding : Binding) (call : TagCall) : Prop :=
  ∃ invocation : Invocation, invocation.Located holds settings ∧ invocation.binding = binding ∧
    invocation.Gives settings { call with document := none }

def Event.Located : Event → Prop
  | .called call builtIn _ _ =>
    ∃ binding : Binding, binding.builtIn = builtIn ∧ binding.Calls holds settings call
  | .lookup _ => True

/-- The loaded document is parsed, and the calls that have been queued or noted since are those
of tags that stand in documents. -/
structure Engine.LocatedSince (engine origin : Engine) : Prop where
  same : engine.settings = origin.settings
  held : holds engine.registry
  loaded : engine.document.IsParsed origin.settings.delimiters
  queued : ∀ entry ∈ engine.deferred.entries,
    entry ∈ origin.deferred.entries ∨ entry.binding.Calls holds origin.settings entry.call
  noted : ∃ events : List Event, engine.journal = origin.journal ++ events.toArray ∧
    ∀ event ∈ events, event.Located holds origin.settings

/-- What is left of a level is the outline of its region from some position on. -/
structure OpenLevel.Laid (level : OpenLevel) : Prop where
  parsed : level.document.IsParsed settings.delimiters
  left : ∃ start position stop, level.document.Region start stop ∧ start ≤ position ∧
    level.rest = level.document.outline position stop

def Task.Laid : Task → Prop
  | .range document start stop =>
    document.IsParsed settings.delimiters ∧ document.Region start stop
  | .items level => level.Laid settings
  | .invoke invocation => invocation.Located holds settings
  | .deliver invocation _ body =>
    invocation.Located holds settings ∧ invocation.Carries settings body
  | .program rest => rest.Keeps holds
  | .text _ | .result _ => True

def Waiter.Laid : Waiter → Prop
  | .calling level _ => level.Laid settings
  | .body invocation _ =>
    invocation.Located holds settings ∧ invocation.closer.isSome = true ∧
      invocation.convention.rawBody = false
  | .handling invocation call =>
    invocation.Located holds settings ∧ invocation.Gives settings call
  | .request next => ∀ answer, (next answer).Keeps holds

/-- Whatever is open at a moment is open at a place of a document. -/
structure Moment.Laid (moment : Moment) (origin : Engine) : Prop where
  engine : moment.engine.LocatedSince holds origin
  task : moment.task.Laid holds origin.settings
  waiters : ∀ waiter ∈ moment.waiters, waiter.Laid holds origin.settings

end

variable {holds : Registry → Prop} {settings : Settings} {origin : Engine}

namespace Engine.LocatedSince

variable {engine : Engine}

theorem refl (loaded : origin.Parsed) (held : holds origin.registry) :
    origin.LocatedSince holds origin :=
  ⟨rfl, held, loaded, fun _ member => .inl member, [], by simp, by simp⟩

theorem update (located : engine.LocatedSince holds origin) {registry : Registry}
    (held : holds registry) (callStack : CallStack) (depth : Nat) :
    LocatedSince holds { engine with registry, callStack, depth } origin :=
  ⟨located.same, held, located.loaded, located.queued, located.noted⟩

theorem perform (located : engine.LocatedSince holds origin) (action : Action)
    (acts : ∀ engine : Engine, holds engine.registry → holds (action.perform engine).2.registry) :
    (action.perform engine).2.LocatedSince holds origin := by
  have acted := acted action engine
  obtain ⟨lookups, journal⟩ := acted.journal
  obtain ⟨events, noted, found⟩ := located.noted
  refine ⟨acted.settings.trans located.same, acts engine located.held, ?_,
    acted.deferred ▸ located.queued, events ++ lookups.map .lookup, by rw [journal, noted]; simp, ?_⟩
  · rcases acted.document with same | ⟨source, parsed⟩
    · exact same ▸ located.loaded
    · exact .inr ⟨source, located.same ▸ parsed⟩
  · intro event member
    rcases List.mem_append.mp member with old | new
    · exact found event old
    · obtain ⟨lookup, -, rfl⟩ := List.mem_map.mp new
      trivial

theorem meet (kept : Registry.Keeps holds) (located : engine.LocatedSince holds origin)
    (item : Item) (document : Document) :
    (item.meet document engine).2.LocatedSince holds origin := by
  rcases item.engine_of_meet document engine with same | ⟨tag, same⟩ <;> rw [same]
  · exact located
  · exact located.perform (.resolve tag.name tag.param)
      fun engine held => kept.resolve tag.name tag.param held

theorem reserve (located : engine.LocatedSince holds origin) (invocation : Invocation) :
    (invocation.reserve engine).2.LocatedSince holds origin := by
  unfold Invocation.reserve
  split
  · refine ⟨located.same, located.held, located.loaded,
      fun entry member => located.queued entry ?_, located.noted⟩
    rwa [← DeferredQueue.entries_reserve]
  · exact located

theorem fillSlot (located : engine.LocatedSince holds origin) {entry : DeferredCall}
    (calls : entry.binding.Calls holds origin.settings entry.call) (slot : Nat) :
    (Evaluation.fillSlot slot entry engine).LocatedSince holds origin := by
  refine ⟨located.same, located.held, located.loaded, fun other member => ?_, located.noted⟩
  rcases DeferredQueue.mem_entries_fill member with rfl | old
  · exact .inr calls
  · exact located.queued other old

theorem noteCall (located : engine.LocatedSince holds origin) {binding : Binding} {call : TagCall}
    (calls : binding.Calls holds origin.settings call) (depth frames : Nat) :
    (engine.record [.called call binding.builtIn depth frames]).LocatedSince holds origin := by
  obtain ⟨events, noted, found⟩ := located.noted
  refine ⟨located.same, located.held, located.loaded, located.queued,
    events ++ [.called call binding.builtIn depth frames], by simp [record, noted], ?_⟩
  intro event member
  rcases List.mem_append.mp member with old | new
  · exact found event old
  · cases List.mem_singleton.mp new
    exact ⟨binding, rfl, calls⟩

theorem drained (located : engine.LocatedSince holds origin) :
    (Evaluation.drained engine).LocatedSince holds origin :=
  ⟨located.same, located.held, located.loaded, fun _ => nofun, located.noted⟩

end Engine.LocatedSince

namespace OpenLevel.Laid

variable {level : OpenLevel} {first : Item} {rest : List Item} {engine : Engine}
  {invocation : Invocation}

/-- The first item of what is left stands in the region of the level, and the items behind it
are the outline of the region from a later position on. -/
theorem stands (laid : level.Laid settings) (left : level.rest = first :: rest) :
    ∃ start stop next, level.document.Region start stop ∧ start ≤ next ∧
      level.document.Stands start stop first next ∧ rest = level.document.outline next stop := by
  obtain ⟨start, position, stop, region, le, same⟩ := laid.left
  have nested := laid.parsed.nested
  obtain ⟨next, stands, behind⟩ := Document.outline_eq_cons nested (same.symm.trans left)
  exact ⟨start, stop, next, region, Nat.le_trans le (stands.le nested), stands.mono le, behind⟩

theorem tail (laid : level.Laid settings) (left : level.rest = first :: rest) :
    { level with rest }.Laid settings := by
  obtain ⟨start, stop, next, region, le, -, behind⟩ := laid.stands left
  exact ⟨laid.parsed, start, next, stop, region, le, behind⟩

theorem located (laid : level.Laid settings) (left : level.rest = first :: rest)
    (held : holds engine.registry)
    (invoked : (first.meet level.document engine).1 = .ok (.invoked invocation)) :
    invocation.Located holds settings := by
  obtain ⟨called, same, looked, permitted⟩ := Item.found_of_meet invoked
  obtain ⟨start, stop, next, -, -, stands, -⟩ := laid.stands left
  obtain ⟨document, index, tag, closer, resolved⟩ := invocation
  cases same
  cases called
  cases stands with
  | single _ _ found role => exact ⟨laid.parsed, found, role, ⟨_, held, looked⟩, permitted⟩
  | pair _ _ found role => exact ⟨laid.parsed, found, role, ⟨_, held, looked⟩, permitted⟩
  | loose _ uncalled => exact absurd rfl (uncalled _ _ _)

end OpenLevel.Laid

namespace Moment

variable {moment after : Moment}

namespace Laid

theorem give (laid : moment.Laid holds origin) (result : Except TemplateError String) :
    (moment.give result).Laid holds origin :=
  ⟨laid.engine, trivial, laid.waiters⟩

theorem await {waiter : Waiter} (laid : moment.Laid holds origin)
    (waits : waiter.Laid holds origin.settings) : (moment.await waiter).Laid holds origin :=
  ⟨laid.engine, laid.task, List.forall_mem_cons.mpr ⟨waits, laid.waiters⟩⟩

theorem handle (kept : Registry.Keeps holds) {binding : Binding} {call : TagCall}
    (laid : moment.Laid holds origin) (calls : binding.Calls holds origin.settings call) :
    (moment.handle binding call).Laid holds origin := by
  refine ⟨laid.engine.noteCall calls _ _, ?_, laid.waiters⟩
  obtain ⟨invocation, located, rfl, -⟩ := calls
  obtain ⟨registry, held, looked⟩ := located.looked
  exact kept.handlers held looked call

theorem text (laid : moment.Laid holds origin) (source : String) :
    (moment.text source).Laid holds origin := by
  unfold Moment.text
  cases parsed : moment.engine.parse source with
  | error error => exact laid.give _
  | ok document =>
      exact ⟨laid.engine, ⟨.inr ⟨source, laid.engine.same ▸ parsed⟩, .whole⟩, laid.waiters⟩

theorem range {document : Document} {start stop : Nat} (laid : moment.Laid holds origin)
    (parsed : document.IsParsed origin.settings.delimiters) (region : document.Region start stop) :
    (moment.range document start stop).Laid holds origin := by
  unfold Moment.range
  cases moment.levels with
  | zero => exact laid.give _
  | succ levels =>
      refine ⟨laid.engine.update laid.engine.held _ _, ?_, laid.waiters⟩
      exact ⟨parsed, start, start, stop, region, Nat.le_refl _, rfl⟩

theorem leave (laid : moment.Laid holds origin) (result : Except TemplateError String) :
    (moment.leave result).Laid holds origin :=
  ⟨laid.engine.update laid.engine.held _ _, trivial, laid.waiters⟩

theorem items (kept : Registry.Keeps holds) {level : OpenLevel} (laid : moment.Laid holds origin)
    (opened : level.Laid origin.settings) : (moment.items level).Laid holds origin := by
  unfold Moment.items
  split
  · exact laid.leave _
  · rename_i first rest left
    have met := laid.engine.meet kept first level.document
    have located : ∀ invocation,
        (first.meet level.document moment.engine).1 = .ok (.invoked invocation) →
        invocation.Located holds origin.settings :=
      fun _ => opened.located left laid.engine.held
    have tail := opened.tail left
    generalize first.meet level.document moment.engine = meeting at met located ⊢
    obtain ⟨error | text | invocation, engine⟩ := meeting
    · have failed : Laid holds { moment with engine } origin :=
        ⟨met, laid.task, laid.waiters⟩
      exact failed.leave _
    · exact ⟨met, ⟨tail.parsed, tail.left⟩, laid.waiters⟩
    · exact await ⟨met.update met.held _ _, located invocation rfl, laid.waiters⟩ tail

theorem invoke {invocation : Invocation} (laid : moment.Laid holds origin)
    (located : invocation.Located holds origin.settings) : (moment.invoke invocation).Laid holds origin := by
  have reserved := laid.engine.reserve invocation
  simp only [Moment.invoke]
  generalize invocation.reserve moment.engine = outcome at reserved ⊢
  obtain ⟨slot, engine⟩ := outcome
  cases closed : invocation.closer with
  | none =>
      have carries : invocation.Carries origin.settings none :=
        ⟨by rw [closed]; rfl, fun _ => by rw [closed]; rfl⟩
      exact ⟨reserved, ⟨located, carries⟩, laid.waiters⟩
  | some closer =>
      dsimp only
      cases raw : invocation.convention.rawBody with
      | true =>
          refine ⟨reserved, ⟨located, by rw [closed]; rfl, fun _ => ?_⟩, laid.waiters⟩
          rw [closed, reserved.same]
          rfl
      | false =>
          have region : invocation.document.Region (invocation.index + 1) closer := by
            refine .body ?_
            rw [located.role, closed]
            rfl
          exact await ⟨reserved, ⟨located.parsed, region⟩, laid.waiters⟩
            ⟨located, by rw [closed]; rfl, raw⟩

theorem deliver (kept : Registry.Keeps holds) {invocation : Invocation} {slot : Option Nat} {body : Option String}
    (laid : moment.Laid holds origin) (located : invocation.Located holds origin.settings)
    (carries : invocation.Carries origin.settings body) :
    (moment.deliver invocation slot body).Laid holds origin := by
  unfold Moment.deliver
  rw [laid.engine.same]
  cases given : invocation.call origin.settings body with
  | error error => exact laid.give _
  | ok call =>
      have gives : invocation.Gives origin.settings call := ⟨body, carries, given⟩
      have calls : invocation.binding.Calls holds origin.settings call :=
        ⟨invocation, located, rfl, (Invocation.undocumented_of_call given).symm ▸ gives⟩
      cases slot with
      | some slot => exact ⟨laid.engine.fillSlot calls slot, trivial, laid.waiters⟩
      | none =>
          have waits : Waiter.Laid holds origin.settings (.handling invocation call) :=
            ⟨located, gives⟩
          exact (laid.await waits).handle kept calls

theorem program {program : Program} (laid : moment.Laid holds origin)
    (keeps : program.Keeps holds) : (moment.program program).Laid holds origin := by
  cases keeps with
  | done text => exact laid.give _
  | fail error => exact laid.give _
  | inspect keeps => exact ⟨laid.engine, keeps _, laid.waiters⟩
  | act acts keeps => exact ⟨laid.engine.perform _ acts, keeps _, laid.waiters⟩
  | expand keeps | render keeps => exact await ⟨laid.engine, trivial, laid.waiters⟩ keeps
  | evaluate keeps =>
      exact await ⟨laid.engine, ⟨laid.engine.loaded, .whole⟩, laid.waiters⟩ keeps
  | register registers keeps =>
      exact ⟨laid.engine.update (registers _ laid.engine.held) _ _, keeps _, laid.waiters⟩
  | setAutoload installs keeps =>
      exact ⟨laid.engine.update (installs _ laid.engine.held) _ _, keeps, laid.waiters⟩

theorem resume {waiter : Waiter} (laid : moment.Laid holds origin)
    (waits : waiter.Laid holds origin.settings) (result : Except TemplateError String) :
    (moment.resume result waiter).Laid holds origin := by
  cases waiter with
  | calling level tag =>
      cases result with
      | ok s => exact ⟨laid.engine, ⟨waits.parsed, waits.left⟩, laid.waiters⟩
      | error error => exact laid.leave _
  | body invocation slot =>
      obtain ⟨located, closed, evaluated⟩ := waits
      cases result with
      | ok s =>
          have carries : invocation.Carries origin.settings (some s) := by
            refine ⟨closed.symm, fun raw => ?_⟩
            rw [evaluated] at raw
            cases raw
          exact ⟨laid.engine, ⟨located, carries⟩, laid.waiters⟩
      | error error => exact laid.give _
  | handling invocation call =>
      cases result with
      | ok output =>
          unfold Moment.resume
          dsimp only
          split
          · exact ⟨laid.engine, trivial, laid.waiters⟩
          · exact laid.give _
      | error error => exact laid.give _
  | request next => exact ⟨laid.engine, waits result, laid.waiters⟩

theorem next (kept : Registry.Keeps holds) (laid : moment.Laid holds origin)
    (stepped : moment.next = some after) :
    after.Laid holds origin := by
  unfold Moment.next at stepped
  have task := laid.task
  split at stepped <;> rename_i current <;> rw [current] at task
  · cases stepped
    exact laid.text _
  · cases stepped
    exact laid.range task.1 task.2
  · cases stepped
    exact laid.items kept task
  · cases stepped
    exact laid.invoke task
  · cases stepped
    exact laid.deliver kept task.1 task.2
  · cases stepped
    exact laid.program task
  · split at stepped
    · cases stepped
    · rename_i waiter waiters waiting
      cases stepped
      have waits := laid.waiters
      rw [waiting] at waits
      obtain ⟨first, behind⟩ := List.forall_mem_cons.mp waits
      have handed : Laid holds { moment with waiters } origin :=
        ⟨laid.engine, laid.task, behind⟩
      exact handed.resume first _

theorem leads (kept : Registry.Keeps holds) (laid : moment.Laid holds origin) (led : moment.Leads after) :
    after.Laid holds origin := by
  induction led with
  | refl => exact laid
  | tail _ stepped ih => exact ih.next kept stepped

/-- A call whose handler is running has been made for a tag that was looked up. -/
theorem makes {invocation : Invocation} {call : TagCall} (laid : moment.Laid holds origin)
    (running : .handling invocation call ∈ moment.waiters) :
    invocation.Found holds ∧ invocation.Makes origin.settings { call with document := none } := by
  obtain ⟨located, gives⟩ := laid.waiters _ running
  have made := located.makes gives
  exact ⟨located.looked, made.undocumented.symm ▸ made⟩

end Laid

end Moment

/-- What an evaluation begins with. -/
def Task.Begins (d : Delimiters) : Task → Prop
  | .text _ | .program _ => True
  | .range document start stop => document.IsParsed d ∧ document.Region start stop
  | _ => False

section Begins

variable (runs : ∀ {registry} (program : RegistryProgram), holds registry →
  holds (program.run registry).2.1)

include runs

theorem Task.Begins.laid {task : Task} (begins : task.Begins settings.delimiters) :
    task.Laid holds settings := by
  cases task with
  | text => trivial
  | range => exact begins
  | program rest => exact Program.keeps_of_runs runs rest
  | items | invoke | deliver | result => exact begins.elim

/-- A walk may begin anywhere with nothing open. -/
theorem Moment.laid_of_leads {levels : Nat} {task : Task} {moment : Moment}
    (held : holds origin.registry) (loaded : origin.Parsed)
    (begins : task.Begins origin.settings.delimiters)
    (led : Leads ⟨levels, task, [], origin⟩ moment) : moment.Laid holds origin := by
  have begun : Laid holds ⟨levels, task, [], origin⟩ origin :=
    ⟨.refl loaded held, begins.laid runs, fun _ => nofun⟩
  exact begun.leads (Registry.keeps_of_runs runs) led

end Begins

def Engine.KeepsLocated (holds : Registry → Prop) (origin before after : Engine) : Prop :=
  before.LocatedSince holds origin → after.LocatedSince holds origin

instance : IsPreorder Engine (Engine.KeepsLocated holds origin) where
  refl _ := id
  trans _ _ _ first second := second ∘ first

namespace Evaluation

open Engine (KeepsLocated)

variable {levels : Nat} {engine : Engine} {document : Document}

theorem RealisedBy.along (kept : Registry.Keeps holds) {x : Evaluation String} {task : Task}
    (realised : x.RealisedBy levels task) (laid : task.Laid holds origin.settings) : x.Along (KeepsLocated holds origin) := by
  refine along_of_on fun engine located => ?_
  have begun : Moment.Laid holds ⟨levels, task, [], engine⟩ origin :=
    ⟨located, laid, fun _ member => by cases member⟩
  exact (begun.leads kept (realised [] engine)).engine

theorem run_located (kept : Registry.Keeps holds) (levels : Nat) {binding : Binding} {call : TagCall}
    (calls : binding.Calls holds origin.settings call) :
    (binding.run (host (range levels)) call).Along (KeepsLocated holds origin) := by
  refine along_of_on fun engine located => ?_
  have begun : Moment.Laid holds ⟨levels, .result (.ok ""), [], engine⟩ origin :=
    ⟨located, trivial, fun _ member => by cases member⟩
  have led := (realises_range levels).handle binding call [] (.result (.ok "")) engine
  exact ((begun.handle kept calls).leads kept led).engine

theorem replayOne_located (kept : Registry.Keeps holds) (levels : Nat) {entry : DeferredCall}
    (calls : entry.binding.Calls holds origin.settings entry.call) (output : String) :
    (replayOne (range levels) output entry).Along (KeepsLocated holds origin) :=
  .bind (Binding.runNamed_along (run_located kept levels calls)) fun output =>
    again_along (fun source => ((realises_range levels).text source).along kept trivial) _ output

/-- The main pass over a document and the first batches of its deferred calls. -/
theorem underway_located (kept : Registry.Keeps holds) (batches : Nat)
    (parsed : document.IsParsed origin.settings.delimiters) (loaded : origin.Parsed)
    (held : holds origin.registry) (empty : origin.deferred = .empty) :
    ((underway (range levels) batches document).on origin).2.LocatedSince holds origin := by
  refine underway_keeps (fun after => after.LocatedSince holds origin)
    (fun {middle} output located => ?_) batches ?_
  · -- no call waited at the beginning
    have calls : ∀ entry ∈ middle.deferred.entries,
        entry.binding.Calls holds origin.settings entry.call := by
      intro entry member
      refine (located.queued entry member).resolve_left fun old => ?_
      rw [empty] at old
      cases old
    have replayed : EngineT.Along (KeepsLocated holds origin)
        (middle.deferred.entries.foldlM (replayOne (range levels)) output) :=
      .foldlM (fun entry member => replayOne_located kept levels (calls entry member)) output
    exact replayed _ _ _ rfl located.drained
  · exact (realises_range levels document 0 document.size).along kept ⟨parsed, .whole⟩ _ _ _ rfl
      (.refl loaded held)

end Evaluation

end TagTemplate
