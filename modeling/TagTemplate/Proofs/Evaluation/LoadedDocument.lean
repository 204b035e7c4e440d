import TagTemplate.Proofs.Evaluation.Attribution
import TagTemplate.Proofs.Evaluation.Balance
import TagTemplate.Proofs.Evaluation.Enclosing

/-!
What becomes of the loaded document.

It is replaced by a request to load a text, and by a request from outside to render one.  Where no
handler requests a load, it stays as it is at every moment of an evaluation, whatever the handlers
expand, render and evaluate, in the main pass and in replays.
-/

namespace TagTemplate

/-- A program that requests no load, and neither do the handlers that it registers. -/
inductive Program.NeverLoads : Program → Prop where
  | done (text : String) : NeverLoads (.done text)
  | fail (error : TemplateError) : NeverLoads (.fail error)
  | inspect {next} (never : ∀ view, NeverLoads (next view)) : NeverLoads (.inspect next)
  | act {action : Action} {next} (other : ∀ source, action ≠ .load source)
      (never : ∀ answer, NeverLoads (next answer)) : NeverLoads (.act action next)
  | expand {text next} (never : ∀ answer, NeverLoads (next answer)) : NeverLoads (.expand text next)
  | render {text next} (never : ∀ answer, NeverLoads (next answer)) : NeverLoads (.render text next)
  | evaluate {next} (never : ∀ answer, NeverLoads (next answer)) : NeverLoads (.evaluate next)
  | register {name : String} {handler : Handler} {convention : Convention} {next}
      (registered : ∀ call, NeverLoads (handler call))
      (never : ∀ answer, NeverLoads (next answer)) :
      NeverLoads (.register name handler convention next)
  | setAutoload {autoload : String → RegistryProgram} {next : Program}
      (installed : ∀ name, (autoload name).Registers fun binding =>
        ∀ call, NeverLoads (binding.handler call))
      (never : NeverLoads next) : NeverLoads (.setAutoload autoload next)

def Binding.NeverLoads (binding : Binding) : Prop :=
  ∀ call, (binding.handler call).NeverLoads

namespace Engine

/-- No handler that the engine knows requests a load, nor one that it may come to know. -/
structure NeverLoads (engine : Engine) : Prop where
  registry : engine.registry.All Binding.NeverLoads
  queued : ∀ entry ∈ engine.deferred.entries, entry.binding.NeverLoads

/-- The engine of an evaluation during which a document stays loaded. -/
structure Shows (document : Document) (engine : Engine) : Prop where
  loaded : engine.document = document
  running : engine.evaluating = true
  never : engine.NeverLoads

def KeepsShown (document : Document) (before after : Engine) : Prop :=
  before.Shows document → after.Shows document

instance {document : Document} : IsPreorder Engine (KeepsShown document) where
  refl _ := id
  trans _ _ _ first second := second ∘ first

variable {engine : Engine} {document : Document}

theorem document_perform (action : Action) (other : ∀ source, action ≠ .load source)
    (engine : Engine) : (action.perform engine).2.document = engine.document := by
  cases action with
  | load source => exact absurd rfl (other source)
  | setSlot name value =>
      simp only [Action.perform, setSlot]
      split <;> rfl
  | _ => rfl

theorem NeverLoads.perform (never : engine.NeverLoads) (action : Action) :
    (action.perform engine).2.NeverLoads where
  registry := by
    cases action with
    | load source =>
        simp only [Action.perform, load]
        split <;> exact never.registry
    | setSlot name value =>
        simp only [Action.perform, setSlot]
        split <;> exact never.registry
    | unregister name => exact never.registry.unregister name
    | resolve name param => exact never.registry.resolve name param
    | _ => exact never.registry
  queued := (acted action engine).deferred ▸ never.queued

theorem NeverLoads.begin (never : engine.NeverLoads) : (Expansion.begin engine).NeverLoads :=
  ⟨never.registry, fun _ => nofun⟩

namespace Shows

theorem begin (never : engine.NeverLoads) : (Expansion.begin engine).Shows engine.document :=
  ⟨rfl, rfl, never.begin⟩

theorem update (shows : engine.Shows document) (callStack : CallStack) (depth : Nat)
    (journal : Array Event) : Shows document { engine with callStack, depth, journal } :=
  ⟨shows.loaded, shows.running, shows.never.registry, shows.never.queued⟩

theorem perform (shows : engine.Shows document) (action : Action)
    (other : ∀ source, action ≠ .load source) : (action.perform engine).2.Shows document where
  loaded := (document_perform action other engine).trans shows.loaded
  running := (acted action engine).evaluating.trans shows.running
  never := shows.never.perform action

theorem meet (shows : engine.Shows document) (item : Item) (evaluated : Document) :
    (item.meet evaluated engine).2.Shows document := by
  rcases item.engine_of_meet evaluated engine with same | ⟨tag, same⟩ <;> rw [same]
  · exact shows
  · exact shows.perform _ nofun

theorem reserve (shows : engine.Shows document) (invocation : Invocation) :
    (invocation.reserve engine).2.Shows document := by
  unfold Invocation.reserve
  split
  · refine ⟨shows.loaded, shows.running, shows.never.registry, fun entry member => ?_⟩
    exact shows.never.queued entry (by rwa [← DeferredQueue.entries_reserve])
  · exact shows

theorem fillSlot (shows : engine.Shows document) {entry : DeferredCall}
    (never : entry.binding.NeverLoads) (slot : Nat) :
    (Evaluation.fillSlot slot entry engine).Shows document := by
  refine ⟨shows.loaded, shows.running, shows.never.registry, fun other member => ?_⟩
  rcases DeferredQueue.mem_entries_fill member with rfl | old
  · exact never
  · exact shows.never.queued other old

theorem drained (shows : engine.Shows document) : (Evaluation.drained engine).Shows document :=
  ⟨shows.loaded, shows.running, shows.never.registry, fun _ => nofun⟩

end Shows

end Engine

def Task.NeverLoads : Task → Prop
  | .invoke invocation | .deliver invocation _ _ => invocation.binding.NeverLoads
  | .program left => left.NeverLoads
  | .text _ | .range _ _ _ | .items _ | .result _ => True

def Waiter.NeverLoads : Waiter → Prop
  | .body invocation _ => invocation.binding.NeverLoads
  | .request next => ∀ answer, (next answer).NeverLoads
  | .calling _ _ | .handling _ _ => True

namespace Moment

/-- The document stays loaded, and nothing that is still to be done requests a load. -/
structure Shows (moment : Moment) (document : Document) : Prop where
  engine : moment.engine.Shows document
  task : moment.task.NeverLoads
  waiters : ∀ waiter ∈ moment.waiters, waiter.NeverLoads

variable {moment after : Moment} {document : Document}

namespace Shows

theorem give (shows : moment.Shows document) (result : Except TemplateError String) :
    (moment.give result).Shows document :=
  ⟨shows.engine, trivial, shows.waiters⟩

theorem await {waiter : Waiter} (shows : moment.Shows document) (waits : waiter.NeverLoads) :
    (moment.await waiter).Shows document :=
  ⟨shows.engine, shows.task, List.forall_mem_cons.mpr ⟨waits, shows.waiters⟩⟩

theorem handle {binding : Binding} (shows : moment.Shows document) (never : binding.NeverLoads)
    (call : TagCall) : (moment.handle binding call).Shows document :=
  ⟨shows.engine.update _ _ _, never call, shows.waiters⟩

theorem leave (shows : moment.Shows document) (result : Except TemplateError String) :
    (moment.leave result).Shows document :=
  ⟨shows.engine.update _ _ _, trivial, shows.waiters⟩

theorem text (shows : moment.Shows document) (source : String) :
    (moment.text source).Shows document := by
  unfold Moment.text
  split
  · exact ⟨shows.engine, trivial, shows.waiters⟩
  · exact shows.give _

theorem range (shows : moment.Shows document) (evaluated : Document) (start stop : Nat) :
    (moment.range evaluated start stop).Shows document := by
  unfold Moment.range
  split
  · exact shows.give _
  · exact ⟨shows.engine.update _ _ _, trivial, shows.waiters⟩

theorem items (shows : moment.Shows document) (level : OpenLevel) :
    (moment.items level).Shows document := by
  unfold Moment.items
  split
  · exact shows.leave _
  · rename_i first rest left
    have met := shows.engine.meet first level.document
    have never : ∀ invocation, (first.meet level.document moment.engine).1 =
        .ok (.invoked invocation) → invocation.binding.NeverLoads := by
      intro invocation invoked
      obtain ⟨-, -, looked, -⟩ := Item.found_of_meet invoked
      exact shows.engine.never.registry.of_resolve looked
    generalize first.meet level.document moment.engine = meeting at met never ⊢
    obtain ⟨error | text | invocation, engine⟩ := meeting
    · have failed : Shows { moment with engine } document := ⟨met, shows.task, shows.waiters⟩
      exact failed.leave _
    · exact ⟨met, trivial, shows.waiters⟩
    · exact await ⟨met.update _ _ _, never invocation rfl, shows.waiters⟩ trivial

theorem invoke {invocation : Invocation} (shows : moment.Shows document)
    (never : invocation.binding.NeverLoads) : (moment.invoke invocation).Shows document := by
  have reserved := shows.engine.reserve invocation
  simp only [Moment.invoke]
  generalize invocation.reserve moment.engine = outcome at reserved ⊢
  obtain ⟨slot, engine⟩ := outcome
  split
  · exact ⟨reserved, never, shows.waiters⟩
  · split
    · exact ⟨reserved, never, shows.waiters⟩
    · exact await ⟨reserved, trivial, shows.waiters⟩ never

theorem deliver {invocation : Invocation} (shows : moment.Shows document)
    (never : invocation.binding.NeverLoads) (slot : Option Nat) (body : Option String) :
    (moment.deliver invocation slot body).Shows document := by
  unfold Moment.deliver
  split
  · exact shows.give _
  · rename_i call given
    cases slot with
    | some slot => exact ⟨shows.engine.fillSlot never slot, trivial, shows.waiters⟩
    | none =>
        have waits : Waiter.NeverLoads (.handling invocation call) := trivial
        exact (shows.await waits).handle never call

theorem program {program : Program} (shows : moment.Shows document) (never : program.NeverLoads) :
    (moment.program program).Shows document := by
  cases never with
  | done text | fail error => exact shows.give _
  | inspect never => exact ⟨shows.engine, never _, shows.waiters⟩
  | act other never => exact ⟨shows.engine.perform _ other, never _, shows.waiters⟩
  | expand never | render never | evaluate never =>
      exact await ⟨shows.engine, trivial, shows.waiters⟩ never
  | register registered never =>
      refine ⟨⟨shows.engine.loaded, shows.engine.running, ?_, shows.engine.never.queued⟩, never _,
        shows.waiters⟩
      exact shows.engine.never.registry.register _ fun _ => registered
  | setAutoload installed never =>
      refine ⟨⟨shows.engine.loaded, shows.engine.running, ⟨?_, ?_⟩, shows.engine.never.queued⟩,
        never, shows.waiters⟩
      · exact shows.engine.never.registry.bindings
      · intro autoload same
        cases same
        exact RegistryProgram.Registers.callback installed

theorem resume {waiter : Waiter} (shows : moment.Shows document) (waits : waiter.NeverLoads)
    (result : Except TemplateError String) : (moment.resume result waiter).Shows document := by
  cases waiter with
  | calling level tag =>
      cases result with
      | ok s => exact ⟨shows.engine, trivial, shows.waiters⟩
      | error error => exact shows.leave _
  | body invocation slot =>
      cases result with
      | ok s => exact ⟨shows.engine, waits, shows.waiters⟩
      | error error => exact shows.give _
  | handling invocation call =>
      cases result with
      | ok output =>
          unfold Moment.resume
          dsimp only
          split
          · exact ⟨shows.engine, trivial, shows.waiters⟩
          · exact shows.give _
      | error error => exact shows.give _
  | request next => exact ⟨shows.engine, waits result, shows.waiters⟩

theorem next (shows : moment.Shows document) (stepped : moment.next = some after) :
    after.Shows document := by
  unfold Moment.next at stepped
  have task := shows.task
  split at stepped <;> rename_i current <;> rw [current] at task
  · cases stepped
    exact shows.text _
  · cases stepped
    exact shows.range _ _ _
  · cases stepped
    exact shows.items _
  · cases stepped
    exact shows.invoke task
  · cases stepped
    exact shows.deliver task _ _
  · cases stepped
    exact shows.program task
  · split at stepped
    · cases stepped
    · rename_i waiter waiters waiting
      cases stepped
      have waits := shows.waiters
      rw [waiting] at waits
      obtain ⟨first, behind⟩ := List.forall_mem_cons.mp waits
      have handed : Shows { moment with waiters } document := ⟨shows.engine, shows.task, behind⟩
      exact handed.resume first _

theorem leads (shows : moment.Shows document) (led : moment.Leads after) :
    after.Shows document := by
  induction led with
  | refl => exact shows
  | tail _ stepped ih => exact ih.next stepped

end Shows

end Moment

namespace Evaluation

open Engine (KeepsShown)

variable {levels : Nat} {document : Document}

theorem RealisedBy.keepsShown {x : Evaluation String} {task : Task}
    (realised : x.RealisedBy levels task) (never : task.NeverLoads) :
    x.Along (KeepsShown document) := by
  refine along_of_on fun engine shows => ?_
  have begun : Moment.Shows ⟨levels, task, [], engine⟩ document := ⟨shows, never, fun _ => nofun⟩
  exact (begun.leads (realised [] engine)).engine

theorem runNamed_keepsShown (levels : Nat) {binding : Binding} (never : binding.NeverLoads)
    (call : TagCall) :
    (binding.runNamed (host (range levels)) call).Along (KeepsShown document) := by
  have ran : (binding.run (host (range levels)) call).Along (KeepsShown document) := by
    refine along_of_on fun engine shows => ?_
    have begun : Moment.Shows ⟨levels, .result (.ok ""), [], engine⟩ document :=
      ⟨shows, trivial, fun _ => nofun⟩
    have led := (realises_range levels).handle binding call [] (.result (.ok "")) engine
    exact ((begun.handle never call).leads led).engine
  exact Binding.runNamed_along ran

theorem text_keepsShown (levels : Nat) (source : String) :
    (text (range levels) source).Along (KeepsShown document) :=
  ((realises_range levels).text source).keepsShown trivial

theorem foldlM_keepsShown (levels : Nat) {entries : List DeferredCall}
    (never : ∀ entry ∈ entries, entry.binding.NeverLoads) (output : String) :
    EngineT.Along (KeepsShown document) (entries.foldlM (replayOne (range levels)) output) :=
  .foldlM (fun entry member _ =>
    .bind (runNamed_keepsShown levels (never entry member) _) fun replayed =>
      again_along (text_keepsShown levels) _ replayed) output

/-- The main pass over a document and the first batches of its deferred calls, while another
document may be loaded. -/
theorem underway_shows {engine : Engine} (never : engine.NeverLoads) (levels batches : Nat)
    (evaluated : Document) :
    ((underway (range levels) batches evaluated).on (Expansion.begin engine)).2.Shows
      engine.document := by
  refine underway_keeps (fun after => after.Shows engine.document)
    (fun {middle} output shows => ?_) batches ?_
  · exact foldlM_keepsShown levels shows.never.queued output _ _ _ rfl shows.drained
  · exact (realises_range levels evaluated 0 evaluated.size).keepsShown trivial _ _ _ rfl
      (.begin never)

theorem answer_keepsShown (levels : Nat) (request : Request) :
    ((host (range levels)).answer request).Along (KeepsShown document) := by
  cases request with
  | evaluate =>
      exact .bind .get fun engine => (realises_range levels _ _ _).keepsShown trivial
  | expand source | render source => exact text_keepsShown levels source

end Evaluation

namespace Engine

open Evaluation (range host underway replayOne drained)
open Moment (mainPass)

/-- A complete evaluation of a document comes to a deferred call, which is replayed over an output
of the document. -/
def Replays (engine : Engine) (document : Document) (entry : DeferredCall) (output : String)
    (before : Engine) : Prop :=
  ∃ batches first middle earlier later,
    (underway (range engine.settings.maxDepth) batches document).on (Expansion.begin engine) =
      (.ok first, middle) ∧
    middle.deferred.entries = earlier ++ entry :: later ∧
    Evaluation.on (earlier.foldlM (replayOne (range engine.settings.maxDepth)) first)
      (drained middle) = (.ok output, before)

/-- The moments of a complete evaluation of a document, which need not end. -/
inductive Passes (engine : Engine) (document : Document) : Moment → Prop where
  | main {moment} (led : (mainPass engine document).Leads moment) : Passes engine document moment
  /-- the handler of a deferred call is running -/
  | replayed {entry output before moment} (replays : engine.Replays document entry output before)
      (led : (Moment.handle ⟨engine.settings.maxDepth, .result (.ok output), [], before⟩
        entry.binding { entry.call with document := some output }).Leads moment) :
      Passes engine document moment
  /-- what the handler of a deferred call has returned is expanded -/
  | again {entry output before returned after moment}
      (replays : engine.Replays document entry output before)
      (ran : Evaluation.on (entry.binding.runNamed (host (range engine.settings.maxDepth))
        { entry.call with document := some output }) before = (.ok returned, after))
      (redo : entry.binding.convention.redo = true)
      (led : Moment.Leads ⟨engine.settings.maxDepth, .text returned, [], after⟩ moment) :
      Passes engine document moment

variable {engine before : Engine} {document : Document} {entry : DeferredCall} {output : String}
  {moment : Moment}

theorem Replays.shows (replays : engine.Replays document entry output before)
    (never : engine.NeverLoads) :
    entry.binding.NeverLoads ∧ before.Shows engine.document := by
  obtain ⟨batches, first, middle, earlier, later, ran, queued, folded⟩ := replays
  have reached := Evaluation.underway_shows never engine.settings.maxDepth batches document
  rw [ran] at reached
  have known := reached.never.queued
  rw [queued] at known
  refine ⟨known entry (by simp), ?_⟩
  exact Evaluation.foldlM_keepsShown engine.settings.maxDepth
    (fun other member => known other (List.mem_append_left _ member)) first _ _ _ folded
    reached.drained

theorem Passes.shows (passes : engine.Passes document moment) (never : engine.NeverLoads) :
    moment.Shows engine.document := by
  cases passes with
  | main led =>
      have begun : (mainPass engine document).Shows engine.document :=
        ⟨.begin never, trivial, fun _ => nofun⟩
      exact begun.leads led
  | @replayed entry output before _ replays led =>
      obtain ⟨quiet, shows⟩ := replays.shows never
      have begun : Moment.Shows
          ⟨engine.settings.maxDepth, .result (.ok output), [], before⟩ engine.document :=
        ⟨shows, trivial, fun _ => nofun⟩
      exact (begun.handle quiet _).leads led
  | @again entry output before returned after _ replays ran redo led =>
      obtain ⟨quiet, shows⟩ := replays.shows never
      have kept := Evaluation.runNamed_keepsShown engine.settings.maxDepth quiet _ _ _ _ ran shows
      have begun : Moment.Shows ⟨engine.settings.maxDepth, .text returned, [], after⟩
          engine.document :=
        ⟨kept, trivial, fun _ => nofun⟩
      exact begun.leads led

theorem document_of_run {batches : Nat} {result : Except TemplateError String} {after : Engine}
    (never : engine.NeverLoads)
    (ran : (Expansion.document batches document).run engine = some (result, after)) :
    after.document = engine.document := by
  obtain ⟨-, rfl⟩ := Evaluation.underway_of_run ran
  exact (Evaluation.underway_shows never engine.settings.maxDepth batches document).loaded

/-- Only loading a text, and rendering it from outside, replace the loaded document, and only if
the text can be parsed; if not, nothing happens at all.  As long as no handler loads a text,
everything else leaves the document as it is: evaluating it, expanding a text, and rendering one
from a handler, also if that fails or never ends.  At each moment of an evaluation, of its main
pass and of its replays, the document is the one that was loaded at the beginning, and the engine
knows that an evaluation is running. -/
theorem loaded_document_kept (engine : Engine) :
    (∀ source, engine.load source = match engine.parse source with
      | .ok document => (.ok (), { engine with document })
      | .error error => (.error error, engine)) ∧
    (∀ action : Action, (∀ source, action ≠ .load source) →
      (action.perform engine).2.document = engine.document) ∧
    (∀ batches source error, engine.evaluating = false → engine.parse source = .error error →
      (Expansion.render batches source).run engine = some (.error error, engine)) ∧
    (engine.NeverLoads →
      (∀ batches source document result after, engine.evaluating = false →
        engine.parse source = .ok document →
        (Expansion.render batches source).run engine = some (result, after) →
        after.document = document) ∧
      (∀ batches request result after, (∀ source, request ≠ .render source) →
        ((Expansion.host batches).answer request).run engine = some (result, after) →
        after.document = engine.document) ∧
      (∀ batches request, engine.evaluating = true → ∃ result after,
        ((Expansion.host batches).answer request).run engine = some (result, after) ∧
        after.document = engine.document ∧ after.evaluating = true ∧ after.NeverLoads) ∧
      ∀ document moment, engine.Passes document moment →
        moment.engine.document = engine.document ∧ moment.engine.evaluating = true ∧
        moment.engine.NeverLoads) := by
  have nested (never : engine.NeverLoads) (batches : Nat) (request : Request)
      (running : engine.evaluating = true) : ∃ result after,
      ((Expansion.host batches).answer request).run engine = some (result, after) ∧
      after.Shows engine.document := by
    refine ⟨_, _, Expansion.run_answer_nested batches request running, ?_⟩
    exact Evaluation.answer_keepsShown engine.levelsLeft request _ _ _ rfl ⟨rfl, running, never⟩
  refine ⟨fun source => rfl, fun action other => document_perform action other engine, ?_, ?_⟩
  · intro batches source error idle failed
    have ran := Expansion.run_answer batches (.render source) idle
    simp only [Request.target, failed] at ran
    exact ran
  refine fun never => ⟨?_, ?_, ?_, ?_⟩
  · intro batches source document result after idle parsed ran
    have answered := Expansion.run_answer batches (.render source) idle
    simp only [Request.target, parsed] at answered
    have loaded : NeverLoads { engine with document } := ⟨never.registry, never.queued⟩
    exact document_of_run loaded (answered.symm.trans ran)
  · intro batches request result after other ran
    cases running : engine.evaluating with
    | true =>
        obtain ⟨_, _, again, shows⟩ := nested never batches request running
        rw [ran] at again
        cases again
        exact shows.loaded
    | false =>
        rw [Expansion.run_answer batches request running] at ran
        cases request with
        | evaluate => exact document_of_run never ran
        | expand source =>
            simp only [Request.target] at ran
            cases parsed : engine.parse source with
            | error error =>
                rw [parsed] at ran
                cases ran
                rfl
            | ok document =>
                rw [parsed] at ran
                exact document_of_run never ran
        | render source => exact absurd rfl (other source)
  · intro batches request running
    obtain ⟨result, after, ran, shows⟩ := nested never batches request running
    exact ⟨result, after, ran, shows.loaded, shows.running, shows.never⟩
  · intro document moment passes
    have shows := (passes.shows never).engine
    exact ⟨shows.loaded, shows.running, shows.never⟩

/-- An engine with a tag whose handler renders a text, and a deferred one whose handler renders
that tag and writes the result behind the output. -/
def rendering : Engine :=
  shallow ⟨⟨":", [("late", ⟨fun call => .render "\x7bnow:\x7d" fun
      | .ok text => .done (call.document.getD "" ++ text)
      | .error error => .fail error, { deferred := true }, false⟩),
    ("now", ⟨fun _ => .render "x" fun
      | .ok text => .done text
      | .error error => .fail error, .default, false⟩)]⟩, none⟩

theorem neverLoads_rendering : rendering.NeverLoads where
  registry := by
    refine Bindings.All.detached fun name binding member => ?_
    simp only [List.mem_cons, Prod.mk.injEq, List.not_mem_nil, or_false] at member
    rcases member with ⟨-, rfl⟩ | ⟨-, rfl⟩ <;> refine fun call => .render fun answer => ?_
    · cases answer with
      | ok text => exact .done _
      | error error => exact .fail error
    · cases answer with
      | ok text => exact .done text
      | error error => exact .fail error
  queued := fun _ => nofun

/-- The handlers render texts of their own, in the main pass, in the replay and inside what the
handler of the replay renders; a text that cannot be parsed changes nothing. -/
theorem loaded_document_kept_rendering :
    rendering.NeverLoads ∧
    (Expansion.render 1 "\x7bnow:\x7d\x7blate:\x7d\x7b:now\x7d\x7b:late\x7d").run rendering =
      some (.error (.nesting ⟨"\x7bnow:\x7d", 0⟩ ⟨"\x7blate:\x7d", 6⟩), rendering) ∧
    ∃ document after entry before,
      rendering.parse "\x7blate:\x7d\x7bnow:\x7d" = .ok document ∧
      (Expansion.render 1 "\x7blate:\x7d\x7bnow:\x7d").run rendering = some (.ok "xx", after) ∧
      after.document = document ∧
      Replays { rendering with document } document entry "x" before ∧
      (Moment.handle ⟨3, .result (.ok "x"), [], before⟩ entry.binding
        { entry.call with document := some "x" }).engine.document = document := by
  have crossed : rendering.parse "\x7bnow:\x7d\x7blate:\x7d\x7b:now\x7d\x7b:late\x7d" =
      .error (.nesting ⟨"\x7bnow:\x7d", 0⟩ ⟨"\x7blate:\x7d", 6⟩) := by decide +kernel
  have rendered : ((Expansion.render 1 "\x7blate:\x7d\x7bnow:\x7d").run rendering).map Prod.fst =
      some (.ok "xx") := by decide +kernel
  have main : (rendering.parse "\x7blate:\x7d\x7bnow:\x7d").toOption.map (fun document =>
      let ran := (underway (range 3) 0 document).on (Expansion.begin { rendering with document })
      (ran.1, ran.2.deferred.entries.length)) = some (.ok "x", 1) := by decide +kernel
  obtain ⟨document, parsed, same⟩ := Option.map_eq_some_iff.mp main
  obtain ⟨first, length⟩ := Prod.mk.inj same
  obtain ⟨entry, queued⟩ := List.length_eq_one_iff.mp length
  obtain ⟨⟨result, after⟩, ran, rfl⟩ := Option.map_eq_some_iff.mp rendered
  have replays : Replays { rendering with document } document entry "x" _ :=
    ⟨0, "x", _, [], [], Prod.ext first rfl, queued, rfl⟩
  obtain ⟨-, -, refused, kept⟩ := loaded_document_kept rendering
  obtain ⟨loaded, -⟩ := kept neverLoads_rendering
  obtain ⟨-, -, -, inside⟩ := loaded_document_kept { rendering with document }
  obtain ⟨-, -, -, moments⟩ :=
    inside ⟨neverLoads_rendering.registry, neverLoads_rendering.queued⟩
  exact ⟨neverLoads_rendering, refused 1 _ _ rfl crossed, document, after, entry, _,
    parse_of_toOption parsed, ran, loaded 1 _ _ _ _ rfl (parse_of_toOption parsed) ran, replays,
    (moments document _ (.replayed replays (.refl _))).1⟩

end Engine

end TagTemplate
