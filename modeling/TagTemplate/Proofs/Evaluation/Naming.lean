import TagTemplate.Proofs.Evaluation.Attribution

/-!
Under which names handlers are called.

Only open tags are looked up, and a call bears the name that the look-up has found its binding
under, also when it has waited in the queue.  So no handler is called under an empty name.
-/

namespace TagTemplate

/-- A program that installs no autoload callback, and nor do the handlers that it registers. -/
inductive Program.Still : Program → Prop where
  | done (text : String) : Still (.done text)
  | fail (error : TemplateError) : Still (.fail error)
  | inspect {next} (still : ∀ view, Still (next view)) : Still (.inspect next)
  | act {action : Action} {next} (still : ∀ answer, Still (next answer)) :
      Still (.act action next)
  | expand {text next} (still : ∀ answer, Still (next answer)) : Still (.expand text next)
  | render {text next} (still : ∀ answer, Still (next answer)) : Still (.render text next)
  | evaluate {next} (still : ∀ answer, Still (next answer)) : Still (.evaluate next)
  | register {name : String} {handler : Handler} {convention : Convention} {next}
      (handles : ∀ call, Still (handler call)) (still : ∀ answer, Still (next answer)) :
      Still (.register name handler convention next)

def Binding.Still (binding : Binding) : Prop :=
  ∀ call, (binding.handler call).Still

/-- There is no autoload callback, and no handler installs one. -/
structure Registry.Still (registry : Registry) : Prop where
  autoload : registry.autoload = none
  bindings : registry.bindings.All Binding.Still

namespace Registry

variable {registry : Registry} {name param : String} {resolved : Resolved}

theorem Still.resolve (still : registry.Still) (name param : String) :
    (registry.resolve name param).2.1 = registry := by
  rw [resolve_of_still still.autoload]

theorem Still.all (still : registry.Still) : registry.All Binding.Still where
  bindings := still.bindings
  autoload autoload installed := by
    rw [still.autoload] at installed
    cases installed

theorem Still.of_resolve (still : registry.Still)
    (found : (registry.resolve name param).1 = .ok (some resolved)) : resolved.binding.Still :=
  still.all.of_resolve found

theorem Still.unregister (still : registry.Still) (name : String) :
    (registry.unregister name).2.Still :=
  ⟨still.autoload, (still.all.unregister name).bindings⟩

theorem Still.register (still : registry.Still) (name : String) {binding : Binding}
    (handles : binding.Still) : (registry.register name binding).2.Still := by
  refine ⟨?_, (still.all.register name fun _ => handles).bindings⟩
  unfold Registry.register
  split <;> exact still.autoload

theorem Still.perform {engine : Engine} (still : engine.registry.Still) (action : Action) :
    (action.perform engine).2.registry.Still := by
  cases action with
  | load source =>
      simp only [Action.perform, Engine.load]
      split <;> exact still
  | setSlot name value =>
      simp only [Action.perform, Engine.setSlot]
      split <;> exact still
  | setVariable | removeVariable | clearVariables => exact still
  | unregister name => exact still.unregister name
  | resolve name param =>
      have same : (Action.perform engine (.resolve name param)).2.registry = engine.registry :=
        still.resolve name param
      rwa [same]

end Registry

theorem Program.Still.keeps {program : Program} (still : program.Still) :
    program.Keeps Registry.Still := by
  induction still with
  | done text => exact .done text
  | fail error => exact .fail error
  | inspect _ ih => exact .inspect ih
  | act _ ih => exact .act (fun engine still => still.perform _) ih
  | expand _ ih => exact .expand ih
  | render _ ih => exact .render ih
  | evaluate _ ih => exact .evaluate ih
  | register handles _ _ ih => exact .register (fun registry still => still.register _ handles) ih

theorem Registry.keeps_still : Registry.Keeps Registry.Still where
  resolve name param still := by rwa [still.resolve name param]
  handlers still found call := (still.of_resolve found call).keeps

/-- A tag with a name is found under a name. -/
theorem Bindings.name_ne_of_find? {bindings : Bindings} {name param : String}
    {resolved : Resolved} (named : name ≠ "")
    (found : bindings.find? name param = some resolved) : resolved.name ≠ "" := by
  unfold find? at found
  split at found
  · cases found
    exact named
  · split at found
    · cases found
    · obtain ⟨binding, -, rfl⟩ := Option.map_eq_some_iff.mp found
      simp [named]

namespace Document

variable {document : Document} {d : Delimiters} {start stop index here resume : Nat} {tag : Tag}
  {closer : Option Nat}

/-- The tags of a document have found their roles. -/
def Paired (document : Document) : Prop :=
  Pairing.Nested document.segments.toList document.roles

theorem Paired.isClose_of_mem_outlineFrom (paired : document.Paired) {segments : List Segment}
    (placed : ∀ offset segment, segments[offset]? = some segment →
      document.segments.toList[here + offset]? = some segment)
    (member : .call index tag closer ∈ document.outlineFrom here resume segments) :
    tag.isClose = false := by
  induction segments generalizing here resume with
  | nil => cases member
  | cons segment rest ih =>
      have found : document.segments.toList[here]? = some segment := placed 0 segment rfl
      have behind : ∀ offset segment, rest[offset]? = some segment →
          document.segments.toList[here + 1 + offset]? = some segment := by
        intro offset next found
        rw [Nat.add_assoc, Nat.add_comm 1]
        exact placed (offset + 1) next found
      -- Only an open tag has one of the two roles.
      have opens : ∀ tag, segment = .tag tag →
          (document.role? here = some .selfClosed ∨
            ∃ closer, document.role? here = some (.closedAt closer)) → tag.isClose = false := by
        rintro tag rfl role
        cases unnamed : tag.isClose with
        | false => rfl
        | true =>
            rcases paired.closer found unnamed with other | ⟨opener, other⟩ <;>
              have given := role?_eq_some_iff.mpr other <;> simp [given] at role
      unfold outlineFrom at member
      split at member
      · exact ih behind member
      split at member
      · exact ih behind (by simpa using member)
      · exact ih behind member
      · exact ih behind (by simpa using member)
      · rename_i tag role
        rcases List.mem_cons.mp member with same | later
        · cases same
          exact opens tag rfl (.inl role)
        · exact ih behind later
      · rename_i tag closer role
        rcases List.mem_cons.mp member with same | later
        · cases same
          exact opens tag rfl (.inr ⟨closer, role⟩)
        · exact ih behind later
      · exact ih behind (by simpa using member)

theorem Paired.isClose_of_mem_outline (paired : document.Paired)
    (member : .call index tag closer ∈ document.outline start stop) : tag.isClose = false := by
  refine paired.isClose_of_mem_outlineFrom (fun offset segment found => ?_) member
  rw [range, List.getElem?_drop, List.getElem?_take] at found
  split at found
  · exact found
  · cases found

theorem paired_of_parse {source : String} (parsed : parse d source = .ok document) :
    document.Paired :=
  IsParsed.nested (.inr ⟨source, parsed⟩)

end Document

/-- A look-up of an open tag has found what the tag calls. -/
structure Invocation.Named (holds : Registry → Prop) (invocation : Invocation) : Prop where
  found : invocation.Found holds
  named : invocation.tag.isClose = false

/-- The look-up of an open tag, in a registry of which something holds, has found a binding
under a name. -/
def Binding.FoundAs (holds : Registry → Prop) (binding : Binding) (name : String) : Prop :=
  ∃ invocation : Invocation, invocation.Named holds ∧ invocation.binding = binding ∧
    invocation.resolved.name = name

variable {holds : Registry → Prop} {binding : Binding} {name : String}

theorem Invocation.Named.foundAs {invocation : Invocation} (named : invocation.Named holds) :
    invocation.binding.FoundAs holds invocation.resolved.name :=
  ⟨invocation, named, rfl, rfl⟩

namespace Binding.FoundAs

theorem keeps (found : binding.FoundAs holds name) (kept : Registry.Keeps holds)
    (call : TagCall) : (binding.handler call).Keeps holds := by
  obtain ⟨invocation, ⟨⟨registry, held, looked⟩, -⟩, rfl, -⟩ := found
  exact kept.handlers held looked call

theorem mono {weaker : Registry → Prop} (found : binding.FoundAs holds name)
    (implies : ∀ registry, holds registry → weaker registry) : binding.FoundAs weaker name := by
  obtain ⟨invocation, ⟨⟨registry, held, looked⟩, opens⟩, same, resolved⟩ := found
  exact ⟨invocation, ⟨⟨registry, implies registry held, looked⟩, opens⟩, same, resolved⟩

theorem name_ne (found : binding.FoundAs holds name)
    (still : ∀ registry, holds registry → registry.autoload = none) : name ≠ "" := by
  obtain ⟨invocation, ⟨⟨registry, held, looked⟩, named⟩, -, rfl⟩ := found
  rw [Registry.resolve_of_still (still registry held)] at looked
  refine Bindings.name_ne_of_find? ?_ (Except.ok.inj looked)
  simpa [Tag.isClose, String.isEmpty_iff] using named

end Binding.FoundAs

namespace Engine

/-- Something holds of the registry, the loaded document is paired, and each waiting call bears
the name that its binding was found under. -/
structure Named (holds : Registry → Prop) (engine : Engine) : Prop where
  held : holds engine.registry
  paired : engine.document.Paired
  queued : ∀ entry ∈ engine.deferred.entries, entry.binding.FoundAs holds entry.call.name

def KeepsNames (holds : Registry → Prop) (before after : Engine) : Prop :=
  before.Named holds → after.Named holds

instance : IsPreorder Engine (KeepsNames holds) where
  refl _ := id
  trans _ _ _ first second := second ∘ first

variable {engine : Engine}

theorem Named.perform (named : engine.Named holds) (action : Action)
    (acts : ∀ engine : Engine, holds engine.registry → holds (action.perform engine).2.registry) :
    (action.perform engine).2.Named holds := by
  have acted := acted action engine
  refine ⟨acts engine named.held, ?_, acted.deferred ▸ named.queued⟩
  rcases acted.document with same | ⟨source, parsed⟩
  · exact same ▸ named.paired
  · exact Document.paired_of_parse parsed

theorem Named.reserve (named : engine.Named holds) (invocation : Invocation) :
    (invocation.reserve engine).2.Named holds := by
  unfold Invocation.reserve
  split
  · refine ⟨named.held, named.paired, fun entry member => named.queued entry ?_⟩
    rwa [← DeferredQueue.entries_reserve]
  · exact named

theorem Named.fillSlot (named : engine.Named holds) {entry : DeferredCall}
    (found : entry.binding.FoundAs holds entry.call.name) (slot : Nat) :
    (Evaluation.fillSlot slot entry engine).Named holds := by
  refine ⟨named.held, named.paired, fun other member => ?_⟩
  rcases DeferredQueue.mem_entries_fill member with rfl | old
  · exact found
  · exact named.queued other old

theorem Named.drained (named : engine.Named holds) : (Evaluation.drained engine).Named holds :=
  ⟨named.held, named.paired, fun _ member => by cases member⟩

end Engine

namespace Item

variable {document : Document} {item : Item} {engine : Engine}

theorem meet_named (kept : Registry.Keeps holds) (named : engine.Named holds)
    (document : Document) (item : Item) : (item.meet document engine).2.Named holds := by
  rcases item.engine_of_meet document engine with same | ⟨tag, same⟩ <;> rw [same]
  · exact named
  · exact named.perform (.resolve tag.name tag.param) fun engine held =>
      kept.resolve tag.name tag.param held

theorem named_of_meet {invocation : Invocation} (held : holds engine.registry)
    (opens : ∀ index tag closer, item = .call index tag closer → tag.isClose = false)
    (invoked : (item.meet document engine).1 = .ok (.invoked invocation)) :
    invocation.document = document ∧ invocation.Named holds := by
  obtain ⟨called, same, found, -⟩ := found_of_meet invoked
  exact ⟨same, ⟨engine.registry, held, found⟩, opens _ _ _ called⟩

end Item

namespace Evaluation

open Engine (KeepsNames)

variable {level : Level}

/-- The evaluation of ranges on a level lets calls wait under their names only. -/
def NamesLevel (holds : Registry → Prop) (level : Level) : Prop :=
  ∀ (document : Document) (start stop : Nat), document.Paired →
    (level document start stop).Along (KeepsNames holds)

namespace NamesLevel

variable (names : NamesLevel holds level)

include names

theorem text (source : String) : (Evaluation.text level source).Along (KeepsNames holds) :=
  bind_of_on (.step fun _ => refl _) fun _ document _ parsed =>
    names document 0 document.size (Document.paired_of_parse (congrArg Prod.fst parsed))

theorem program {program : Program} (keeps : program.Keeps holds) :
    EngineT.Along (KeepsNames holds) (program.run (host level)) := by
  induction keeps with
  | done text => exact .pure text
  | fail error => exact .throw error
  | inspect keeps ih => exact .bind .get fun engine => ih engine.view
  | act acts keeps ih => exact .bind (.step fun engine named => named.perform _ acts) ih
  | expand keeps ih | render keeps ih => exact .bind (.attempt (names.text _)) ih
  | evaluate keeps ih =>
      refine .bind (.attempt (along_of_on fun engine named => ?_)) ih
      exact names engine.document 0 engine.document.size named.paired engine _ _ rfl named
  | register registers keeps ih =>
      exact .bind (.attempt (.step fun engine named =>
        ⟨registers _ named.held, named.paired, named.queued⟩)) ih
  | setAutoload installs keeps ih =>
      exact .bind (.change fun engine named =>
        ⟨installs _ named.held, named.paired, named.queued⟩) fun _ => ih

theorem runNamed (kept : Registry.Keeps holds) (found : binding.FoundAs holds name)
    (call : TagCall) : (binding.runNamed (host level) call).Along (KeepsNames holds) :=
  Binding.runNamed_along
    (.bind (.change fun _ named => ⟨named.held, named.paired, named.queued⟩)
      fun _ => names.program (found.keeps kept call))

theorem again (convention : Convention) (output : String) :
    (Evaluation.again level convention output).Along (KeepsNames holds) :=
  again_along names.text convention output

theorem bodyText {document : Document} (paired : document.Paired) (convention : Convention)
    (index : Nat) (closer : Option Nat) :
    (Evaluation.bodyText level document convention index closer).Along (KeepsNames holds) := by
  unfold Evaluation.bodyText
  split
  · exact .pure none
  · split
    · exact .bind .get fun _ => .pure _
    · exact .bind (names _ _ _ paired) fun _ => .pure _

theorem conclude (kept : Registry.Keeps holds) {invocation : Invocation}
    (named : invocation.Named holds) (slot : Option Nat) (body : Option String) :
    (invocation.conclude level slot body).Along (KeepsNames holds) := by
  refine .bind .get fun settings => bind_of_on (.settle _) fun engine call after given => ?_
  have decoded : invocation.call settings.settings body = .ok call := congrArg Prod.fst given
  have bears : call.name = invocation.resolved.name := (decoded_eq_ok_iff.mp decoded).1
  cases slot with
  | some slot =>
      refine .bind (.change fun engine held => held.fillSlot ?_ slot) fun _ => .pure ""
      exact bears ▸ named.foundAs
  | none =>
      exact .bind (names.runNamed kept named.foundAs call) fun output => names.again _ output

theorem run (kept : Registry.Keeps holds) {invocation : Invocation}
    (named : invocation.Named holds) (paired : invocation.document.Paired) :
    (invocation.run level).Along (KeepsNames holds) :=
  .bind (.step fun _ held => held.reserve invocation) fun slot =>
    .bind (names.bodyText paired _ _ _) fun body => names.conclude kept named slot body

theorem item (kept : Registry.Keeps holds) {document : Document} (paired : document.Paired)
    {first : Item} (opens : ∀ index tag closer, first = .call index tag closer →
      tag.isClose = false) :
    (Evaluation.item level document first).Along (KeepsNames holds) := by
  refine along_of_on fun engine named => ?_
  have met := Item.meet_named kept named document first
  have invoked : ∀ invocation, (first.meet document engine).1 = .ok (.invoked invocation) →
      invocation.document = document ∧ invocation.Named holds :=
    fun invocation => Item.named_of_meet named.held opens
  rw [on_item]
  generalize first.meet document engine = meeting at met invoked ⊢
  obtain ⟨error | text | invocation, middle⟩ := meeting
  · exact met
  · exact met
  · obtain ⟨rfl, callee⟩ := invoked invocation rfl
    exact names.run kept callee paired _ _ _ rfl ⟨met.held, met.paired, met.queued⟩

theorem items (kept : Registry.Keeps holds) {document : Document} (paired : document.Paired)
    {items : List Item} (opens : ∀ index tag closer, .call index tag closer ∈ items →
      tag.isClose = false) :
    (Evaluation.items level document items).Along (KeepsNames holds) := by
  induction items with
  | nil => exact .pure ""
  | cons first rest ih =>
      refine .bind (names.item kept paired ?_) fun _ => .bind (ih ?_) fun _ => .pure _
      · rintro index tag closer rfl
        exact opens index tag closer (.head _)
      · intro index tag closer member
        exact opens index tag closer (.tail _ member)

theorem replayOne (kept : Registry.Keeps holds) {entry : DeferredCall}
    (found : entry.binding.FoundAs holds entry.call.name) (output : String) :
    (Evaluation.replayOne level output entry).Along (KeepsNames holds) :=
  .bind (names.runNamed kept found _) fun output => names.again _ output

theorem foldlM_replayOne (kept : Registry.Keeps holds) {entries : List DeferredCall}
    (found : ∀ entry ∈ entries, entry.binding.FoundAs holds entry.call.name) (output : String) :
    EngineT.Along (KeepsNames holds) (entries.foldlM (Evaluation.replayOne level) output) :=
  .foldlM (fun entry member => names.replayOne kept (found entry member)) output

end NamesLevel

theorem namesLevel_range (kept : Registry.Keeps holds) (levels : Nat) :
    NamesLevel holds (range levels) := by
  induction levels with
  | zero => exact fun document start stop paired => .bind .get fun engine => .throw _
  | succ levels ih =>
      intro document start stop paired
      have inner : (items (range levels) document (document.outline start stop)).Along
          (KeepsNames holds) :=
        ih.items kept paired fun _ _ _ member => paired.isClose_of_mem_outline member
      refine .between inner fun engine after moved named => ?_
      obtain ⟨held, loaded, queued⟩ := moved ⟨named.held, named.paired, named.queued⟩
      exact ⟨held, loaded, queued⟩

end Evaluation

end TagTemplate
