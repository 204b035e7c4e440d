import TagTemplate.Proofs.Evaluation.Invocation
import TagTemplate.Proofs.Evaluation.Quiet

/-!
Where calls come from.

Every call that an evaluation notes or queues is that of a tag which a look-up has found, and
it keeps to the rules of the convention that the look-up has found with it.  The registry may
change meanwhile, as long as look-ups and handlers keep what is known of it.
-/

namespace TagTemplate

/-- A program whose requests to the registry keep what holds of it. -/
inductive Program.Keeps (holds : Registry → Prop) : Program → Prop where
  | done (text : String) : Keeps holds (.done text)
  | fail (error : TemplateError) : Keeps holds (.fail error)
  | inspect {next} (keeps : ∀ view, Keeps holds (next view)) : Keeps holds (.inspect next)
  | act {action : Action} {next}
      (acts : ∀ engine : Engine, holds engine.registry → holds (action.perform engine).2.registry)
      (keeps : ∀ answer, Keeps holds (next answer)) : Keeps holds (.act action next)
  | expand {text next} (keeps : ∀ answer, Keeps holds (next answer)) :
      Keeps holds (.expand text next)
  | render {text next} (keeps : ∀ answer, Keeps holds (next answer)) :
      Keeps holds (.render text next)
  | evaluate {next} (keeps : ∀ answer, Keeps holds (next answer)) : Keeps holds (.evaluate next)
  | register {name : String} {handler : Handler} {convention : Convention} {next}
      (registers : ∀ registry, holds registry →
        holds (registry.register name ⟨handler, convention, false⟩).2)
      (keeps : ∀ answer, Keeps holds (next answer)) :
      Keeps holds (.register name handler convention next)
  | setAutoload {autoload : String → RegistryProgram} {next : Program}
      (installs : ∀ registry, holds registry →
        holds { registry with autoload := some (RegistryProgram.callback autoload) })
      (keeps : Keeps holds next) : Keeps holds (.setAutoload autoload next)

/-- What holds of a registry is kept by look-ups and by the handlers that they find. -/
structure Registry.Keeps (holds : Registry → Prop) : Prop where
  resolve : ∀ {registry : Registry} (name param : String), holds registry →
    holds (registry.resolve name param).2.1
  handlers : ∀ {registry : Registry} {name param : String} {resolved : Resolved},
    holds registry → (registry.resolve name param).1 = .ok (some resolved) →
    ∀ call, (resolved.binding.handler call).Keeps holds

theorem Program.Keeps.and {first second : Registry → Prop} {program : Program}
    (one : program.Keeps first) (other : program.Keeps second) :
    program.Keeps fun registry => first registry ∧ second registry := by
  induction one with
  | done text => exact .done text
  | fail error => exact .fail error
  | inspect _ ih =>
      cases other with
      | inspect keeps => exact .inspect fun view => ih view (keeps view)
  | act acts _ ih =>
      cases other with
      | act too keeps =>
          exact .act (fun engine held => ⟨acts engine held.1, too engine held.2⟩)
            fun answer => ih answer (keeps answer)
  | expand _ ih =>
      cases other with
      | expand keeps => exact .expand fun answer => ih answer (keeps answer)
  | render _ ih =>
      cases other with
      | render keeps => exact .render fun answer => ih answer (keeps answer)
  | evaluate _ ih =>
      cases other with
      | evaluate keeps => exact .evaluate fun answer => ih answer (keeps answer)
  | register registers _ ih =>
      cases other with
      | register too keeps =>
          exact .register
            (fun registry held => ⟨registers registry held.1, too registry held.2⟩)
            fun answer => ih answer (keeps answer)
  | setAutoload installs _ ih =>
      cases other with
      | setAutoload too keeps =>
          exact .setAutoload
            (fun registry held => ⟨installs registry held.1, too registry held.2⟩) (ih keeps)

theorem Registry.Keeps.and {first second : Registry → Prop} (one : Registry.Keeps first)
    (other : Registry.Keeps second) :
    Registry.Keeps fun registry => first registry ∧ second registry where
  resolve name param held := ⟨one.resolve name param held.1, other.resolve name param held.2⟩
  handlers held found call :=
    (one.handlers held.1 found call).and (other.handlers held.2 found call)

/-- What a request does to the registry is done by a program of requests to it alone. -/
theorem Action.exists_run (action : Action) (engine : Engine) :
    ∃ program : RegistryProgram,
      (action.perform engine).2.registry = (program.run engine.registry).2.1 := by
  cases action with
  | load source =>
      refine ⟨.done, ?_⟩
      simp only [Action.perform, Engine.load]
      split <;> rfl
  | setSlot name value =>
      refine ⟨.done, ?_⟩
      simp only [Action.perform, Engine.setSlot]
      split <;> rfl
  | setVariable path value mode => exact ⟨.done, rfl⟩
  | removeVariable path => exact ⟨.done, rfl⟩
  | clearVariables => exact ⟨.done, rfl⟩
  | unregister name => exact ⟨.unregister name fun _ => .done, rfl⟩
  | resolve name param => exact ⟨.resolve name param fun _ => .done, rfl⟩

section Runs

variable {holds : Registry → Prop}
  (runs : ∀ {registry} (program : RegistryProgram), holds registry →
    holds (program.run registry).2.1)

include runs

/-- Every program keeps what no request to the registry can change. -/
theorem Program.keeps_of_runs : (program : Program) → program.Keeps holds
  | .done text => .done text
  | .fail error => .fail error
  | .inspect next => .inspect fun view => keeps_of_runs (next view)
  | .act action next =>
    .act (fun engine held => by
        obtain ⟨program, ran⟩ := action.exists_run engine
        exact ran ▸ runs program held)
      fun answer => keeps_of_runs (next answer)
  | .expand _ next => .expand fun answer => keeps_of_runs (next answer)
  | .render _ next => .render fun answer => keeps_of_runs (next answer)
  | .evaluate next => .evaluate fun answer => keeps_of_runs (next answer)
  | .register name handler convention next =>
    .register (fun _ held => runs (.register name handler convention false fun _ => .done) held)
      fun answer => keeps_of_runs (next answer)
  | .setAutoload autoload next =>
    .setAutoload (fun _ held => runs (.setAutoload autoload .done) held) (keeps_of_runs next)

theorem Registry.keeps_of_runs : Registry.Keeps holds where
  resolve name param held := runs (.resolve name param fun _ => .done) held
  handlers _ _ _ := Program.keeps_of_runs runs _

end Runs

/-- What holds of every registered binding. -/
def Bindings.All (accepts : Binding → Prop) (bindings : Bindings) : Prop :=
  ∀ name binding, (name, binding) ∈ bindings.table → accepts binding

theorem Bindings.All.of_find? {accepts : Binding → Prop} {bindings : Bindings}
    {name param : String} {resolved : Resolved} (all : bindings.All accepts)
    (found : bindings.find? name param = some resolved) : accepts resolved.binding := by
  obtain ⟨key, looked⟩ := Bindings.get?_of_find? found
  exact all key _ (Keyed.mem_of_find? looked)

/-- An autoload callback that registers accepted bindings only, and so do those it installs. -/
inductive Autoload.Registers (accepts : Binding → Prop) : Autoload → Prop where
  | mk {call}
      (registers : ∀ name bindings, bindings.All accepts → (call name bindings).2.1.All accepts)
      (installs : ∀ name bindings installed, bindings.All accepts →
        (call name bindings).2.2.1 = some installed → Registers accepts installed) :
      Registers accepts (.mk call)

/-- What holds of every binding of a registry, also of those that it loads later. -/
structure Registry.All (accepts : Binding → Prop) (registry : Registry) : Prop where
  bindings : registry.bindings.All accepts
  autoload : ∀ autoload, registry.autoload = some autoload → autoload.Registers accepts

theorem Bindings.All.detached {accepts : Binding → Prop} {bindings : Bindings}
    (all : bindings.All accepts) : Registry.All accepts ⟨bindings, none⟩ where
  bindings := all
  autoload _ none := by cases none

namespace Registry.All

variable {accepts : Binding → Prop} {registry : Registry}

theorem resolve (all : registry.All accepts) (name param : String) :
    (registry.resolve name param).2.1.All accepts := by
  unfold Registry.resolve
  split
  · exact all
  · split
    · exact all
    · rename_i call installed
      obtain ⟨registers, installs⟩ := all.autoload _ installed
      have registered := registers name _ all.bindings
      have follows := fun other => installs name _ other all.bindings
      generalize call name registry.bindings = ran at registered follows ⊢
      obtain ⟨result, bindings, other, events⟩ := ran
      refine ⟨registered, ?_⟩
      intro autoload same
      cases other with
      | none =>
          cases same
          exact all.autoload _ installed
      | some other =>
          cases same
          exact follows other rfl

theorem register (all : registry.All accepts) (name : String) {binding : Binding}
    (accepted : binding.convention.validate = .ok () → accepts binding) :
    (registry.register name binding).2.All accepts := by
  unfold Registry.register
  cases registered : registry.bindings.register name binding with
  | error error => exact all
  | ok added =>
      obtain ⟨-, validated, rfl⟩ := Bindings.register_eq_ok registered
      refine ⟨fun other found member => ?_, all.autoload⟩
      rcases Keyed.mem_insert member with same | old
      · cases same
        exact accepted validated
      · exact all.bindings other found old

theorem unregister (all : registry.All accepts) (name : String) :
    (registry.unregister name).2.All accepts :=
  ⟨fun other binding member => all.bindings other binding (List.mem_of_mem_filter member),
    all.autoload⟩

theorem of_resolve (all : registry.All accepts) {name param : String} {resolved : Resolved}
    (found : (registry.resolve name param).1 = .ok (some resolved)) : accepts resolved.binding := by
  unfold Registry.resolve at found
  split at found
  · rename_i other looked
    cases found
    exact all.bindings.of_find? looked
  · split at found
    · cases found
    · rename_i call installed
      obtain ⟨registers, -⟩ := all.autoload _ installed
      have registered := registers name _ all.bindings
      generalize call name registry.bindings = ran at found registered
      obtain ⟨error | _, bindings, next, events⟩ := ran
      · cases found
      · exact registered.of_find? (Except.ok.inj found)

end Registry.All

theorem Registry.all_empty (accepts : Binding → Prop) (separator : String) :
    (Registry.empty separator).All accepts :=
  Bindings.All.detached fun _ _ member => by cases member

namespace RegistryProgram

/-- A program of requests to the registry that registers accepted bindings only, and so do the
callbacks it installs.  A binding whose convention is refused does not count. -/
inductive Registers (accepts : Binding → Prop) : RegistryProgram → Prop where
  | done : Registers accepts .done
  | fail (error : TemplateError) : Registers accepts (.fail error)
  | inspect {next} (registers : ∀ conventions, Registers accepts (next conventions)) :
      Registers accepts (.inspect next)
  | register {name : String} {handler : Handler} {convention : Convention} {builtIn : Bool} {next}
      (accepted : convention.validate = .ok () → accepts ⟨handler, convention, builtIn⟩)
      (registers : ∀ answer, Registers accepts (next answer)) :
      Registers accepts (.register name handler convention builtIn next)
  | unregister {name : String} {next} (registers : ∀ answer, Registers accepts (next answer)) :
      Registers accepts (.unregister name next)
  | resolve {name param : String} {next} (registers : ∀ answer, Registers accepts (next answer)) :
      Registers accepts (.resolve name param next)
  | setAutoload {autoload : String → RegistryProgram} {next : RegistryProgram}
      (installs : ∀ name, Registers accepts (autoload name)) (registers : Registers accepts next) :
      Registers accepts (.setAutoload autoload next)

variable {accepts : Binding → Prop}

theorem registers_callback {autoload : String → RegistryProgram}
    (runs : ∀ name bindings, Registry.All accepts ⟨bindings, none⟩ →
      ((autoload name).run ⟨bindings, none⟩).2.1.All accepts) :
    (callback autoload).Registers accepts := by
  refine .mk (fun name bindings all => ?_) fun name bindings installed all same => ?_
  · exact (runs name bindings all.detached).bindings
  · exact (runs name bindings all.detached).autoload installed same

theorem Registers.run {program : RegistryProgram} {registry : Registry}
    (registers : program.Registers accepts) (all : registry.All accepts) :
    (program.run registry).2.1.All accepts := by
  induction registers generalizing registry with
  | done | fail error => exact all
  | inspect registers ih => exact ih _ all
  | register accepted registers ih => exact ih _ (all.register _ accepted)
  | unregister registers ih => exact ih _ (all.unregister _)
  | resolve registers ih => exact ih _ (all.resolve _ _)
  | setAutoload installs registers ihInstalls ih =>
      refine ih ⟨all.bindings, fun _ same => ?_⟩
      cases same
      exact registers_callback fun name bindings detached => ihInstalls name detached

theorem Registers.callback {autoload : String → RegistryProgram}
    (installs : ∀ name, (autoload name).Registers accepts) :
    (RegistryProgram.callback autoload).Registers accepts :=
  registers_callback fun name _ detached => (installs name).run detached

end RegistryProgram

/-- Whatever a handler is called with, it returns a text and requests nothing. -/
def Handler.ReturnsText (handler : Handler) : Prop :=
  ∀ call, ∃ text, handler call = .done text

/-- Every handler of a registry returns a text, also those that it loads later. -/
def Registry.ReturnsTexts (registry : Registry) : Prop :=
  registry.All fun binding => binding.handler.ReturnsText

theorem Registry.ReturnsTexts.keeps {holds : Registry → Prop}
    (texts : ∀ registry, holds registry → registry.ReturnsTexts)
    (resolves : ∀ {registry : Registry} (name param : String), holds registry →
      holds (registry.resolve name param).2.1) : Registry.Keeps holds where
  resolve := resolves
  handlers held found call := by
    obtain ⟨text, returned⟩ := (texts _ held).of_resolve found call
    rw [returned]
    exact .done text

theorem Registry.keeps_returnsTexts : Registry.Keeps Registry.ReturnsTexts :=
  Registry.ReturnsTexts.keeps (fun _ held => held) fun name param held => held.resolve name param

/-- Without autoload, a registry whose handlers return texts stays what it is. -/
theorem Registry.ReturnsTexts.keeps_eq {registry : Registry} (texts : registry.ReturnsTexts)
    (still : registry.autoload = none) : Registry.Keeps (· = registry) :=
  Registry.ReturnsTexts.keeps (fun _ same => same ▸ texts) fun name param same => by
    rw [same, resolve_of_still still]

namespace Invocation

/-- The tag is found in a registry of which something holds. -/
def Found (holds : Registry → Prop) (invocation : Invocation) : Prop :=
  ∃ registry, holds registry ∧
    (registry.resolve invocation.tag.name invocation.tag.param).1 = .ok (some invocation.resolved)

/-- The convention permits the call, and the call is decoded from the sides of the tag. -/
def Makes (settings : Settings) (invocation : Invocation) (call : TagCall) : Prop :=
  Evaluation.callViolation invocation.convention invocation.resolved.param
      invocation.closer.isSome = none ∧
    ∃ body : Option String, body.isSome = invocation.closer.isSome ∧
      invocation.call settings body = .ok call

theorem Makes.undocumented {settings : Settings} {invocation : Invocation} {call : TagCall}
    (made : invocation.Makes settings call) : { call with document := none } = call := by
  obtain ⟨-, body, -, given⟩ := made
  exact undocumented_of_call given

end Invocation

section Origins

variable (holds : Registry → Prop) (settings : Settings)

/-- A queued call is that of a deferred tag that was found. -/
def DeferredCall.ComesFromTag (entry : DeferredCall) : Prop :=
  ∃ invocation : Invocation, invocation.Found holds ∧ invocation.convention.deferred = true ∧
    invocation.binding = entry.binding ∧ invocation.Makes settings entry.call

/-- A call is that of a tag that was found.  It knows the document if the tag is deferred. -/
def Event.ComesFromTag : Event → Prop
  | .called call builtIn _ _ =>
    ∃ invocation : Invocation, invocation.Found holds ∧ builtIn = invocation.binding.builtIn ∧
      invocation.convention.deferred = call.document.isSome ∧
      invocation.Makes settings { call with document := none }
  | .lookup _ => True

namespace Engine

/-- The queue has grown by calls of tags that were found. -/
def QueuedSince (before after : Engine) : Prop :=
  ∃ slots : List (Option DeferredCall), after.deferred.slots = before.deferred.slots ++ slots ∧
    ∀ entry, some entry ∈ slots → entry.ComesFromTag holds settings

/-- Calls of tags that were found have been noted. -/
def NotedSince (before after : Engine) : Prop :=
  ∃ events : List Event, after.journal = before.journal ++ events.toArray ∧
    ∀ event ∈ events, event.ComesFromTag holds settings

/-- What an evaluation does to an engine with a registry that is kept. -/
structure Attributed (before after : Engine) : Prop where
  ready : after.Ready holds settings
  queued : QueuedSince holds settings before after
  noted : NotedSince holds settings before after

def Attributes (before after : Engine) : Prop :=
  before.Ready holds settings → Attributed holds settings before after

end Engine

end Origins

section Weakening

variable {holds other : Registry → Prop} {settings : Settings}
  (implies : ∀ registry, holds registry → other registry)

include implies

theorem Invocation.Found.mono {invocation : Invocation} (found : invocation.Found holds) :
    invocation.Found other := by
  obtain ⟨registry, held, looked⟩ := found
  exact ⟨registry, implies registry held, looked⟩

theorem DeferredCall.ComesFromTag.mono {entry : DeferredCall}
    (origin : entry.ComesFromTag holds settings) : entry.ComesFromTag other settings := by
  obtain ⟨invocation, found, rest⟩ := origin
  exact ⟨invocation, found.mono implies, rest⟩

end Weakening

variable {holds : Registry → Prop} {settings : Settings}

namespace Engine

variable {before middle after engine : Engine}

theorem QueuedSince.of_eq (same : after.deferred = before.deferred) :
    QueuedSince holds settings before after :=
  ⟨[], by simp [same]⟩

theorem NotedSince.of_eq (same : after.journal = before.journal) :
    NotedSince holds settings before after :=
  ⟨[], by simp [same]⟩

theorem QueuedSince.trans (first : QueuedSince holds settings before middle)
    (second : QueuedSince holds settings middle after) :
    QueuedSince holds settings before after := by
  obtain ⟨earlier, grown, found⟩ := first
  obtain ⟨later, grownLater, foundLater⟩ := second
  refine ⟨earlier ++ later, by rw [grownLater, grown, List.append_assoc], ?_⟩
  intro entry member
  exact (List.mem_append.mp member).elim (found entry) (foundLater entry)

theorem NotedSince.trans (first : NotedSince holds settings before middle)
    (second : NotedSince holds settings middle after) : NotedSince holds settings before after := by
  obtain ⟨earlier, noted, found⟩ := first
  obtain ⟨later, notedLater, foundLater⟩ := second
  refine ⟨earlier ++ later, by simp [notedLater, noted], ?_⟩
  intro event member
  exact (List.mem_append.mp member).elim (found event) (foundLater event)

theorem QueuedSince.entries (queued : QueuedSince holds settings before after)
    (empty : before.deferred = .empty) :
    ∀ entry ∈ after.deferred.entries, entry.ComesFromTag holds settings := by
  obtain ⟨slots, grown, found⟩ := queued
  rw [empty, DeferredQueue.empty, List.nil_append] at grown
  intro entry member
  rw [DeferredQueue.entries, grown] at member
  exact found entry (by simpa using member)

theorem Attributed.trans (first : Attributed holds settings before middle)
    (second : Attributed holds settings middle after) : Attributed holds settings before after :=
  ⟨second.ready, first.queued.trans second.queued, first.noted.trans second.noted⟩

theorem Attributed.of_ready (ready : after.Ready holds settings)
    (deferred : after.deferred = before.deferred) (journal : after.journal = before.journal) :
    Attributed holds settings before after :=
  ⟨ready, .of_eq deferred, .of_eq journal⟩

/-- A slot is reserved, and whatever has happened since it may be filled. -/
theorem Attributed.reserved
    (since : Attributed holds settings (engine.queueing engine.deferred.reserve.2) middle) :
    Attributed holds settings engine middle ∧
      ∀ entry : DeferredCall, entry.ComesFromTag holds settings →
        Attributed holds settings engine
          (Evaluation.fillSlot engine.deferred.reserve.1 entry middle) := by
  obtain ⟨⟨same, held⟩, ⟨slots, grown, found⟩, noted⟩ := since
  have reserved : middle.deferred.slots = engine.deferred.slots ++ none :: slots := by
    rw [grown]
    simp [queueing, DeferredQueue.reserve]
  refine ⟨⟨⟨same, held⟩, ⟨none :: slots, reserved, ?_⟩, noted⟩, ?_⟩
  · intro entry member
    exact found entry (by simpa using member)
  · intro entry origin
    refine ⟨⟨same, held⟩, ⟨some entry :: slots, ?_, ?_⟩, noted⟩
    · simp [Evaluation.fillSlot, DeferredQueue.fill, DeferredQueue.reserve, reserved]
    · intro other member
      rcases List.mem_cons.mp member with filled | later
      · cases filled
        exact origin
      · exact found other later

instance : IsPreorder Engine (Attributes holds settings) where
  refl _ ready := .of_ready ready rfl rfl
  trans _ _ _ first second ready := (first ready).trans (second (first ready).ready)

theorem attributes_perform (action : Action)
    (acts : ∀ engine : Engine, holds engine.registry → holds (action.perform engine).2.registry)
    (engine : Engine) : Attributes holds settings engine (action.perform engine).2 := by
  intro ready
  have acted := acted action engine
  obtain ⟨lookups, journal⟩ := acted.journal
  refine ⟨⟨acted.settings.trans ready.settings, acts engine ready.holds⟩, .of_eq acted.deferred,
    _, journal, ?_⟩
  intro event member
  obtain ⟨lookup, -, rfl⟩ := List.mem_map.mp member
  trivial

end Engine

namespace Evaluation

open Engine (Attributed Attributes)

variable {R : Engine → Engine → Prop} {α : Type} {level : Level}

theorem along_of_on {x : Evaluation α} (moves : ∀ engine, R engine (x.on engine).2) :
    x.Along R := by
  intro engine after result returned
  have ran : x.on engine = (result, after) := returned
  have moved := moves engine
  rwa [ran] at moved

theorem bind_of_on {β : Type} [IsPreorder Engine R] {x : Evaluation α} {f : α → Evaluation β}
    (first : x.Along R)
    (rest : ∀ engine a after, x.on engine = (.ok a, after) → (f a).Along R) :
    (x >>= f).Along R := by
  refine along_of_on fun engine => ?_
  have moved : R engine (x.on engine).2 := first engine _ _ rfl
  rw [on_bind]
  rcases ran : x.on engine with ⟨error | a, after⟩ <;> rw [ran] at moved
  · exact moved
  · exact IsTrans.trans _ _ _ moved (rest engine a after ran after _ _ rfl)

theorem isSome_of_bodyText {document : Document} {convention : Convention} {index : Nat}
    {closer : Option Nat} {engine after : Engine} {body : Option String}
    (evaluated : (bodyText level document convention index closer).on engine = (.ok body, after)) :
    body.isSome = closer.isSome := by
  cases closer with
  | none =>
      cases evaluated
      rfl
  | some closer =>
      simp only [bodyText] at evaluated
      split at evaluated
      · cases evaluated
        rfl
      · rw [on_bind] at evaluated
        generalize (level document (index + 1) closer).on engine = ran at evaluated
        obtain ⟨error | text, middle⟩ := ran <;> cases evaluated
        rfl

theorem meet_attributes (kept : Registry.Keeps holds) (document : Document) (first : Item)
    (engine : Engine) : Attributes holds settings engine (first.meet document engine).2 := by
  rcases first.engine_of_meet document engine with same | ⟨tag, same⟩ <;> rw [same]
  · exact refl engine
  · exact Engine.attributes_perform (.resolve tag.name tag.param)
      (fun engine held => kept.resolve tag.name tag.param held) engine

/-- A slot that is reserved for a call is filled with it, if it is filled at all. -/
theorem attributes_deferred {invocation : Invocation} (found : invocation.Found holds)
    (permitted : callViolation invocation.convention invocation.resolved.param
      invocation.closer.isSome = none)
    (deferred : invocation.convention.deferred = true) {bodied : Evaluation (Option String)}
    (along : bodied.Along (Attributes holds settings))
    (present : ∀ engine body after, bodied.on engine = (.ok body, after) →
      body.isSome = invocation.closer.isSome) (engine : Engine) :
    Attributes holds settings engine
      (proceed (bodied.on (engine.queueing engine.deferred.reserve.2))
        (invocation.conclude level (some engine.deferred.reserve.1))).2 := by
  intro ready
  have reached : Attributed holds settings (engine.queueing engine.deferred.reserve.2)
      (bodied.on (engine.queueing engine.deferred.reserve.2)).2 :=
    along _ _ _ rfl ⟨ready.settings, ready.holds⟩
  rcases evaluated : bodied.on (engine.queueing engine.deferred.reserve.2) with
    ⟨error | body, middle⟩ <;> rw [evaluated] at reached
  · exact reached.reserved.1
  · have settings := reached.ready.settings
    dsimp only at settings
    simp only [proceed_ok, Invocation.conclude, on_bind, on_get, on_settle, settings]
    cases given : invocation.call _ body with
    | error error => exact reached.reserved.1
    | ok call =>
        exact reached.reserved.2 ⟨invocation.binding, call⟩ ⟨invocation, found, deferred, rfl,
          permitted, body, present _ _ _ evaluated, given⟩

/-- The evaluation of ranges on a level attributes the calls that it makes. -/
def AttributesLevel (holds : Registry → Prop) (settings : Settings) (level : Level) : Prop :=
  ∀ document start stop, (level document start stop).Along (Attributes holds settings)

namespace AttributesLevel

variable (attributes : AttributesLevel holds settings level)

include attributes

theorem text (source : String) :
    (Evaluation.text level source).Along (Attributes holds settings) :=
  .bind (.step fun _ => refl _) fun document => attributes document 0 document.size

theorem program {program : Program} (keeps : program.Keeps holds) :
    EngineT.Along (Attributes holds settings) (program.run (host level)) := by
  induction keeps with
  | done text => exact .pure text
  | fail error => exact .throw error
  | inspect keeps ih => exact .bind .get fun engine => ih engine.view
  | act acts keeps ih => exact .bind (.step (Engine.attributes_perform _ acts)) ih
  | expand keeps ih | render keeps ih => exact .bind (.attempt (attributes.text _)) ih
  | evaluate keeps ih =>
      exact .bind (.attempt (.bind .get fun engine => attributes _ _ _)) ih
  | register registers keeps ih =>
      exact .bind (.attempt (.step fun engine ready =>
        .of_ready ⟨ready.settings, registers _ ready.holds⟩ rfl rfl)) ih
  | setAutoload installs keeps ih =>
      exact .bind (.change fun engine ready =>
        .of_ready ⟨ready.settings, installs _ ready.holds⟩ rfl rfl) fun _ => ih

theorem runNamed {binding : Binding} {call : TagCall}
    (keeps : (binding.handler call).Keeps holds)
    (origin : ∀ depth frames,
      (Event.called call binding.builtIn depth frames).ComesFromTag holds settings) :
    (binding.runNamed (host level) call).Along (Attributes holds settings) := by
  refine Binding.runNamed_along
    (.bind (.change fun engine ready => ?_) fun _ => attributes.program keeps)
  refine ⟨⟨ready.settings, ready.holds⟩, .of_eq rfl, _, rfl, ?_⟩
  intro event member
  cases List.mem_singleton.mp member
  exact origin _ _

theorem again (convention : Convention) (output : String) :
    (Evaluation.again level convention output).Along (Attributes holds settings) :=
  again_along attributes.text convention output

theorem bodyText (document : Document) (convention : Convention) (index : Nat)
    (closer : Option Nat) :
    (Evaluation.bodyText level document convention index closer).Along
      (Attributes holds settings) := by
  unfold Evaluation.bodyText
  split
  · exact .pure none
  · split
    · exact .bind .get fun _ => .pure _
    · exact .bind (attributes _ _ _) fun _ => .pure _

theorem conclude {invocation : Invocation} (kept : Registry.Keeps holds)
    (found : invocation.Found holds)
    (permitted : callViolation invocation.convention invocation.resolved.param
      invocation.closer.isSome = none)
    (immediate : invocation.convention.deferred = false) {body : Option String}
    (present : body.isSome = invocation.closer.isSome) :
    (invocation.conclude level none body).Along (Attributes holds settings) := by
  refine along_of_on fun engine ready => ?_
  simp only [Invocation.conclude, on_bind, on_get, on_settle, proceed_ok, ready.settings]
  cases given : invocation.call settings body with
  | error error => exact .of_ready ready rfl rfl
  | ok call =>
      obtain ⟨registry, held, looked⟩ := found
      have origin : ∀ depth frames,
          (Event.called call invocation.binding.builtIn depth frames).ComesFromTag holds
            settings := by
        intro depth frames
        refine ⟨invocation, ⟨registry, held, looked⟩, rfl, ?_, permitted, body, present, ?_⟩
        · rw [immediate, Invocation.document_of_call given]
          rfl
        · rw [Invocation.undocumented_of_call given, given]
      have ran := (attributes.runNamed (kept.handlers held looked call) origin).bind
        fun output => attributes.again invocation.convention output
      exact ran engine _ _ rfl ready

theorem run {invocation : Invocation} (kept : Registry.Keeps holds)
    (found : invocation.Found holds)
    (permitted : callViolation invocation.convention invocation.resolved.param
      invocation.closer.isSome = none) :
    (invocation.run level).Along (Attributes holds settings) := by
  have bodied := attributes.bodyText invocation.document invocation.convention invocation.index
    invocation.closer
  refine along_of_on fun engine => ?_
  simp only [Invocation.run, on_bind, on_step, proceed_ok, Invocation.reserve]
  cases deferred : invocation.convention.deferred with
  | false =>
      simp only [Bool.false_eq_true, if_false]
      rw [← on_bind]
      refine bind_of_on bodied (fun engine body after evaluated => ?_) engine _ _ rfl
      exact attributes.conclude kept found permitted deferred (isSome_of_bodyText evaluated)
  | true =>
      simp only [if_true]
      exact attributes_deferred found permitted deferred bodied
        (fun engine body after evaluated => isSome_of_bodyText evaluated) engine

theorem item (kept : Registry.Keeps holds) (document : Document) (first : Item) :
    (Evaluation.item level document first).Along (Attributes holds settings) := by
  refine along_of_on fun engine ready => ?_
  have met : Attributed holds settings engine (first.meet document engine).2 :=
    meet_attributes kept document first engine ready
  have run : ∀ invocation, (first.meet document engine).1 = .ok (.invoked invocation) →
      (invocation.run level).Along (Attributes holds settings) := by
    intro invocation invoked
    obtain ⟨-, -, found, permitted⟩ := Item.found_of_meet invoked
    exact attributes.run kept ⟨engine.registry, ready.holds, found⟩ permitted
  rw [on_item]
  generalize first.meet document engine = meeting at met run ⊢
  obtain ⟨error | text | invocation, middle⟩ := meeting
  · exact met
  · exact met
  · have recorded : Attributed holds settings middle (recordCall invocation.tag.name middle) :=
      .of_ready ⟨met.ready.settings, met.ready.holds⟩ rfl rfl
    exact met.trans (recorded.trans (run invocation rfl _ _ _ rfl recorded.ready))

theorem items (kept : Registry.Keeps holds) (document : Document) (items : List Item) :
    (Evaluation.items level document items).Along (Attributes holds settings) := by
  induction items with
  | nil => exact .pure ""
  | cons first rest ih =>
      exact .bind (attributes.item kept document first) fun _ => .bind ih fun _ => .pure _

theorem replayOne (kept : Registry.Keeps holds) {entry : DeferredCall}
    (origin : entry.ComesFromTag holds settings) (output : String) :
    (Evaluation.replayOne level output entry).Along (Attributes holds settings) := by
  obtain ⟨invocation, ⟨registry, held, looked⟩, deferred, same, made⟩ := origin
  refine .bind (attributes.runNamed ?_ ?_) fun output => attributes.again _ output
  · rw [← same]
    exact kept.handlers held looked _
  · intro depth frames
    refine ⟨invocation, ⟨registry, held, looked⟩, by rw [same], deferred, ?_⟩
    have plain : { entry.call with document := none } = entry.call := made.undocumented
    exact plain.symm ▸ made

theorem foldlM_replayOne (kept : Registry.Keeps holds) {entries : List DeferredCall}
    (origins : ∀ entry ∈ entries, entry.ComesFromTag holds settings) (output : String) :
    EngineT.Along (Attributes holds settings)
      (entries.foldlM (Evaluation.replayOne level) output) :=
  .foldlM (fun entry member => attributes.replayOne kept (origins entry member)) output

/-- The main pass over a document and the first batches of its deferred calls, each of which the
batch before it has queued. -/
theorem underway (kept : Registry.Keeps holds) (batches : Nat) (document : Document)
    {engine : Engine} (ready : engine.Ready holds settings) (empty : engine.deferred = .empty) :
    let after := ((Evaluation.underway level batches document).on engine).2
    after.Ready holds settings ∧ engine.NotedSince holds settings after ∧
      ∀ entry ∈ after.deferred.entries, entry.ComesFromTag holds settings := by
  have main : Attributed holds settings engine ((whole level document).on engine).2 :=
    attributes document 0 document.size _ _ _ rfl ready
  exact underway_keeps
    (fun after => after.Ready holds settings ∧ engine.NotedSince holds settings after ∧
      ∀ entry ∈ after.deferred.entries, entry.ComesFromTag holds settings)
    (fun {middle} output ⟨ready, noted, queued⟩ => by
      have replayed : Attributed holds settings (drained middle)
          ((middle.deferred.entries.foldlM (Evaluation.replayOne level) output).on
            (drained middle)).2 :=
        attributes.foldlM_replayOne kept queued output _ _ _ rfl ⟨ready.settings, ready.holds⟩
      exact ⟨replayed.ready, noted.trans replayed.noted, replayed.queued.entries rfl⟩)
    batches ⟨main.ready, main.noted, main.queued.entries empty⟩

end AttributesLevel

theorem attributesLevel_range (kept : Registry.Keeps holds) (levels : Nat) :
    AttributesLevel holds settings (range levels) := by
  induction levels with
  | zero => exact fun document start stop => .bind .get fun engine => .throw _
  | succ levels ih =>
      intro document start stop
      refine .between (ih.items kept document _) fun engine after inner ready => ?_
      obtain ⟨⟨same, held⟩, queued, noted⟩ := inner ⟨ready.settings, ready.holds⟩
      exact ⟨⟨same, held⟩, queued, noted⟩

end Evaluation

end TagTemplate
