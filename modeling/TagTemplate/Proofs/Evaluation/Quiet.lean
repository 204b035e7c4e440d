import TagTemplate.Proofs.Evaluation.Balance
import TagTemplate.Proofs.Forest

/-!
Handlers that expand nothing.

Such a handler runs the same under every host and over every deferred queue, and the only
call that is noted while it runs is its own.  A registry serves a document if looking the
tags of the document up finds such handlers, whatever these do to the registry.
-/

namespace TagTemplate

def Event.call? : Event → Option TagCall
  | .called call _ _ _ => some call
  | .lookup _ => none

/-- The calls of handlers that have been noted. -/
def Engine.calls (engine : Engine) : List TagCall :=
  engine.journal.toList.filterMap Event.call?

/-- A program that requests no expansion, and that keeps what holds of the registry. -/
inductive Program.Quiet (holds : Registry → Prop) : Program → Prop where
  | done (text : String) : Quiet holds (.done text)
  | fail (error : TemplateError) : Quiet holds (.fail error)
  | inspect {next} (quiet : ∀ view, Quiet holds (next view)) : Quiet holds (.inspect next)
  | act {action : Action} {next}
      (keeps : ∀ engine : Engine, holds engine.registry →
        holds (action.perform engine).2.registry)
      (quiet : ∀ answer, Quiet holds (next answer)) : Quiet holds (.act action next)
  | register {name : String} {handler : Handler} {convention : Convention} {next}
      (keeps : ∀ registry, holds registry →
        holds (registry.register name ⟨handler, convention, false⟩).2)
      (quiet : ∀ answer, Quiet holds (next answer)) :
      Quiet holds (.register name handler convention next)
  | setAutoload {autoload : String → RegistryProgram} {next : Program}
      (keeps : ∀ registry, holds registry →
        holds { registry with autoload := some (RegistryProgram.callback autoload) })
      (quiet : Quiet holds next) : Quiet holds (.setAutoload autoload next)

/-- Whatever a handler is called with, it requests no expansion. -/
def Handler.Quiet (holds : Registry → Prop) (handler : Handler) : Prop :=
  ∀ call, (handler call).Quiet holds

/-- The registries of which something holds keep it when the open tags of a document are
looked up, and the bindings that are found keep it too. -/
structure Registry.Serves (holds : Registry → Prop) (document : Document)
    (accepts : Convention → Prop) : Prop where
  keeps : ∀ {registry : Registry} {index tag}, holds registry →
    document.openTag? index = some tag → holds (registry.resolve tag.name tag.param).2.1
  accepts : ∀ {registry : Registry} {index tag resolved}, holds registry →
    document.openTag? index = some tag →
    (registry.resolve tag.name tag.param).1 = .ok (some resolved) →
    accepts resolved.binding.convention
  quiet : ∀ {registry : Registry} {index tag resolved}, holds registry →
    document.openTag? index = some tag →
    (registry.resolve tag.name tag.param).1 = .ok (some resolved) →
    resolved.binding.handler.Quiet holds

namespace Engine

variable {engine before middle after : Engine} {holds : Registry → Prop}

theorem Parsed.exists_forest (parsed : engine.Parsed) :
    ∃ forest, engine.document.Forms 0 engine.document.size forest :=
  Document.IsParsed.exists_forest (d := engine.settings.delimiters) parsed

@[simp] theorem calls_record (events : List Event) :
    (engine.record events).calls = engine.calls ++ events.filterMap Event.call? := by
  simp [calls, record]

/-- The engine has the settings and a registry of an evaluation. -/
structure Ready (holds : Registry → Prop) (settings : Settings) (engine : Engine) : Prop where
  settings : engine.settings = settings
  holds : holds engine.registry

/-- What a step keeps that calls no handler. -/
structure Keeps (holds : Registry → Prop) (before after : Engine) : Prop where
  settings : after.settings = before.settings
  registry : holds before.registry → holds after.registry
  deferred : after.deferred = before.deferred
  calls : after.calls = before.calls

theorem Keeps.refl (holds : Registry → Prop) (engine : Engine) : Keeps holds engine engine :=
  ⟨rfl, id, rfl, rfl⟩

theorem Keeps.trans (first : Keeps holds before middle) (second : Keeps holds middle after) :
    Keeps holds before after :=
  ⟨second.settings.trans first.settings, second.registry ∘ first.registry,
    second.deferred.trans first.deferred, second.calls.trans first.calls⟩

theorem calls_perform (action : Action) : (action.perform engine).2.calls = engine.calls := by
  obtain ⟨lookups, noted⟩ := (acted action engine).journal
  simp [calls, noted, Event.call?]

/-- An engine with another queue. -/
def queueing (deferred : DeferredQueue DeferredCall) (engine : Engine) : Engine :=
  { engine with deferred }

/-- The queue does not matter to a request that expands nothing. -/
theorem perform_queueing (action : Action) (deferred : DeferredQueue DeferredCall) :
    action.perform (engine.queueing deferred) =
      ((action.perform engine).1, (action.perform engine).2.queueing deferred) := by
  cases action with
  | load source =>
      simp only [Action.perform, load, parse, queueing]
      split <;> rfl
  | setSlot name value =>
      simp only [Action.perform, setSlot, queueing]
      split <;> rfl
  | setVariable | removeVariable | clearVariables | unregister | resolve => rfl

end Engine

namespace Program.Quiet

open Engine (Keeps)

variable {holds : Registry → Prop} {program : Program}

theorem keeps (quiet : program.Quiet holds) (host : Host Id) (engine : Engine) :
    Keeps holds engine (Evaluation.on (program.run host) engine).2 := by
  induction quiet generalizing engine with
  | done text | fail error => exact .refl holds engine
  | inspect quiet ih =>
      simp only [Program.run, Evaluation.on_bind, Evaluation.on_get, Evaluation.proceed_ok]
      exact ih _ _
  | @act action next keeps quiet ih =>
      simp only [Program.run, Evaluation.on_bind, Evaluation.on_step, Evaluation.proceed_ok]
      have kept : Keeps holds engine (action.perform engine).2 :=
        ⟨(Engine.acted action engine).settings, keeps engine,
          (Engine.acted action engine).deferred, Engine.calls_perform action⟩
      exact kept.trans (ih _ _)
  | @register name handler convention next keeps quiet ih =>
      simp only [Program.run, Evaluation.on_bind, Evaluation.on_attempt, Evaluation.on_step,
        Evaluation.proceed_ok]
      have kept : Keeps holds engine (engine.register name ⟨handler, convention, false⟩).2 :=
        ⟨rfl, keeps engine.registry, rfl, rfl⟩
      exact kept.trans (ih _ _)
  | @setAutoload autoload next keeps quiet ih =>
      simp only [Program.run, Evaluation.on_bind, Evaluation.on_change, Evaluation.proceed_ok]
      have kept : Keeps holds engine (engine.setAutoload autoload) :=
        ⟨rfl, keeps engine.registry, rfl, rfl⟩
      exact kept.trans (ih _)

/-- Neither the host nor the queue matters to a program that requests no expansion. -/
theorem run_eq (quiet : program.Quiet holds) (host other : Host Id)
    (deferred : DeferredQueue DeferredCall) (engine : Engine) :
    Evaluation.on (program.run other) (engine.queueing deferred) =
      ((Evaluation.on (program.run host) engine).1,
        (Evaluation.on (program.run host) engine).2.queueing deferred) := by
  induction quiet generalizing engine with
  | done text | fail error => rfl
  | inspect quiet ih =>
      simp only [Program.run, Evaluation.on_bind, Evaluation.on_get, Evaluation.proceed_ok]
      exact ih _ _
  | act keeps quiet ih =>
      simp only [Program.run, Evaluation.on_bind, Evaluation.on_step, Evaluation.proceed_ok,
        Engine.perform_queueing]
      exact ih _ _
  | @register name handler convention next keeps quiet ih =>
      simp only [Program.run, Evaluation.on_bind, Evaluation.on_attempt, Evaluation.on_step,
        Evaluation.proceed_ok]
      let binding : Binding := ⟨handler, convention, false⟩
      have same : (engine.queueing deferred).register name binding =
          ((engine.register name binding).1,
            (engine.register name binding).2.queueing deferred) := rfl
      rw [same]
      exact ih _ _
  | @setAutoload autoload next keeps quiet ih =>
      simp only [Program.run, Evaluation.on_bind, Evaluation.on_change, Evaluation.proceed_ok]
      have same : (engine.queueing deferred).setAutoload autoload =
          (engine.setAutoload autoload).queueing deferred := rfl
      rw [same]
      exact ih _

end Program.Quiet

namespace Handler.Quiet

variable {holds : Registry → Prop} {binding : Binding}

/-- While a handler runs that expands nothing, only its own call is noted. -/
theorem run (quiet : binding.handler.Quiet holds) (host : Host Id) (call : TagCall)
    (engine : Engine) :
    let after := (Evaluation.on (binding.run host call) engine).2
    after.settings = engine.settings ∧ (holds engine.registry → holds after.registry) ∧
      after.deferred = engine.deferred ∧ after.calls = engine.calls ++ [call] := by
  simp only [Binding.run, Evaluation.on_bind, Evaluation.on_change, Evaluation.proceed_ok]
  have kept := (quiet call).keeps host (engine.record
    [.called call binding.builtIn engine.depth engine.callStack.depth])
  exact ⟨kept.settings, kept.registry, kept.deferred, by simp [kept.calls, Event.call?]⟩

theorem run_eq (quiet : binding.handler.Quiet holds) (host other : Host Id) (call : TagCall)
    (deferred : DeferredQueue DeferredCall) (engine : Engine) :
    Evaluation.on (binding.run other call) (engine.queueing deferred) =
      ((Evaluation.on (binding.run host call) engine).1,
        (Evaluation.on (binding.run host call) engine).2.queueing deferred) := by
  have same := (quiet call).run_eq host other deferred (engine.record
    [.called call binding.builtIn engine.depth engine.callStack.depth])
  simp only [Binding.run, Evaluation.on_bind, Evaluation.on_change, Evaluation.proceed_ok]
  exact same

theorem host_eq (quiet : binding.handler.Quiet holds) (host other : Host Id) (call : TagCall)
    (engine : Engine) :
    Evaluation.on (binding.run other call) engine =
      Evaluation.on (binding.run host call) engine := by
  have here := quiet.run_eq host host call engine.deferred engine
  have there := quiet.run_eq host other call engine.deferred engine
  exact there.trans here.symm

end Handler.Quiet

theorem Bindings.get?_of_find? {bindings : Bindings} {name param : String} {resolved : Resolved}
    (found : bindings.find? name param = some resolved) :
    ∃ key, bindings.get? key = some resolved.binding := by
  rw [find?] at found
  split at found
  · rename_i binding looked
    cases found
    rw [lookup?] at looked
    cases every : bindings.get? catchAll with
    | some other =>
        rw [every] at looked
        exact ⟨catchAll, every.trans looked⟩
    | none =>
        rw [every] at looked
        exact ⟨name, looked⟩
  · split at found
    · cases found
    · obtain ⟨binding, looked, rfl⟩ := Option.map_eq_some_iff.mp found
      exact ⟨_, looked⟩

/-- Without autoload, a look-up finds what is registered. -/
theorem Registry.exists_mem_of_resolve {registry : Registry} {name param : String}
    {resolved : Resolved} (still : registry.autoload = none)
    (found : (registry.resolve name param).1 = .ok (some resolved)) :
    ∃ key, (key, resolved.binding) ∈ registry.bindings.table := by
  rw [resolve_of_still still] at found
  obtain ⟨key, given⟩ := Bindings.get?_of_find? (Except.ok.inj found)
  exact ⟨key, Keyed.mem_of_find? given⟩

/-- A registry without autoload serves every document if no handler changes it. -/
theorem Registry.serves_of_still {registry : Registry} {accepts : Convention → Prop}
    (still : registry.autoload = none)
    (bound : ∀ name binding, (name, binding) ∈ registry.bindings.table →
      accepts binding.convention ∧ binding.handler.Quiet (· = registry)) (document : Document) :
    Registry.Serves (· = registry) document accepts := by
  have served : ∀ {tag : Tag} {resolved},
      (registry.resolve tag.name tag.param).1 = .ok (some resolved) →
      accepts resolved.binding.convention ∧ resolved.binding.handler.Quiet (· = registry) := by
    intro tag resolved found
    obtain ⟨key, member⟩ := exists_mem_of_resolve still found
    exact bound key _ member
  refine ⟨?_, ?_, ?_⟩
  · rintro _ index tag rfl _
    rw [resolve_of_still still]
  · rintro _ index tag resolved rfl _ found
    exact (served found).1
  · rintro _ index tag resolved rfl _ found
    exact (served found).2

end TagTemplate
