import Mathlib.Logic.Relation
import Mathlib.Tactic.Choose
import TagTemplate.Registry

/-!
Requests to a registry step by step.

A moment says what is left of the program that is running, on which registry, and which
look-ups wait for the autoload callbacks that they have called.  A callback is a program of its
own: it is taken out of the registry when it is called, and put back when it has ended, unless
another one has been installed meanwhile.  Each moment has at most one next moment.  The walk
of a program realises its run: it ends with the same result on the same registry.
-/

namespace TagTemplate

/-- A look-up that waits for the callback that it has called. -/
structure SuspendedLookup where
  name : String
  param : String
  callback : String → RegistryProgram
  next : Except TemplateError (Option Resolution) → RegistryProgram

/-- What an autoload callback has returned. -/
def RegistryProgram.ofResult : Except TemplateError Unit → RegistryProgram
  | .ok () => .done
  | .error error => .fail error

structure RegistryMoment where
  /-- what is left of the program that is running -/
  program : RegistryProgram
  bindings : Bindings
  installed : Option (String → RegistryProgram)
  /-- the look-ups whose callbacks are running, innermost first -/
  suspended : List SuspendedLookup

namespace RegistryMoment

variable (moment : RegistryMoment)

/-- Calls a callback, which is detached while it runs. -/
def call (lookup : SuspendedLookup) : RegistryMoment where
  program := lookup.callback lookup.name
  bindings := moment.bindings
  installed := none
  suspended := lookup :: moment.suspended

/-- Hands the result of a callback to the look-up that has called it. -/
def resume (result : Except TemplateError Unit) (lookup : SuspendedLookup)
    (suspended : List SuspendedLookup) : RegistryMoment where
  program := lookup.next (result.map fun () =>
    (moment.bindings.find? lookup.name lookup.param).map Resolved.resolution)
  bindings := moment.bindings
  installed := some (moment.installed.getD lookup.callback)
  suspended

/-- What follows the end of a program.  Nothing follows the end of the outermost one. -/
def ended (result : Except TemplateError Unit) : Option RegistryMoment :=
  match moment.suspended with
  | [] => none
  | lookup :: suspended => some (moment.resume result lookup suspended)

def lookUp (name param : String)
    (next : Except TemplateError (Option Resolution) → RegistryProgram) : RegistryMoment :=
  match moment.bindings.find? name param, moment.installed with
  | some resolved, _ => { moment with program := next (.ok (some resolved.resolution)) }
  | none, none => { moment with program := next (.ok none) }
  | none, some callback => moment.call ⟨name, param, callback, next⟩

def next : Option RegistryMoment :=
  match moment.program with
  | .done => moment.ended (.ok ())
  | .fail error => moment.ended (.error error)
  | .inspect next => some { moment with program := next moment.bindings.conventions }
  | .register name handler convention builtIn next =>
    match moment.bindings.register name ⟨handler, convention, builtIn⟩ with
    | .ok bindings => some { moment with program := next (.ok ()), bindings }
    | .error error => some { moment with program := next (.error error) }
  | .unregister name next =>
    some { moment with
      program := next ((moment.bindings.get? name).map Binding.convention)
      bindings := moment.bindings.unregister name }
  | .resolve name param next => some (moment.lookUp name param next)
  | .setAutoload autoload next =>
    some { moment with program := next, installed := some autoload }

inductive Step (before : RegistryMoment) : RegistryMoment → Prop where
  | goesOn (program : RegistryProgram) : Step before { before with program }
  | registers {name : String} {binding : Binding} {added : Bindings}
      (registered : before.bindings.register name binding = .ok added)
      (program : RegistryProgram) : Step before { before with program, bindings := added }
  | unregisters (name : String) (program : RegistryProgram) :
      Step before { before with program, bindings := before.bindings.unregister name }
  | installs {autoload : String → RegistryProgram} {program : RegistryProgram}
      (asked : before.program = .setAutoload autoload program) :
      Step before { before with program, installed := some autoload }
  | calls (lookup : SuspendedLookup) (ready : before.installed = some lookup.callback) :
      Step before (before.call lookup)
  | returns (result : Except TemplateError Unit) {lookup : SuspendedLookup}
      {suspended : List SuspendedLookup} (waits : before.suspended = lookup :: suspended) :
      Step before (before.resume result lookup suspended)

theorem step_of_ended {before after : RegistryMoment} {result : Except TemplateError Unit}
    (stepped : before.ended result = some after) : before.Step after := by
  unfold ended at stepped
  split at stepped
  · cases stepped
  · rename_i waits
    cases stepped
    exact .returns result waits

theorem step_lookUp (before : RegistryMoment) (name param : String)
    (next : Except TemplateError (Option Resolution) → RegistryProgram) :
    before.Step (before.lookUp name param next) := by
  unfold lookUp
  split
  · exact .goesOn _
  · exact .goesOn _
  · rename_i callback _ ready
    exact .calls ⟨name, param, callback, next⟩ ready

theorem step_of_next {before after : RegistryMoment} (stepped : before.next = some after) :
    before.Step after := by
  unfold next at stepped
  split at stepped
  · exact step_of_ended stepped
  · exact step_of_ended stepped
  · cases stepped
    exact .goesOn _
  · split at stepped
    · rename_i registered
      cases stepped
      exact .registers registered _
    · cases stepped
      exact .goesOn _
  · cases stepped
    exact .unregisters _ _
  · cases stepped
    exact step_lookUp ..
  · rename_i asked
    cases stepped
    exact .installs asked

def Leads : RegistryMoment → RegistryMoment → Prop :=
  Relation.ReflTransGen fun before after => before.next = some after

/-- A walk during which look-ups stay suspended. -/
def LeadsBelow (waiting : List SuspendedLookup) : RegistryMoment → RegistryMoment → Prop :=
  Relation.ReflTransGen fun before after => before.next = some after ∧ waiting <:+ after.suspended

variable {moment} {waiting : List SuspendedLookup} {before middle after : RegistryMoment}

theorem LeadsBelow.refl (waiting : List SuspendedLookup) (moment : RegistryMoment) :
    moment.LeadsBelow waiting moment :=
  Relation.ReflTransGen.refl

theorem LeadsBelow.trans (first : before.LeadsBelow waiting middle)
    (second : middle.LeadsBelow waiting after) : before.LeadsBelow waiting after :=
  Relation.ReflTransGen.trans first second

theorem LeadsBelow.step (stepped : before.next = some middle)
    (below : waiting <:+ middle.suspended) (rest : middle.LeadsBelow waiting after) :
    before.LeadsBelow waiting after :=
  Relation.ReflTransGen.head ⟨stepped, below⟩ rest

theorem LeadsBelow.mono {fewer : List SuspendedLookup} (less : fewer <:+ waiting)
    (led : before.LeadsBelow waiting after) : before.LeadsBelow fewer after :=
  Relation.ReflTransGen.mono (fun _ _ stepped => ⟨stepped.1, less.trans stepped.2⟩) _ _ led

theorem LeadsBelow.leads (led : before.LeadsBelow waiting after) : before.Leads after :=
  Relation.ReflTransGen.mono (fun _ _ stepped => stepped.1) _ _ led

/-- A callback that has ended hands its result to the look-up that has called it. -/
theorem next_ofResult (result : Except TemplateError Unit) (bindings : Bindings)
    (installed : Option (String → RegistryProgram)) (lookup : SuspendedLookup)
    (waiting : List SuspendedLookup) :
    next ⟨.ofResult result, bindings, installed, lookup :: waiting⟩ =
      some (resume ⟨.ofResult result, bindings, installed, lookup :: waiting⟩ result lookup
        waiting) := by
  cases result <;> rfl

end RegistryMoment

open RegistryMoment (LeadsBelow)

namespace RegistryProgram

/-- The walk of a program ends as its run does, with a callback kept in the registry. -/
structure Realised (program : RegistryProgram) (bindings : Bindings)
    (installed kept : Option (String → RegistryProgram)) : Prop where
  walks : ∀ waiting, LeadsBelow waiting ⟨program, bindings, installed, waiting⟩
    ⟨.ofResult (program.run ⟨bindings, installed.map callback⟩).1,
      (program.run ⟨bindings, installed.map callback⟩).2.1.bindings, kept, waiting⟩
  keeps : (program.run ⟨bindings, installed.map callback⟩).2.1.autoload = kept.map callback

/-- A callback the walks of which end as its runs do, and so do those of the callbacks that it
installs. -/
inductive Ends : (String → RegistryProgram) → Prop where
  | mk {autoload : String → RegistryProgram}
      (kept : String → Bindings → Option (String → RegistryProgram))
      (realised : ∀ name bindings, (autoload name).Realised bindings none (kept name bindings))
      (later : ∀ name bindings other, kept name bindings = some other → Ends other) :
      Ends autoload

variable {bindings : Bindings} {installed kept : Option (String → RegistryProgram)}

theorem Realised.of_step {program rest : RegistryProgram} {left : Bindings}
    {changed : Option (String → RegistryProgram)} (realised : rest.Realised left changed kept)
    (stepped : ∀ waiting, RegistryMoment.next ⟨program, bindings, installed, waiting⟩ =
      some ⟨rest, left, changed, waiting⟩)
    (ran : (program.run ⟨bindings, installed.map callback⟩).1 =
        (rest.run ⟨left, changed.map callback⟩).1 ∧
      (program.run ⟨bindings, installed.map callback⟩).2.1 =
        (rest.run ⟨left, changed.map callback⟩).2.1) :
    program.Realised bindings installed kept where
  walks waiting := by
    rw [ran.1, ran.2]
    exact .step (stepped waiting) (List.suffix_refl _) (realised.walks waiting)
  keeps := by
    rw [ran.2]
    exact realised.keeps

/-- What a callback returns is looked at again, and the callback is put back. -/
theorem resolve_of_missing {name param : String} {autoload : String → RegistryProgram}
    (missing : bindings.find? name param = none) :
    Registry.resolve name param ⟨bindings, some (callback autoload)⟩ =
      let ran := (autoload name).run ⟨bindings, none⟩
      (ran.1.map fun () => ran.2.1.bindings.find? name param,
        ⟨ran.2.1.bindings, some (ran.2.1.autoload.getD (callback autoload))⟩,
        .autoloading name :: ran.2.2) := by
  simp only [Registry.resolve, missing]
  rfl

/-- A look-up that misses goes on where its callback has ended. -/
theorem Realised.of_missing {name param : String} {autoload : String → RegistryProgram}
    {next : Except TemplateError (Option Resolution) → RegistryProgram}
    {changed : Option (String → RegistryProgram)} (missing : bindings.find? name param = none)
    (called : (autoload name).Realised bindings none changed) :
    let ran := (autoload name).run ⟨bindings, none⟩
    let answer := ran.1.map fun () =>
      (ran.2.1.bindings.find? name param).map Resolved.resolution
    (next answer).Realised ran.2.1.bindings (some (changed.getD autoload)) kept →
      (resolve name param next).Realised bindings (some autoload) kept := by
  intro ran answer realised
  let lookup : SuspendedLookup := ⟨name, param, autoload, next⟩
  have left : ran.2.1.autoload.getD (callback autoload) = callback (changed.getD autoload) := by
    have keeps : ran.2.1.autoload = changed.map callback := called.keeps
    rw [keeps]
    cases changed <;> rfl
  have looked : Registry.resolve name param ⟨bindings, some (callback autoload)⟩ =
      (ran.1.map fun () => ran.2.1.bindings.find? name param,
        ⟨ran.2.1.bindings, some (callback (changed.getD autoload))⟩,
        .autoloading name :: ran.2.2) := by
    rw [resolve_of_missing missing, ← left]
  have answered : (ran.1.map fun () => ran.2.1.bindings.find? name param).map
      (fun found => found.map Resolved.resolution) = answer := by
    simp only [answer]
    cases ran.1 <;> rfl
  have same : ((resolve name param next).run ⟨bindings, some (callback autoload)⟩).1 =
        ((next answer).run ⟨ran.2.1.bindings, some (callback (changed.getD autoload))⟩).1 ∧
      ((resolve name param next).run ⟨bindings, some (callback autoload)⟩).2.1 =
        ((next answer).run ⟨ran.2.1.bindings, some (callback (changed.getD autoload))⟩).2.1 := by
    simp only [run, looked, answered, and_self]
  refine ⟨fun waiting => ?_, ?_⟩
  · have asked : RegistryMoment.next ⟨resolve name param next, bindings, some autoload, waiting⟩ =
        some ⟨autoload name, bindings, none, lookup :: waiting⟩ := by
      simp only [RegistryMoment.next, RegistryMoment.lookUp, missing]
      rfl
    have inner := (called.walks (lookup :: waiting)).mono (List.suffix_cons lookup waiting)
    have rest := realised.walks waiting
    simp only [Option.map_some] at rest ⊢
    rw [same.1, same.2]
    exact .step asked (List.suffix_cons _ _) (inner.trans
      (.step (RegistryMoment.next_ofResult ..) (List.suffix_refl _) rest))
  · simp only [Option.map_some]
    rw [same.2]
    exact realised.keeps

theorem Ends.of_realised {autoload : String → RegistryProgram}
    (realised : ∀ name bindings, ∃ kept, (autoload name).Realised bindings none kept ∧
      ∀ other, kept = some other → Ends other) : Ends autoload := by
  choose kept walked later using realised
  exact .mk kept walked later

theorem exists_realised : (program : RegistryProgram) → ∀ bindings installed,
    (∀ autoload, installed = some autoload → Ends autoload) →
    ∃ kept, program.Realised bindings installed kept ∧
      ∀ autoload, kept = some autoload → Ends autoload
  | .done, bindings, installed, ends =>
    ⟨installed, ⟨fun waiting => .refl _ _, rfl⟩, ends⟩
  | .fail error, bindings, installed, ends =>
    ⟨installed, ⟨fun waiting => .refl _ _, rfl⟩, ends⟩
  | .inspect next, bindings, installed, ends => by
    obtain ⟨kept, realised, later⟩ :=
      exists_realised (next bindings.conventions) bindings installed ends
    exact ⟨kept, realised.of_step (fun _ => rfl) ⟨rfl, rfl⟩, later⟩
  | .register name handler convention builtIn next, bindings, installed, ends => by
    cases registered : bindings.register name ⟨handler, convention, builtIn⟩ with
    | ok added =>
        obtain ⟨kept, realised, later⟩ := exists_realised (next (.ok ())) added installed ends
        refine ⟨kept, realised.of_step (fun _ => ?_) ?_, later⟩
        · simp only [RegistryMoment.next, registered]
        · simp only [run, Registry.register, registered, and_self]
    | error error =>
        obtain ⟨kept, realised, later⟩ :=
          exists_realised (next (.error error)) bindings installed ends
        refine ⟨kept, realised.of_step (fun _ => ?_) ?_, later⟩
        · simp only [RegistryMoment.next, registered]
        · simp only [run, Registry.register, registered, and_self]
  | .unregister name next, bindings, installed, ends => by
    obtain ⟨kept, realised, later⟩ := exists_realised
      (next ((bindings.get? name).map Binding.convention)) (bindings.unregister name) installed ends
    exact ⟨kept, realised.of_step (fun _ => rfl) ⟨rfl, rfl⟩, later⟩
  | .setAutoload autoload next, bindings, installed, ends => by
    have ended : Ends autoload := .of_realised fun name bindings =>
      exists_realised (autoload name) bindings none (by simp)
    obtain ⟨kept, realised, later⟩ :=
      exists_realised next bindings (some autoload) (by rintro _ ⟨⟩; exact ended)
    exact ⟨kept, realised.of_step (fun _ => rfl) ⟨rfl, rfl⟩, later⟩
  | .resolve name param next, bindings, installed, ends => by
    cases found : bindings.find? name param with
    | some resolved =>
        obtain ⟨kept, realised, later⟩ :=
          exists_realised (next (.ok (some resolved.resolution))) bindings installed ends
        refine ⟨kept, realised.of_step (fun _ => ?_) ?_, later⟩
        · simp only [RegistryMoment.next, RegistryMoment.lookUp, found]
        · simp only [run, Registry.resolve, found]
          exact ⟨rfl, rfl⟩
    | none =>
        cases installed with
        | none =>
            obtain ⟨kept, realised, later⟩ :=
              exists_realised (next (.ok none)) bindings none ends
            refine ⟨kept, realised.of_step (fun _ => ?_) ?_, later⟩
            · simp only [RegistryMoment.next, RegistryMoment.lookUp, found]
            · simp only [run, Registry.resolve, found]
              exact ⟨rfl, rfl⟩
        | some autoload =>
            -- the callback that is kept is the one that ran, or one that its run has installed
            obtain ⟨left, called, follow⟩ := ends autoload rfl
            have changes : ∀ other, some ((left name bindings).getD autoload) = some other →
                Ends other := by
              rintro _ ⟨⟩
              cases chosen : left name bindings with
              | none => exact ends autoload rfl
              | some other => exact follow name bindings other chosen
            obtain ⟨kept, realised, later⟩ := exists_realised (next _) _ _ changes
            exact ⟨kept, (called name bindings).of_missing found realised, later⟩
termination_by structural program => program

theorem Ends.all (autoload : String → RegistryProgram) : Ends autoload :=
  .of_realised fun name bindings => exists_realised (autoload name) bindings none (by simp)

/-- Every program has a walk that ends as its run does. -/
theorem realised (program : RegistryProgram) (bindings : Bindings)
    (installed : Option (String → RegistryProgram)) :
    ∃ kept, program.Realised bindings installed kept := by
  obtain ⟨kept, realised, -⟩ :=
    exists_realised program bindings installed fun autoload _ => .all autoload
  exact ⟨kept, realised⟩

end RegistryProgram

end TagTemplate
