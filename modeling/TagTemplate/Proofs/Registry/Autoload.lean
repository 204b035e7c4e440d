import TagTemplate.Proofs.Registry.Requests

/-!
Autoload callbacks.

A callback is called for a look-up that misses and for no other, and once.  It is detached while
it runs: until it has installed a callback itself, look-ups that miss inside it find nothing.
When it has ended, with whatever result, there is a callback in the registry again.
-/

namespace TagTemplate

/-- All look-ups of a tag fail: under the catch-all name, under its own name, and under its name
joined with the first part of its parameter. -/
structure Bindings.Misses (bindings : Bindings) (name param : String) : Prop where
  everything : bindings.get? catchAll = none
  own : bindings.get? name = none
  subtype : param ≠ "" → bindings.get? (name ++ bindings.separator ++
    ((Text.splitOnce bindings.separator param).getD (param, "")).1) = none

theorem Bindings.find?_eq_none_iff {bindings : Bindings} {name param : String} :
    bindings.find? name param = none ↔ bindings.Misses name param := by
  constructor
  · intro missing
    unfold Bindings.find? at missing
    split at missing
    · cases missing
    · rename_i none
      obtain ⟨everything, own⟩ := Option.or_eq_none_iff.mp none
      refine ⟨everything, own, fun given => ?_⟩
      simpa [String.isEmpty_iff, given] using missing
  · intro ⟨everything, own, subtype⟩
    have none : bindings.lookup? name = none := Option.or_eq_none_iff.mpr ⟨everything, own⟩
    unfold Bindings.find?
    rw [none]
    by_cases empty : param = ""
    · simp [empty]
    · simpa [String.isEmpty_iff, empty] using subtype empty

namespace RegistryMoment

def Installs (moment : RegistryMoment) : Prop :=
  ∃ autoload next, moment.program = .setAutoload autoload next

/-- A walk during which look-ups stay suspended and no callback is installed. -/
def LeadsUninstalled (waiting : List SuspendedLookup) : RegistryMoment → RegistryMoment → Prop :=
  Relation.ReflTransGen fun before after =>
    before.next = some after ∧ ¬ before.Installs ∧ waiting <:+ after.suspended

/-- Nothing is called and nothing is put back while a callback runs. -/
structure Detached (waiting : List SuspendedLookup) (moment : RegistryMoment) : Prop where
  nothing : moment.installed = none
  innermost : moment.suspended = waiting

variable {before after : RegistryMoment} {waiting : List SuspendedLookup}

theorem Detached.step (detached : before.Detached waiting) (stepped : before.next = some after)
    (still : ¬ before.Installs) (below : waiting <:+ after.suspended) :
    after.Detached waiting := by
  cases step_of_next stepped with
  | goesOn => exact ⟨detached.nothing, detached.innermost⟩
  | registers => exact ⟨detached.nothing, detached.innermost⟩
  | unregisters => exact ⟨detached.nothing, detached.innermost⟩
  | installs asked => exact absurd ⟨_, _, asked⟩ still
  | calls lookup ready =>
      rw [detached.nothing] at ready
      cases ready
  | returns result waits =>
      -- The callback would have ended.
      rw [← detached.innermost, waits] at below
      have shorter := below.length_le
      simp only [resume, List.length_cons] at shorter
      omega

theorem LeadsUninstalled.detached (led : before.LeadsUninstalled waiting after)
    (detached : before.Detached waiting) : after.Detached waiting := by
  induction led with
  | refl => exact detached
  | tail _ stepped ih => exact ih.step stepped.1 stepped.2.1 stepped.2.2

theorem Detached.next_resolve {name param : String}
    {next : Except TemplateError (Option Resolution) → RegistryProgram}
    (detached : before.Detached waiting) (asked : before.program = .resolve name param next)
    (misses : before.bindings.Misses name param) :
    before.next = some { before with program := next (.ok none) } := by
  have missing := Bindings.find?_eq_none_iff.mpr misses
  simp only [RegistryMoment.next, asked, lookUp, missing, detached.nothing]

/-- Outside the callbacks there is a callback in the registry. -/
def Autoloads (moment : RegistryMoment) : Prop :=
  moment.suspended = [] → moment.installed.isSome

theorem Autoloads.step (autoloads : before.Autoloads) (stepped : before.next = some after) :
    after.Autoloads := by
  cases step_of_next stepped with
  | goesOn => exact autoloads
  | registers => exact autoloads
  | unregisters => exact autoloads
  | installs => exact fun _ => rfl
  | calls => exact fun outside => by cases outside
  | returns => exact fun _ => rfl

theorem Leads.autoloads (led : before.Leads after) (autoloads : before.Autoloads) :
    after.Autoloads := by
  induction led with
  | refl => exact autoloads
  | tail _ stepped ih => exact ih.step stepped

end RegistryMoment

variable {bindings : Bindings} {name param : String}

theorem RegistryMoment.next_eq_call_iff (autoload : String → RegistryProgram)
    (next : Except TemplateError (Option Resolution) → RegistryProgram)
    (waiting : List SuspendedLookup) :
    let asking : RegistryMoment := ⟨.resolve name param next, bindings, some autoload, waiting⟩
    asking.next = some (asking.call ⟨name, param, autoload, next⟩) ↔
      bindings.Misses name param := by
  intro asking
  rw [← Bindings.find?_eq_none_iff]
  constructor
  · intro called
    cases found : bindings.find? name param with
    | none => rfl
    | some resolved =>
        simp only [asking, RegistryMoment.next, lookUp, found, call, Option.some.injEq,
          RegistryMoment.mk.injEq] at called
        exact absurd called.2.2.2.symm (List.cons_ne_self _ _)
  · intro missing
    simp only [asking, RegistryMoment.next, lookUp, missing]

/-- Autoload runs once for a look-up that misses, detached, and is never lost. -/
theorem autoload_once_and_kept (bindings : Bindings) (autoload : String → RegistryProgram)
    (name param : String) (next : Except TemplateError (Option Resolution) → RegistryProgram)
    (waiting : List SuspendedLookup) :
    let registry : Registry := ⟨bindings, some (RegistryProgram.callback autoload)⟩
    let asking : RegistryMoment := ⟨.resolve name param next, bindings, some autoload, waiting⟩
    let called := asking.call ⟨name, param, autoload, next⟩
    (asking.next = some called ↔ bindings.Misses name param) ∧
    (¬ bindings.Misses name param → ∃ resolved, bindings.find? name param = some resolved ∧
      asking.next = some { asking with program := next (.ok (some resolved.resolution)) } ∧
      registry.resolve name param = (.ok (some resolved), registry, [])) ∧
    (∀ during, called.LeadsUninstalled called.suspended during →
      during.installed = none ∧ during.suspended = called.suspended ∧
      ∀ other argument rest, during.program = .resolve other argument rest →
        during.bindings.Misses other argument →
        during.next = some { during with program := rest (.ok none) }) ∧
    (bindings.Misses name param → ∃ result left installed events,
      (autoload name).run ⟨bindings, none⟩ =
        (result, ⟨left, installed.map RegistryProgram.callback⟩, events) ∧
      (let ended : RegistryMoment := ⟨.ofResult result, left, installed, called.suspended⟩
      called.LeadsBelow called.suspended ended ∧
      ended.next = some ⟨next (result.map fun () =>
        (left.find? name param).map Resolved.resolution), left, some (installed.getD autoload),
        waiting⟩) ∧
      registry.resolve name param = (result.map fun () => left.find? name param,
        ⟨left, some (RegistryProgram.callback (installed.getD autoload))⟩,
        .autoloading name :: events)) ∧
    (∀ program after, RegistryMoment.Leads ⟨program, bindings, some autoload, []⟩ after →
      after.suspended = [] → after.installed.isSome) ∧
    ∀ requests, (registry.after requests).autoload.isSome := by
  intro registry asking called
  refine ⟨RegistryMoment.next_eq_call_iff autoload next waiting, ?_, ?_, ?_, ?_, ?_⟩
  · intro hit
    rw [← Bindings.find?_eq_none_iff] at hit
    obtain ⟨resolved, found⟩ := Option.ne_none_iff_exists'.mp hit
    refine ⟨resolved, found, ?_, Registry.resolve_of_found found⟩
    simp only [asking, RegistryMoment.next, RegistryMoment.lookUp, found]
  · intro during led
    have detached := led.detached ⟨rfl, rfl⟩
    exact ⟨detached.nothing, detached.innermost, fun _ _ _ => detached.next_resolve⟩
  · intro misses
    have missing := Bindings.find?_eq_none_iff.mpr misses
    obtain ⟨installed, realised⟩ := (autoload name).realised bindings none
    rcases ran : (autoload name).run ⟨bindings, none⟩ with ⟨result, ⟨left, kept⟩, events⟩
    have walks := realised.walks called.suspended
    have keeps := realised.keeps
    simp only [Option.map_none, ran] at walks keeps
    subst keeps
    refine ⟨result, left, installed, events, rfl, ⟨walks, ?_⟩, ?_⟩
    · exact RegistryMoment.next_ofResult ..
    · simp only [registry, RegistryProgram.resolve_of_missing missing, ran]
      cases installed <;> rfl
  · intro program after led outside
    exact led.autoloads (fun _ => rfl) outside
  · intro requests
    have met : registry.Meets fun _ installed => installed.isSome := ⟨some autoload, rfl, rfl⟩
    obtain ⟨installed, same, kept⟩ := met.after
      (fun led ready => led.autoloads (fun _ => ready) rfl) requests
    rw [same, Option.isSome_map]
    exact kept

/-- A callback that looks for another tag, registers the one that is missing and leaves its place
to another callback. -/
theorem autoload_once_and_kept_of_registering :
    let bindings : Bindings := ⟨":", []⟩
    let later : String → RegistryProgram := fun _ => .done
    let autoload : String → RegistryProgram := fun name =>
      .resolve "column" "" fun _ => .register name (fun _ => .done "") {} false fun _ =>
        .setAutoload later .done
    bindings.Misses "row" "init" ∧ ∃ (result : Except TemplateError Unit) (left : Bindings)
      (installed : Option (String → RegistryProgram)) (events : List LookupEvent),
      (autoload "row").run ⟨bindings, none⟩ =
        (result, ⟨left, installed.map RegistryProgram.callback⟩, events) ∧
      Registry.resolve "row" "init" ⟨bindings, some (RegistryProgram.callback autoload)⟩ =
        (result.map fun () => left.find? "row" "init",
          ⟨left, some (RegistryProgram.callback (installed.getD autoload))⟩,
          .autoloading "row" :: events) := by
  intro bindings later autoload
  have misses : bindings.Misses "row" "init" := ⟨rfl, rfl, fun _ => rfl⟩
  obtain ⟨result, left, installed, events, ran, -, looked⟩ :=
    (autoload_once_and_kept bindings autoload "row" "init" (fun _ => .done) []).2.2.2.1 misses
  exact ⟨misses, result, left, installed, events, ran, looked⟩

end TagTemplate
