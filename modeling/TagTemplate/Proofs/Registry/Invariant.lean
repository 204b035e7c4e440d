import TagTemplate.Proofs.Registry.Requests

/-!
What holds of a registry at all times.

Whatever is asked of a registry that was empty, and whatever its callbacks do meanwhile, only
proper names and valid conventions are bound in it, and its names are listed in order.
-/

namespace TagTemplate

/-- What a registry with this separator keeps to. -/
structure Bindings.Proper (separator : String) (bindings : Bindings) : Prop where
  separated : bindings.separator = separator
  named : ∀ name binding, bindings.get? name = some binding →
    name = catchAll ∨
      ∀ part ∈ Text.split separator name, part ≠ "" ∧ ∀ c ∈ part.toList, isNameChar c
  valid : ∀ name binding, bindings.get? name = some binding → binding.convention.validate = .ok ()
  increasing : bindings.names.Pairwise (· < ·)
  listed : ∀ name, name ∈ bindings.names ↔ (bindings.get? name).isSome

namespace Bindings

variable {separator name : String} {bindings added : Bindings} {binding : Binding}

theorem isName_iff : isName separator name ↔ name = catchAll ∨
    ∀ part ∈ Text.split separator name, part ≠ "" ∧ ∀ c ∈ part.toList, isNameChar c := by
  simp [isName, isNamePart]

theorem proper_empty (separator : String) : Proper separator ⟨separator, []⟩ where
  separated := rfl
  named _ _ looked := by cases looked
  valid _ _ looked := by cases looked
  increasing := .nil
  listed _ := Keyed.mem_keys_iff

theorem Proper.register (proper : bindings.Proper separator)
    (registered : bindings.register name binding = .ok added) : added.Proper separator := by
  obtain ⟨isName, validated, rfl⟩ := register_eq_ok registered
  rw [proper.separated] at isName
  -- A binding is the new one or an old one.
  have either {property : String → Binding → Prop} (new : property name binding)
      (old : ∀ other found, bindings.get? other = some found → property other found)
      (other : String) (found : Binding)
      (looked : Keyed.find? other (Keyed.insert name binding bindings.table) = some found) :
      property other found := by
    by_cases same : other = name
    · subst same
      rw [Keyed.find?_insert_self] at looked
      cases looked
      exact new
    · rw [Keyed.find?_insert_of_ne same] at looked
      exact old other found looked
  exact {
    separated := proper.separated
    named := either (isName_iff.mp isName) proper.named
    valid := either validated proper.valid
    increasing := Keyed.pairwise_keys_iff.mpr
      ((Keyed.pairwise_keys_iff.mp proper.increasing).insert name binding)
    listed := fun _ => Keyed.mem_keys_iff }

theorem Proper.unregister (proper : bindings.Proper separator) (name : String) :
    (bindings.unregister name).Proper separator := by
  have old (other : String) (found : Binding)
      (looked : (bindings.unregister name).get? other = some found) :
      bindings.get? other = some found := by
    by_cases same : other = name
    · subst same
      rw [get?, Bindings.unregister, Keyed.find?_erase_self] at looked
      cases looked
    · rwa [get?, Bindings.unregister, Keyed.find?_erase_of_ne same] at looked
  exact {
    separated := proper.separated
    named := fun other found looked => proper.named other found (old other found looked)
    valid := fun other found looked => proper.valid other found (old other found looked)
    increasing := Keyed.pairwise_keys_iff.mpr
      ((Keyed.pairwise_keys_iff.mp proper.increasing).erase name)
    listed := fun _ => Keyed.mem_keys_iff }

end Bindings

namespace RegistryMoment

variable {separator : String} {before after : RegistryMoment}

theorem proper_of_next (proper : before.bindings.Proper separator)
    (stepped : before.next = some after) : after.bindings.Proper separator := by
  cases step_of_next stepped with
  | goesOn => exact proper
  | registers registered => exact proper.register registered
  | unregisters name => exact proper.unregister name
  | installs => exact proper
  | calls => exact proper
  | returns => exact proper

theorem Leads.proper (led : before.Leads after) (proper : before.bindings.Proper separator) :
    after.bindings.Proper separator := by
  induction led with
  | refl => exact proper
  | tail _ stepped ih => exact proper_of_next ih stepped

end RegistryMoment

theorem Registry.register_of_error {registry : Registry} {name : String} {binding : Binding}
    {error : TemplateError} (failed : (registry.register name binding).1 = .error error) :
    (registry.register name binding).2 = registry := by
  unfold Registry.register at failed ⊢
  split
  · rename_i added
    simp [added] at failed
  · rfl

/-- Whatever has been asked of a registry, it is proper, and so it is at every moment of what may
be asked next, also inside the callbacks. -/
theorem proper_after_requests (separator : String) (requests : List RegistryRequest) :
    let registry := (Registry.empty separator).after requests
    registry.bindings.Proper separator ∧
    (∀ name binding error, (registry.register name binding).1 = .error error →
      (registry.register name binding).2 = registry) ∧
    ∃ installed, registry.autoload = installed.map RegistryProgram.callback ∧
      ∀ program during, RegistryMoment.Leads ⟨program, registry.bindings, installed, []⟩ during →
        during.bindings.Proper separator ∧
        ∀ name handler convention builtIn next error,
          during.program = .register name handler convention builtIn next →
          during.bindings.register name ⟨handler, convention, builtIn⟩ = .error error →
          during.next = some { during with program := next (.error error) } := by
  intro registry
  have met : (Registry.empty separator).Meets fun bindings _ => bindings.Proper separator :=
    ⟨none, rfl, Bindings.proper_empty separator⟩
  obtain ⟨installed, same, proper⟩ := met.after (fun led now => led.proper now) requests
  refine ⟨proper, fun _ _ _ => Registry.register_of_error, installed, same, ?_⟩
  intro program during led
  refine ⟨led.proper proper, ?_⟩
  intro name handler convention builtIn next error asked failed
  simp only [RegistryMoment.next, asked, failed]

/-- A plugin whose second tag has no proper name, after a look-up that has registered its own. -/
theorem proper_after_requests_of_failing :
    let binding : Binding := ⟨fun _ => .done "", {}, false⟩
    let registry := (Registry.empty ":").after
      [.setAutoload fun name => .register (name ++ ":init") binding.handler {} false fun _ => .done,
        .resolve "row" "init", .registerAll [("cell", binding), ("a b", binding), ("x", binding)]]
    registry.bindings.names = ["cell", "row:init"] ∧ registry.bindings.Proper ":" := by
  intro binding registry
  exact ⟨by decide, (proper_after_requests ":" _).1⟩

end TagTemplate
