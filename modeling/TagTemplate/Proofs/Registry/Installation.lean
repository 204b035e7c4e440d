import TagTemplate.Proofs.Registry.Invariant

/-!
Registering the tags of a plugin.

The tags are registered in their order up to the first that is refused.  Those in front of it stay
registered, so that a plugin that is refused may be installed in part.
-/

namespace TagTemplate

namespace Registry

/-- A tag that is not refused, whatever is bound already. -/
structure Accepts (registry : Registry) (tag : String × Binding) : Prop where
  named : Bindings.isName registry.bindings.separator tag.1
  valid : tag.2.convention.validate = .ok ()

/-- Exactly the declared names are bound anew, each as its last declaration says. -/
structure Rebinds (tags : List (String × Binding)) (before after : Registry) : Prop where
  declared : ∀ name ∈ Keyed.keys tags, after.bindings.get? name = Keyed.last? name tags
  others : ∀ name, name ∉ Keyed.keys tags →
    after.bindings.get? name = before.bindings.get? name
  separator : after.bindings.separator = before.bindings.separator
  autoload : after.autoload = before.autoload

def putAll (tags : List (String × Binding)) (registry : Registry) : Registry :=
  { registry with bindings :=
    { registry.bindings with table := Keyed.insertAll tags registry.bindings.table } }

variable {registry : Registry} {tag refused : String × Binding}
  {tags taken : List (String × Binding)}

theorem get?_putAll (name : String) :
    (registry.putAll tags).bindings.get? name =
      (Keyed.last? name tags).or (registry.bindings.get? name) :=
  Keyed.find?_insertAll name tags registry.bindings.table

theorem rebinds_putAll (tags : List (String × Binding)) (registry : Registry) :
    registry.Rebinds tags (registry.putAll tags) where
  declared := by
    intro name member
    obtain ⟨binding, last⟩ := Option.isSome_iff_exists.mp (Keyed.last?_isSome_iff.mpr member)
    rw [get?_putAll, last, Option.some_or]
  others := by
    intro name absent
    have none : Keyed.last? name tags = none := by
      rwa [← Option.not_isSome_iff_eq_none, Keyed.last?_isSome_iff]
    rw [get?_putAll, none, Option.none_or]
  separator := rfl
  autoload := rfl

theorem register_of_accepts (accepts : registry.Accepts tag) :
    registry.register tag.1 tag.2 = (.ok (), registry.putAll [tag]) := by
  obtain ⟨named, valid⟩ := accepts
  simp only [register, Bindings.register, named, valid]
  rfl

theorem register_of_refuses (refuses : ¬ registry.Accepts tag) :
    ∃ error, ∀ others, (registry.putAll others).register tag.1 tag.2 =
      (.error error, registry.putAll others) := by
  -- name and convention are all that is looked at
  cases named : Bindings.isName registry.bindings.separator tag.1 with
  | false => exact ⟨_, fun others => by simp [register, Bindings.register, putAll, named]; rfl⟩
  | true =>
      cases valid : tag.2.convention.validate with
      | ok _ => exact absurd ⟨named, valid⟩ refuses
      | error message =>
          exact ⟨_, fun others => by simp [register, Bindings.register, putAll, named, valid]; rfl⟩

theorem registerAll_append (accepted : ∀ tag ∈ taken, registry.Accepts tag)
    (left : List (String × Binding)) :
    registerAll (taken ++ left) registry = registerAll left (registry.putAll taken) := by
  induction taken generalizing registry with
  | nil => rfl
  | cons tag taken ih =>
      obtain ⟨accepts, behind⟩ := List.forall_mem_cons.mp accepted
      have still : ∀ other ∈ taken, (registry.putAll [tag]).Accepts other := fun other member =>
        ⟨(behind other member).named, (behind other member).valid⟩
      rw [List.cons_append, registerAll, register_of_accepts accepts]
      exact ih still

theorem exists_refused (registry : Registry) (tags : List (String × Binding)) :
    (∀ tag ∈ tags, registry.Accepts tag) ∨ ∃ taken refused left,
      tags = taken ++ refused :: left ∧ (∀ tag ∈ taken, registry.Accepts tag) ∧
        ¬ registry.Accepts refused := by
  induction tags with
  | nil => exact .inl (by simp)
  | cons tag tags ih =>
      by_cases accepts : registry.Accepts tag
      · rcases ih with all | ⟨taken, refused, left, rfl, before, refuses⟩
        · exact .inl (List.forall_mem_cons.mpr ⟨accepts, all⟩)
        · exact .inr ⟨tag :: taken, refused, left, rfl,
            List.forall_mem_cons.mpr ⟨accepts, before⟩, refuses⟩
      · exact .inr ⟨[], tag, tags, rfl, by simp, accepts⟩

end Registry

/-- A plugin is installed as a whole, or up to the first tag that is refused.  Then nothing has
changed exactly if the names in front of that tag had their bindings already. -/
theorem registerAll_up_to_refused (tags : List (String × Binding)) (registry : Registry) :
    match registry.registerAll tags with
    | (.ok (), after) => (∀ tag ∈ tags, registry.Accepts tag) ∧ registry.Rebinds tags after
    | (.error error, after) => ∃ taken refused left, tags = taken ++ refused :: left ∧
        (∀ tag ∈ taken, registry.Accepts tag) ∧
        registry.register refused.1 refused.2 = (.error error, registry) ∧
        registry.Rebinds taken after ∧
        ((∀ name, after.bindings.get? name = registry.bindings.get? name) ↔
          ∀ name ∈ Keyed.keys taken, registry.bindings.get? name = Keyed.last? name taken) := by
  rcases registry.exists_refused tags with
    all | ⟨taken, refused, left, rfl, accepted, refuses⟩
  · have ran : registry.registerAll tags = (.ok (), registry.putAll tags) := by
      simpa [Registry.registerAll] using Registry.registerAll_append all []
    rw [ran]
    exact ⟨all, registry.rebinds_putAll tags⟩
  · obtain ⟨error, refusal⟩ := Registry.register_of_refuses refuses
    have ran : registry.registerAll (taken ++ refused :: left) =
        (.error error, registry.putAll taken) := by
      rw [Registry.registerAll_append accepted, Registry.registerAll, refusal taken]
    have rebinds := registry.rebinds_putAll taken
    rw [ran]
    refine ⟨taken, refused, left, rfl, accepted, refusal [], rebinds, ?_, ?_⟩
    · intro unchanged name member
      rw [← unchanged, rebinds.declared name member]
    · intro bound name
      by_cases member : name ∈ Keyed.keys taken
      · rw [rebinds.declared name member, bound name member]
      · exact rebinds.others name member

/-- The first tag of a plugin stays registered though the second one is refused. -/
theorem registerAll_leaves_part :
    let binding : Binding := ⟨fun _ => .done "", {}, false⟩
    let registry := Registry.empty ":"
    let outcome := registry.registerAll [("first", binding), ("a b", binding)]
    outcome.1 =
        .error (.invalidConvention "a b" "tag names use letters, digits, '_', '.' and '-'") ∧
      registry.bindings.get? "first" = none ∧
      outcome.2.bindings.get? "first" = some binding :=
  ⟨rfl, rfl, rfl⟩

end TagTemplate
