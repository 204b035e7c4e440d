import TagTemplate.Proofs.Variables.Lookup

/-!
Setting a variable is all or nothing.

Maps are created on the way to the place of the value before it is known whether the value
can be stored there.  Behind a map that has just been created there is nothing that could
refuse a value, so that an assignment that fails has created none.
-/

namespace TagTemplate.Variables

open TagTemplate.Json (Value)

/-- Why a value cannot be stored under components: a map is missing in front of the last one,
there is a value that has to be kept, or one that cannot be appended to. -/
inductive Faulty (mode : SetMode) (parts : List String) (value : Value) : Fault → Prop where
  | notAMap {front rest : List String} {part : String} {held : Value}
      (split : parts = front ++ part :: rest) (inside : rest ≠ [])
      (found : value.at? (front ++ [part]) = some held) (leaf : ∀ members, held ≠ .object members) :
      Faulty mode parts value (.notAMap part)
  | exists {old : Value} (keep : mode = .keep) (found : value.at? parts = some old) :
      Faulty mode parts value .exists
  | notAppendable {old : Value} (append : mode = .append) (found : value.at? parts = some old)
      (notText : ∀ text, old ≠ .string text) (notList : ∀ items, old ≠ .array items) :
      Faulty mode parts value .notAppendable

/-- The errors with which setting the variable at a path is refused. -/
inductive Refuses (vars : Variables) (path : String) (mode : SetMode) : TemplateError → Prop where
  | blank {part : String} (member : part ∈ Text.split "." path)
      (blank : Text.allBlank part = true) :
      Refuses vars path mode (.variableConflict path "path has an empty component")
  | faulty {parts : List String} {fault : Fault} (named : components path = .ok parts)
      (faulty : Faulty mode parts vars.toValue fault) : Refuses vars path mode (fault.error path)

variable {mode : SetMode} {value held : Value} {part : String} {parts rest : List String}
  {members inner left : Keyed Value} {fault : Fault} {vars remaining : Variables} {path : String}
  {error : TemplateError}

theorem merge_eq_error_iff {old : Option Value} : merge mode value old = .error fault ↔
    (fault = .exists ∧ mode = .keep ∧ old.isSome) ∨
      (fault = .notAppendable ∧ mode = .append ∧ ∃ held, old = some held ∧
        (∀ text, held ≠ .string text) ∧ ∀ items, held ≠ .array items) := by
  cases old with
  | none => cases mode <;> simp [merge]
  | some held =>
      cases mode with
      | replace => simp [merge]
      | keep => simp [merge, eq_comm]
      | append => cases held <;> simp [merge, eq_comm]

section Walk

theorem store_last : store mode value [part] members =
    match merge mode value (Keyed.find? part members) with
    | .ok merged => (.ok (), Keyed.insert part merged members)
    | .error fault => (.error fault, members) := rfl

theorem store_created (missing : Keyed.find? part members = none) (inside : rest ≠ []) :
    store mode value (part :: rest) members = ((store mode value rest []).1,
      Keyed.replace part (.object (store mode value rest []).2)
        (Keyed.insert part (.object []) members)) := by
  cases rest with
  | nil => contradiction
  | cons next rest =>
      simp only [store, Keyed.ensure_of_missing missing, Keyed.find?_insert_self]

theorem store_entered (found : Keyed.find? part members = some (.object inner))
    (inside : rest ≠ []) :
    store mode value (part :: rest) members = ((store mode value rest inner).1,
      Keyed.replace part (.object (store mode value rest inner).2) members) := by
  cases rest with
  | nil => contradiction
  | cons next rest => simp only [store, Keyed.ensure_of_find? found, found]

theorem store_blocked (found : Keyed.find? part members = some held)
    (leaf : ∀ members, held ≠ .object members) (inside : rest ≠ []) :
    store mode value (part :: rest) members = (.error (.notAMap part), members) := by
  cases rest with
  | nil => contradiction
  | cons next rest =>
      rw [store, Keyed.ensure_of_find? found, found]
      · cases held with
        | object members => exact absurd rfl (leaf members)
        | null | bool | number | string | array => rfl
      · simp

theorem store_nil_eq_ok (mode : SetMode) (value : Value) (parts : List String) :
    ∃ after, store mode value parts [] = (.ok (), after) := by
  induction parts with
  | nil => exact ⟨[], rfl⟩
  | cons part rest ih =>
      cases rest with
      | nil => cases mode <;> exact ⟨_, rfl⟩
      | cons next rest =>
          obtain ⟨after, stored⟩ := ih
          exact ⟨_, by rw [store_created rfl (by simp), stored]⟩

end Walk

section Faulty

theorem faulty_last_iff (value : Value) : Faulty mode [part] (.object members) fault ↔
    merge mode value (Keyed.find? part members) = .error fault := by
  rw [merge_eq_error_iff, ← Value.at?_member]
  constructor
  · intro faulty
    cases faulty with
    | notAMap split inside =>
        rw [List.singleton_eq_append_iff] at split
        simp [inside] at split
    | «exists» keep found => exact .inl ⟨rfl, keep, by simp [found]⟩
    | notAppendable append found notText notList =>
        exact .inr ⟨rfl, append, _, found, notText, notList⟩
  · rintro (⟨rfl, keep, present⟩ | ⟨rfl, append, held, found, notText, notList⟩)
    · obtain ⟨old, found⟩ := Option.isSome_iff_exists.mp present
      exact .exists keep found
    · exact .notAppendable append found notText notList

theorem not_faulty_of_missing (missing : Keyed.find? part members = none) :
    ¬ Faulty mode (part :: rest) (.object members) fault := by
  have nothing : ∀ more, Value.at? (part :: more) (.object members) = none := by simp [missing]
  intro faulty
  cases faulty with
  | @notAMap front _ _ _ split _ found =>
      cases front with
      | nil => cases split; cases (nothing _).symm.trans found
      | cons first front => cases split; cases (nothing _).symm.trans found
  | «exists» _ found => cases (nothing _).symm.trans found
  | notAppendable _ found => cases (nothing _).symm.trans found

theorem faulty_entered_iff (entered : Keyed.find? part members = some (.object inner)) :
    Faulty mode (part :: rest) (.object members) fault ↔ Faulty mode rest (.object inner) fault := by
  have below : ∀ more, Value.at? (part :: more) (.object members) = Value.at? more (.object inner) := by
    simp [entered]
  constructor
  · intro faulty
    cases faulty with
    | @notAMap front _ _ _ split inside found leaf =>
        cases front with
        | nil =>
            cases split
            cases (below []).symm.trans found
            exact absurd rfl (leaf inner)
        | cons first front =>
            cases split
            exact .notAMap rfl inside ((below _).symm.trans found) leaf
    | «exists» keep found => exact .exists keep ((below _).symm.trans found)
    | notAppendable append found => exact .notAppendable append ((below _).symm.trans found) ‹_› ‹_›
  · intro faulty
    cases faulty with
    | @notAMap front _ _ _ split inside found leaf =>
        have longer : part :: rest = (part :: front) ++ _ := congrArg (part :: ·) split
        exact .notAMap longer inside ((below _).trans found) leaf
    | «exists» keep found => exact .exists keep ((below _).trans found)
    | notAppendable append found => exact .notAppendable append ((below _).trans found) ‹_› ‹_›

theorem faulty_blocked_iff (found : Keyed.find? part members = some held)
    (leaf : ∀ members, held ≠ .object members) (inside : rest ≠ []) :
    Faulty mode (part :: rest) (.object members) fault ↔ fault = .notAMap part := by
  have nothing : ∀ more, more ≠ [] → Value.at? (part :: more) (.object members) = none := by
    intro more nonempty
    obtain ⟨next, more, rfl⟩ := List.exists_cons_of_ne_nil nonempty
    simp [found, Value.at?_leaf leaf]
  constructor
  · intro faulty
    cases faulty with
    | @notAMap front _ _ _ split _ held =>
        cases front with
        | nil => cases split; rfl
        | cons first front => cases split; cases (nothing _ (by simp)).symm.trans held
    | «exists» _ held => cases (nothing _ inside).symm.trans held
    | notAppendable _ held => cases (nothing _ inside).symm.trans held
  · rintro rfl
    have split : part :: rest = [] ++ part :: rest := rfl
    exact .notAMap split inside (by simp [found]) leaf

end Faulty

/-- A value is refused exactly for a fault, and then nothing has been changed. -/
theorem store_eq_error_iff (nonempty : parts ≠ []) :
    store mode value parts members = (.error fault, left) ↔
      Faulty mode parts (.object members) fault ∧ left = members := by
  induction parts generalizing members left with
  | nil => contradiction
  | cons part rest ih =>
      by_cases last : rest = []
      · subst last
        rw [store_last, faulty_last_iff value]
        cases merge mode value (Keyed.find? part members) <;> simp [eq_comm]
      · rcases Value.find?_cases part members with missing | ⟨inner, found⟩ | ⟨held, found, leaf⟩
        · -- the map that is created has room for everything
          obtain ⟨after, stored⟩ := store_nil_eq_ok mode value rest
          simp [store_created missing last, stored, not_faulty_of_missing missing]
        · rw [store_entered found last, faulty_entered_iff found]
          constructor
          · intro failed
            obtain ⟨refused, rfl⟩ := Prod.mk.inj failed
            have below : store mode value rest inner =
                (.error fault, (store mode value rest inner).2) := Prod.ext refused rfl
            obtain ⟨faulty, same⟩ := (ih last).mp below
            exact ⟨faulty, by rw [same, Keyed.replace_self found]⟩
          · rintro ⟨faulty, rfl⟩
            rw [(ih last).mpr ⟨faulty, rfl⟩, Keyed.replace_self found]
        · simp [store_blocked found leaf last, faulty_blocked_iff found leaf last, eq_comm]

theorem assign_of_components (named : components path = .ok parts) :
    vars.assign path value mode =
      ((store mode value parts vars.members).1.mapError (Fault.error path),
        ⟨(store mode value parts vars.members).2⟩) := by
  simp only [assign, named]

/-- Setting a variable fails exactly when its path has a blank component, leads through a value
that is no map, or holds a value that the mode refuses; the variables are then as they were. -/
theorem assign_eq_error_iff : vars.assign path value mode = (.error error, remaining) ↔
    vars.Refuses path mode error ∧ remaining = vars := by
  constructor
  · intro failed
    cases named : components path with
    | error reason =>
        obtain ⟨⟨part, member, blank⟩, rfl⟩ := components_eq_error_iff.mp named
        simp only [assign, named] at failed
        cases failed
        exact ⟨.blank member blank, rfl⟩
    | ok parts =>
        rw [assign_of_components named] at failed
        cases stored : store mode value parts vars.members with
        | mk result left =>
            cases result with
            | ok => rw [stored] at failed; cases failed
            | error fault =>
                rw [stored] at failed
                cases failed
                obtain ⟨faulty, rfl⟩ := (store_eq_error_iff (ne_nil_of_components named)).mp stored
                exact ⟨.faulty named faulty, rfl⟩
  · rintro ⟨refused, rfl⟩
    cases refused with
    | blank member blank =>
        simp only [assign, components_eq_error_iff.mpr ⟨⟨_, member, blank⟩, rfl⟩]
    | faulty named faulty =>
        rw [assign_of_components named,
          (store_eq_error_iff (ne_nil_of_components named)).mpr ⟨faulty, rfl⟩]
        rfl

end TagTemplate.Variables
