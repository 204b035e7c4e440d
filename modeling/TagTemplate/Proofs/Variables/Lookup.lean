import TagTemplate.Proofs.Lexing.Marked
import TagTemplate.Proofs.Stripping
import TagTemplate.Variables

/-!
What the components of a path lead to.

`Json.Value.at?` follows components from one value to the next, so that a path can be cut
anywhere; looking up a variable is following the components of its path from the map of all
variables.
-/

namespace TagTemplate

namespace Json.Value

variable {value held : Value} {members : Keyed Value} {part : String} {parts rest : List String}

/-- The value that components lead to. -/
def at? : List String → Value → Option Value
  | [], value => some value
  | part :: rest, .object members => (Keyed.find? part members).bind (at? rest)
  | _ :: _, _ => none

@[simp] theorem at?_nil : at? [] value = some value := rfl

@[simp] theorem at?_object :
    at? (part :: rest) (.object members) = (Keyed.find? part members).bind (at? rest) := rfl

theorem at?_member : at? [part] (.object members) = Keyed.find? part members := by
  cases found : Keyed.find? part members <;> simp [found]

theorem at?_leaf (leaf : ∀ members, held ≠ .object members) : at? (part :: rest) held = none := by
  cases held with
  | object members => exact absurd rfl (leaf members)
  | null | bool | number | string | array => rfl

theorem find?_cases (part : String) (members : Keyed Value) :
    Keyed.find? part members = none ∨ (∃ inner, Keyed.find? part members = some (.object inner)) ∨
      ∃ held, Keyed.find? part members = some held ∧ ∀ members, held ≠ .object members := by
  cases Keyed.find? part members with
  | none => exact .inl rfl
  | some held =>
      cases held with
      | object inner => exact .inr (.inl ⟨inner, rfl⟩)
      | null | bool | number | string | array => exact .inr (.inr ⟨_, rfl, by simp⟩)

theorem at?_append : at? (parts ++ rest) value = (at? parts value).bind (at? rest) := by
  induction parts generalizing value with
  | nil => rfl
  | cons part parts ih =>
      cases value with
      | object members =>
          cases found : Keyed.find? part members with
          | none => simp [found]
          | some next => simp [found, ih]
      | null | bool | number | string | array => rfl

end Json.Value

namespace Variables

variable {path : String} {parts : List String} {members : Keyed Json.Value} {vars : Variables}
  {error : TemplateError}

theorem lookup_eq_at? (nonempty : parts ≠ []) :
    lookup parts members = Json.Value.at? parts (.object members) := by
  induction parts generalizing members with
  | nil => contradiction
  | cons part rest ih =>
      cases rest with
      | nil => rw [lookup, Json.Value.at?_member]
      | cons next rest =>
          cases found : Keyed.find? part members with
          | none => simp [lookup, found]
          | some held =>
              cases held with
              | object inner => simp [lookup, found, ih]
              | null | bool | number | string | array => simp [lookup, found, Json.Value.at?]

theorem any_isEmpty_trim_iff : ((Text.split "." path).map Text.trim).any String.isEmpty = true ↔
    ∃ part ∈ Text.split "." path, Text.allBlank part = true := by
  simp only [List.any_map, List.any_eq_true, Function.comp_apply, Text.isEmpty_trim_iff]

theorem components_eq_error_iff : components path = .error error ↔
    (∃ part ∈ Text.split "." path, Text.allBlank part = true) ∧
      error = .variableConflict path "path has an empty component" := by
  rw [components, ← any_isEmpty_trim_iff]
  constructor
  · intro refused
    split at refused
    · rename_i blank
      cases refused
      exact ⟨blank, rfl⟩
    · cases refused
  · rintro ⟨blank, rfl⟩
    exact if_pos blank

theorem ne_nil_of_components (named : components path = .ok parts) : parts ≠ [] := by
  rw [components] at named
  split at named
  · cases named
  · cases named
    simpa using Text.split_ne_nil (by decide) path

theorem get?_eq_at? (named : components path = .ok parts) :
    vars.get? path = .ok (vars.toValue.at? parts) := by
  rw [toValue, ← lookup_eq_at? (ne_nil_of_components named), get?, named]
  rfl

end Variables

end TagTemplate
