import Mathlib.Logic.Function.Basic
import TagTemplate.Proofs.Variables.Setting

/-!
Variables as a plain map of texts.

Where no place lies on the way to another one, only maps are met on the way to a place, so that a
text can always be stored there, and what is stored is read at its place and changes no other one.
-/

namespace TagTemplate.Variables

open TagTemplate.Json (Value)

/-- No place lies on the way to another one. -/
def Separate (places : List String → Prop) : Prop :=
  ∀ place other, places place → places other → place <+: other → place = other

/-- The variables hold the texts of a map at its places, and no leaf on the way to them. -/
structure Mirrors (places : List String → Prop) (texts : List String → Option String)
    (vars : Variables) : Prop where
  held : ∀ place, places place → vars.toValue.at? place = (texts place).map .string
  above : ∀ place front part rest, places place → place = front ++ part :: rest →
    vars.toValue.at? front = none ∨ ∃ inner, vars.toValue.at? front = some (.object inner)

variable {places : List String → Prop} {texts : List String → Option String}
  {vars after : Variables} {place : List String} {path text new : String} {mode : SetMode}

theorem mirrors_empty (named : ∀ place, places place → place ≠ []) :
    empty.Mirrors places fun _ => none where
  held place member := by
    obtain ⟨first, rest, rfl⟩ := List.exists_cons_of_ne_nil (named place member)
    rfl
  above place front part rest member split := by
    cases front with
    | nil => exact .inr ⟨[], rfl⟩
    | cons first front => exact .inl rfl

namespace Mirrors

theorem put (mirrors : vars.Mirrors places texts) (separate : Separate places)
    (member : places place)
    (put : Put (.string new) place (some vars.toValue) after.toValue) :
    after.Mirrors places (Function.update texts place (some new)) where
  held other there := by
    by_cases same : other = place
    · subst same
      have here : after.toValue.at? (other ++ []) = Value.at? [] (.string new) := put.at?_append
      rw [List.append_nil] at here
      rw [here, Function.update_self]
      rfl
    · have apart : ¬ other <+: place := fun before =>
        same (separate other place there member before)
      have behind : ¬ place <+: other := fun before =>
        same (separate place other member there before).symm
      rw [put.at?_of_apart apart behind, Option.bind_some, mirrors.held other there,
        Function.update_of_ne same]
  above other front part rest there split := by
    by_cases before : front <+: place
    · obtain ⟨more, rfl⟩ := before
      cases more with
      | nil =>
          -- the place itself does not lie on the way to another one
          rw [List.append_nil] at member
          have same := separate front other member there ⟨part :: rest, split.symm⟩
          simp [split] at same
      | cons key more =>
          obtain ⟨inner, reached, _⟩ := put.at?_above
          exact .inr ⟨inner, reached⟩
    · by_cases behind : place <+: front
      · have same := separate place other member there
          (behind.trans ⟨part :: rest, split.symm⟩)
        have within : front <+: place := by
          rw [same, split]
          exact List.prefix_append _ _
        exact absurd within before
      · rw [put.at?_of_apart before behind, Option.bind_some]
        exact mirrors.above other front part rest there split

/-- A text is stored at a place as it is stored in the map. -/
theorem exists_assign (mirrors : vars.Mirrors places texts) (separate : Separate places)
    (member : places place) (named : components path = .ok place)
    (merged : merge mode (.string text) ((texts place).map .string) = .ok (.string new)) :
    ∃ after, vars.assign path (.string text) mode = (.ok (), after) ∧
      after.Mirrors places (Function.update texts place (some new)) := by
  have nonempty := ne_nil_of_components named
  have held : Value.at? place (.object vars.members) = (texts place).map .string :=
    mirrors.held place member
  rw [← held] at merged
  rw [assign_of_components named]
  cases stored : store mode (.string text) place vars.members with
  | mk result left =>
      cases result with
      | ok =>
          obtain ⟨value, same, put⟩ := put_of_store nonempty stored
          cases same.symm.trans merged
          exact ⟨⟨left⟩, rfl, mirrors.put separate member put⟩
      | error fault =>
          obtain ⟨faulty, _⟩ := (store_eq_error_iff nonempty).mp stored
          cases faulty with
          | @notAMap front rest part leaf split inside found noMap =>
              obtain ⟨next, rest, rfl⟩ := List.exists_cons_of_ne_nil inside
              have onTheWay :=
                mirrors.above place (front ++ [part]) next rest member (by simp [split])
              rw [toValue, found] at onTheWay
              rcases onTheWay with missing | ⟨inner, map⟩
              · cases missing
              · cases map
                exact absurd rfl (noMap inner)
          | «exists» keep found =>
              rw [keep, found] at merged
              cases merged
          | notAppendable append found notText notList =>
              rw [found] at held
              obtain ⟨old, _, same⟩ := Option.map_eq_some_iff.mp held.symm
              exact absurd same.symm (notText old)

end Mirrors

end TagTemplate.Variables
