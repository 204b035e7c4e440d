import Mathlib.Data.List.DropRight
import Mathlib.Data.List.TakeWhile
import TagTemplate.Text.Blank

/-!
Texts without white space at their ends.
-/

namespace TagTemplate.Text

variable {p : Char → Bool} {cs around : List Char}

theorem strip_eq_nil_iff :
    strip p cs = [] ↔ ∀ c ∈ cs, p c = true := by
  rw [strip, List.reverse_eq_nil_iff, List.dropWhile_eq_nil_iff]
  constructor
  · intro blank
    have rest : (cs.dropWhile p).dropWhile p = [] :=
      List.dropWhile_eq_nil_iff.mpr fun c member => blank c (List.mem_reverse.mpr member)
    rw [List.dropWhile_idempotent] at rest
    exact List.dropWhile_eq_nil_iff.mp rest
  · intro blank c member
    exact blank c ((List.dropWhile_sublist p).subset (List.mem_reverse.mp member))

theorem strip_subset (p : Char → Bool) (cs : List Char) : strip p cs ⊆ cs := by
  intro c member
  rw [strip, List.mem_reverse] at member
  have inside := (List.dropWhile_sublist p).subset member
  exact (List.dropWhile_sublist p).subset (List.mem_reverse.mp inside)

theorem strip_append_left (blank : ∀ c ∈ around, p c = true) :
    strip p (around ++ cs) = strip p cs := by
  rw [strip, List.dropWhile_append_of_pos blank, ← strip]

theorem strip_append_right (blank : ∀ c ∈ around, p c = true) :
    strip p (cs ++ around) = strip p cs := by
  have none : around.dropWhile p = [] := List.dropWhile_eq_nil_iff.mpr blank
  have reversed : ∀ c ∈ around.reverse, p c = true := fun c member =>
    blank c (List.mem_reverse.mp member)
  rw [strip, strip, List.dropWhile_append]
  cases kept : cs.dropWhile p with
  | nil => simp [none]
  | cons c rest =>
      rw [List.isEmpty_cons, if_neg (by simp), List.reverse_append,
        List.dropWhile_append_of_pos reversed]

/-- Stripping changes nothing where both ends are outside the class. -/
theorem strip_eq_self (first : ∀ c ∈ cs.head?, p c = false)
    (last : ∀ c ∈ cs.getLast?, p c = false) : strip p cs = cs := by
  have kept {text : List Char} (first : ∀ c ∈ text.head?, p c = false) :
      text.dropWhile p = text := by
    cases text with
    | nil => rfl
    | cons c text => simp [first c rfl]
  rw [strip, kept first, kept fun c member => last c (List.head?_reverse ▸ member),
    List.reverse_reverse]

/-- What stripping leaves stands between two runs of the class. -/
theorem exists_eq_strip (p : Char → Bool) (cs : List Char) : ∃ front behind,
    cs = front ++ strip p cs ++ behind ∧ (∀ c ∈ front, p c = true) ∧ ∀ c ∈ behind, p c = true := by
  let inner := (cs.dropWhile p).reverse
  refine ⟨cs.takeWhile p, (inner.takeWhile p).reverse, ?_, ?_, ?_⟩
  · have whole : strip p cs ++ (inner.takeWhile p).reverse = cs.dropWhile p := by
      rw [strip, ← List.reverse_append, List.takeWhile_append_dropWhile, List.reverse_reverse]
    rw [List.append_assoc, whole, List.takeWhile_append_dropWhile]
  · exact fun c member => List.mem_takeWhile_imp member
  · exact fun c member => List.mem_takeWhile_imp (List.mem_reverse.mp member)

theorem head?_strip : ∀ c ∈ (strip p cs).head?, p c = false := by
  intro c first
  have within : strip p cs <+: cs.dropWhile p := List.rdropWhile_prefix p _
  obtain ⟨rest, whole⟩ := within
  have kept := List.head?_dropWhile_not p cs
  rwa [← whole, List.head?_append, first, Option.some_or] at kept

theorem getLast?_strip : ∀ c ∈ (strip p cs).getLast?, p c = false := by
  intro c last
  rw [strip, List.getLast?_reverse] at last
  have kept := List.head?_dropWhile_not p (cs.dropWhile p).reverse
  rwa [last] at kept

theorem strip_eq_self_iff : strip p cs = cs ↔
    (∀ c ∈ cs.head?, p c = false) ∧ ∀ c ∈ cs.getLast?, p c = false := by
  constructor
  · intro same
    rw [← same]
    exact ⟨head?_strip, getLast?_strip⟩
  · exact fun ⟨first, last⟩ => strip_eq_self first last

theorem isEmpty_trim_iff {s : String} : (trim s).isEmpty = true ↔ allBlank s = true := by
  simp [trim, allBlank, strip_eq_nil_iff]

theorem trim_eq_self_iff {s : String} : trim s = s ↔
    (∀ c ∈ s.toList.head?, isBlank c = false) ∧ ∀ c ∈ s.toList.getLast?, isBlank c = false := by
  rw [← strip_eq_self_iff, ← String.toList_inj, trim, String.toList_ofList]

theorem trim_trim (s : String) : trim (trim s) = trim s := by
  rw [trim_eq_self_iff, trim, String.toList_ofList]
  exact ⟨head?_strip, getLast?_strip⟩

end TagTemplate.Text
