import Mathlib.Data.List.Infix
import TagTemplate.Proofs.Lexing.Marked

/-!
Cutting a text where it was joined.

A separator that is written behind an item is found there and not before, unless it begins in the
item.  Items in which it does not begin are found again as the pieces of the joined text.
-/

namespace TagTemplate.Text

variable {word item : List Char} {items : List (List Char)} {mark : Char}

/-- Behind the item the word occurs only where it was put. -/
def Apart (word item : List Char) : Prop :=
  ∀ before behind, item ++ word = before ++ (word ++ behind) → behind = []

theorem apart_of_not_infix (absent : ¬ word <:+: (item ++ word).dropLast) : Apart word item := by
  intro before behind written
  rcases List.eq_nil_or_concat behind with rfl | ⟨shorter, last, rfl⟩
  · rfl
  · refine absurd ⟨before, shorter, ?_⟩ absent
    rw [written, List.concat_eq_append, ← List.append_assoc, ← List.append_assoc,
      List.dropLast_concat]

theorem apart_of_not_mem (absent : mark ∉ item) : Apart [mark] item := by
  apply apart_of_not_infix
  rw [List.dropLast_concat]
  exact fun found => absent ((List.singleton_infix_iff mark item).mp found)

theorem Apart.tail {c : Char} (apart : Apart word (c :: item)) : Apart word item := by
  intro before behind written
  apply apart (c :: before) behind
  rw [List.cons_append, written, List.cons_append]

theorem Apart.not_infix (apart : Apart word item) (nonempty : word ≠ []) : ¬ word <:+: item := by
  rintro ⟨before, behind, rfl⟩
  have last := apart before (behind ++ word) (by simp)
  exact nonempty (List.append_eq_nil_iff.mp last).2

/-- A word that does not hold the mark stands in front of it or behind it. -/
theorem stands_of_append {text before behind : List Char} (nonempty : word ≠ [])
    (absent : mark ∉ word) (split : item ++ mark :: text = before ++ (word ++ behind)) :
    word <:+: item ∨ ∃ later, text = later ++ (word ++ behind) := by
  rcases List.append_eq_append_iff.mp split with ⟨gap, rfl, same⟩ | ⟨inside, rfl, same⟩
  · cases gap with
    | nil =>
        obtain ⟨c, rest, rfl⟩ := List.exists_cons_of_ne_nil nonempty
        obtain ⟨rfl, _⟩ := List.cons_eq_cons.mp same
        exact absurd List.mem_cons_self absent
    | cons c gap => exact .inr ⟨gap, (List.cons_eq_cons.mp same).2⟩
  · rcases List.append_eq_append_iff.mp same with ⟨rest, rfl, _⟩ | ⟨rest, rfl, ends⟩
    · exact .inl ⟨before, rest, by simp⟩
    · cases rest with
      | nil => exact .inl ⟨before, [], by simp⟩
      | cons c rest =>
          obtain ⟨rfl, _⟩ := List.cons_eq_cons.mp ends
          simp at absent

theorem Apart.nil : Apart word [] := by
  intro before behind written
  have lengths := congrArg List.length written
  simp only [List.nil_append, List.length_append] at lengths
  exact List.eq_nil_of_length_eq_zero (by omega)

theorem Apart.cons {c : Char} (apart : Apart word item) (nonempty : word ≠ [])
    (absent : c ∉ word) : Apart word (c :: item) := by
  intro before behind written
  cases before with
  | nil =>
      obtain ⟨first, rest, rfl⟩ := List.exists_cons_of_ne_nil nonempty
      obtain ⟨rfl, _⟩ := List.cons_eq_cons.mp written
      exact absurd List.mem_cons_self absent
  | cons first before => exact apart before behind (List.cons_eq_cons.mp written).2

theorem Apart.append {around : List Char} (apart : Apart word item) (nonempty : word ≠ [])
    (absent : ∀ c ∈ around, c ∉ word) : Apart word (item ++ around) := by
  induction around generalizing item with
  | nil => rwa [List.append_nil]
  | cons c around ih =>
      obtain ⟨here, later⟩ := List.forall_mem_cons.mp absent
      intro before behind written
      rw [List.append_assoc, List.cons_append] at written
      rcases stands_of_append nonempty here written with inside | ⟨front, same⟩
      · exact absurd inside (apart.not_infix nonempty)
      · exact ih .nil later front behind same

theorem Apart.unread {c : Char} (apart : Apart word (c :: item)) (rest : List Char) :
    ¬ word <+: c :: (item ++ (word ++ rest)) := by
  intro found
  have shorter : word <+: c :: item ++ word := by
    apply List.prefix_of_prefix_length_le found
    · exact ⟨rest, by simp⟩
    · simp only [List.length_append, List.length_cons]
      omega
  obtain ⟨behind, written⟩ := shorter
  have last := apart [] behind (by simp [written])
  have lengths := congrArg List.length written
  simp only [last, List.length_append, List.length_cons, List.length_nil] at lengths
  omega

theorem piecesFrom_drop (word : List Char) (skip : Nat) (text : List Char) :
    piecesFrom word skip text = piecesFrom word 0 (text.drop skip) := by
  induction text generalizing skip with
  | nil => cases skip <;> rfl
  | cons c text ih =>
      cases skip with
      | zero => rfl
      | succ skip => exact ih skip

theorem piecesFrom_word (nonempty : word ≠ []) (rest : List Char) :
    piecesFrom word 0 (word ++ rest) = [] :: piecesFrom word 0 rest := by
  obtain ⟨c, more, rfl⟩ := List.exists_cons_of_ne_nil nonempty
  have starts : (c :: more).isPrefixOf (c :: (more ++ rest)) = true :=
    List.isPrefixOf_iff_prefix.mpr ⟨rest, rfl⟩
  rw [List.cons_append, piecesFrom, if_pos starts, piecesFrom_drop]
  simp

theorem piecesFrom_cons_of_unread {c : Char} {text : List Char} (other : ¬ word <+: c :: text) :
    piecesFrom word 0 (c :: text) = consFirst c (piecesFrom word 0 text) := by
  have unread : ¬ word.isPrefixOf (c :: text) = true :=
    fun found => other (List.isPrefixOf_iff_prefix.mp found)
  rw [piecesFrom, if_neg unread]

theorem Apart.piecesFrom_append (apart : Apart word item) (nonempty : word ≠ [])
    (rest : List Char) :
    piecesFrom word 0 (item ++ (word ++ rest)) = item :: piecesFrom word 0 rest := by
  induction item with
  | nil => exact piecesFrom_word nonempty rest
  | cons c item ih =>
      rw [List.cons_append, piecesFrom_cons_of_unread (apart.unread rest), ih apart.tail]
      rfl

theorem piecesFrom_of_not_infix (absent : ¬ word <:+: item) : piecesFrom word 0 item = [item] := by
  induction item with
  | nil => rfl
  | cons c item ih =>
      have other : ¬ word <+: c :: item := fun found => absent found.isInfix
      rw [piecesFrom_cons_of_unread other, ih fun found => absent (List.infix_cons found)]
      rfl

theorem piecesFrom_intercalate (nonempty : word ≠ []) (apart : ∀ item ∈ items, Apart word item)
    (some : items ≠ []) : piecesFrom word 0 (word.intercalate items) = items := by
  induction items with
  | nil => contradiction
  | cons item items ih =>
      obtain ⟨here, behind⟩ := List.forall_mem_cons.mp apart
      cases items with
      | nil => simpa using piecesFrom_of_not_infix (here.not_infix nonempty)
      | cons next items =>
          rw [List.intercalate_cons_cons, List.append_assoc, here.piecesFrom_append nonempty,
            ih behind (by simp)]

/-- The separator ends every item, so that an empty piece comes last. -/
theorem piecesFrom_terminated (nonempty : word ≠ []) (apart : ∀ item ∈ items, Apart word item) :
    piecesFrom word 0 (items.flatMap fun item => item ++ word) = items ++ [[]] := by
  induction items with
  | nil => rfl
  | cons item items ih =>
      obtain ⟨here, behind⟩ := List.forall_mem_cons.mp apart
      rw [List.flatMap_cons, List.append_assoc, here.piecesFrom_append nonempty, ih behind,
        List.cons_append]

section Mark

variable {cs around : List Char}

theorem piecesFrom_mark : piecesFrom [mark] 0 (mark :: cs) = [] :: piecesFrom [mark] 0 cs :=
  piecesFrom_word (List.cons_ne_nil mark []) cs

theorem piecesFrom_of_ne {c : Char} (other : c ≠ mark) :
    piecesFrom [mark] 0 (c :: cs) = consFirst c (piecesFrom [mark] 0 cs) :=
  piecesFrom_cons_of_unread fun found => other (List.cons_prefix_cons.mp found).1.symm

/-- What stands in front of a text belongs to its first piece. -/
theorem exists_pieces_append_left (absent : mark ∉ around) : ∃ first rest,
    piecesFrom [mark] 0 cs = first :: rest ∧
      piecesFrom [mark] 0 (around ++ cs) = (around ++ first) :: rest := by
  induction around with
  | nil =>
      obtain ⟨first, rest, same⟩ := List.exists_cons_of_ne_nil (piecesFrom_ne_nil [mark] 0 cs)
      exact ⟨first, rest, same, same⟩
  | cons c around ih =>
      obtain ⟨other, absent⟩ := List.ne_and_not_mem_of_not_mem_cons absent
      obtain ⟨first, rest, same, longer⟩ := ih absent
      refine ⟨first, rest, same, ?_⟩
      rw [List.cons_append, piecesFrom_of_ne (Ne.symm other), longer]
      rfl

/-- What stands behind a text belongs to its last piece. -/
theorem exists_pieces_append_right (absent : mark ∉ around) : ∃ before last,
    piecesFrom [mark] 0 cs = before ++ [last] ∧
      piecesFrom [mark] 0 (cs ++ around) = before ++ [last ++ around] := by
  induction cs with
  | nil =>
      obtain ⟨first, rest, same, longer⟩ := @exists_pieces_append_left mark [] around absent
      cases same
      exact ⟨[], [], rfl, by simpa using longer⟩
  | cons c cs ih =>
      obtain ⟨before, last, same, longer⟩ := ih
      by_cases marked : c = mark
      · subst marked
        refine ⟨[] :: before, last, ?_, ?_⟩
        · rw [piecesFrom_mark, same, List.cons_append]
        · rw [List.cons_append, piecesFrom_mark, longer, List.cons_append]
      · rw [List.cons_append, piecesFrom_of_ne marked, piecesFrom_of_ne marked, same, longer]
        cases before with
        | nil => exact ⟨[], c :: last, rfl, rfl⟩
        | cons first before => exact ⟨(c :: first) :: before, last, rfl, rfl⟩

/-- No piece holds the mark that a text is cut at. -/
theorem mark_not_mem_piecesFrom : ∀ piece ∈ piecesFrom [mark] 0 cs, mark ∉ piece := by
  induction cs with
  | nil => simp [piecesFrom]
  | cons c cs ih =>
      by_cases marked : c = mark
      · subst marked
        rw [piecesFrom_mark]
        exact List.forall_mem_cons.mpr ⟨List.not_mem_nil, ih⟩
      · obtain ⟨first, rest, same⟩ := List.exists_cons_of_ne_nil (piecesFrom_ne_nil [mark] 0 cs)
        rw [same, List.forall_mem_cons] at ih
        rw [piecesFrom_of_ne marked, same, consFirst, List.forall_mem_cons]
        exact ⟨by simp [Ne.symm marked, ih.1], ih.2⟩

end Mark

section Occurrences

variable {text before after : List Char}

theorem eq_append_of_cutOnce (cut : cutOnce word text = some (before, after)) :
    text = before ++ word ++ after := by
  induction text generalizing before with
  | nil =>
      obtain ⟨rest, starts, same⟩ := Option.map_eq_some_iff.mp cut
      cases same
      exact (List.isPrefixOf?_eq_some_iff_append_eq.mp starts).symm
  | cons c text ih =>
      rw [cutOnce] at cut
      split at cut
      · rename_i rest starts
        cases cut
        exact (List.isPrefixOf?_eq_some_iff_append_eq.mp starts).symm
      · obtain ⟨⟨shorter, _⟩, later, same⟩ := Option.map_eq_some_iff.mp cut
        cases same
        simp [ih later]

/-- Where a word stands in a text, the text is cut there or before. -/
theorem exists_cutOnce_append (word before after : List Char) :
    ∃ first rest, cutOnce word (before ++ (word ++ after)) = some (first, rest) ∧
      first.length ≤ before.length := by
  induction before with
  | nil => exact ⟨[], after, cutOnce_of_prefix, Nat.le_refl _⟩
  | cons c before ih =>
      obtain ⟨first, rest, cut, shorter⟩ := ih
      rw [List.cons_append, cutOnce]
      split
      · exact ⟨[], _, rfl, Nat.zero_le _⟩
      · exact ⟨c :: first, rest, by simp [cut], Nat.succ_le_succ shorter⟩

theorem occurs_iff : occurs word text = true ↔ word <:+: text := by
  constructor
  · intro found
    obtain ⟨⟨before, after⟩, cut⟩ := Option.isSome_iff_exists.mp found
    exact ⟨before, after, (eq_append_of_cutOnce cut).symm⟩
  · rintro ⟨before, after, rfl⟩
    obtain ⟨_, _, cut, _⟩ := exists_cutOnce_append word before after
    rw [occurs, List.append_assoc, cut, Option.isSome_some]

theorem infix_or_of_infix_append (absent : mark ∉ word)
    (found : word <:+: before ++ mark :: after) : word <:+: before ∨ word <:+: after := by
  by_cases empty : word = []
  · exact .inl (empty ▸ List.nil_infix)
  · obtain ⟨front, behind, same⟩ := found
    rw [List.append_assoc] at same
    rcases stands_of_append empty absent same.symm with here | ⟨later, rfl⟩
    · exact .inl here
    · exact .inr (List.infix_append' later word behind)

theorem exists_infix_of_infix_intercalate (nonempty : word ≠ []) (absent : mark ∉ word)
    (found : word <:+: [mark].intercalate items) : ∃ item ∈ items, word <:+: item := by
  induction items with
  | nil => exact absurd (List.infix_nil.mp found) nonempty
  | cons item items ih =>
      cases items with
      | nil => exact ⟨item, by simp, by simpa using found⟩
      | cons next items =>
          rw [List.intercalate_cons_cons, List.append_assoc, List.singleton_append] at found
          rcases infix_or_of_infix_append absent found with here | later
          · exact ⟨item, by simp, here⟩
          · obtain ⟨other, member, inside⟩ := ih later
            exact ⟨other, by simp [member], inside⟩

end Occurrences

variable {separator : String}

theorem split_intercalate {parts : List String} (nonempty : separator ≠ "")
    (apart : ∀ part ∈ parts, Apart separator.toList part.toList) (some : parts ≠ []) :
    split separator (separator.intercalate parts) = parts := by
  apply List.map_injective_iff.mpr fun _ _ same => String.toList_injective same
  rw [toList_split nonempty, String.toList_intercalate]
  exact piecesFrom_intercalate (by simpa using nonempty) (by simpa using apart) (by simpa using some)

theorem split_terminated {parts : List String} (nonempty : separator ≠ "")
    (apart : ∀ part ∈ parts, Apart separator.toList part.toList) :
    split separator (String.join (parts.map fun part => part ++ separator)) = parts ++ [""] := by
  apply List.map_injective_iff.mpr fun _ _ same => String.toList_injective same
  have pieces := piecesFrom_terminated (by simpa using nonempty) (List.forall_mem_map.mpr apart)
  rw [toList_split nonempty, String.toList_join]
  simpa [List.flatMap_map] using pieces

theorem split_intercalate_singleton {parts : List String}
    (absent : ∀ part ∈ parts, mark ∉ part.toList) (some : parts ≠ []) :
    split (.singleton mark) ((String.singleton mark).intercalate parts) = parts := by
  apply split_intercalate (by simp) _ some
  intro part member
  rw [String.toList_singleton]
  exact apart_of_not_mem (absent part member)

theorem intercalate_split (nonempty : separator ≠ "") (text : String) :
    separator.intercalate (split separator text) = text := by
  apply String.toList_injective
  rw [← replace, toList_replace nonempty, render_occurrence (by simpa using nonempty)]

end TagTemplate.Text
