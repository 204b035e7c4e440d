import Mathlib.Data.List.TakeWhile
import TagTemplate.Placeholder
import TagTemplate.Proofs.Lexing.Marked

/-!
The placeholders that a syntax admits.

Whatever is found in a text is written as the syntax admits it, and loses nothing of the text.  The
closer of the default syntax is no character of a key and no white space, so that there everything
that is admitted is also found, whatever stands behind it.
-/

namespace TagTemplate

open TagTemplate.Text (Piece Scanned longestRun scan)

theorem isBlank_of_isNameChar {c : Char} (named : isNameChar c = true) :
    Text.isBlank c = false := by
  have ranges : isNameChar c = ((decide (65 ≤ c.val ∧ c.val ≤ 90) ||
      decide (97 ≤ c.val) && decide (c.val ≤ 122) || decide (48 ≤ c.val) && decide (c.val ≤ 57)) ||
      c == '_' || c == '.' || c == '-') := rfl
  rw [ranges] at named
  simp only [Bool.or_eq_true, Bool.and_eq_true, decide_eq_true_eq, beq_iff_eq,
    UInt32.le_iff_toNat_le] at named
  rw [Bool.eq_false_iff]
  intro blank
  simp only [Text.isBlank, Bool.or_eq_true, Bool.and_eq_true, decide_eq_true_eq,
    beq_iff_eq] at blank
  simp only [Char.toNat_val, UInt32.reduceToNat] at named
  rcases named with ((((upper | lower) | digit) | rfl) | rfl) | rfl
  · omega
  · omega
  · omega
  all_goals revert blank; decide

namespace PlaceholderSyntax

variable {s : PlaceholderSyntax} {cs front key behind : List Char} {p : Placeholder}

/-- The characters of a placeholder with white space on both sides of its key. -/
def spell (s : PlaceholderSyntax) (front key behind : List Char) : List Char :=
  s.opener.toList ++ (front ++ (key ++ (behind ++ s.closer.toList)))

/-- The placeholders that may be written. -/
inductive Admits (s : PlaceholderSyntax) : Placeholder → Prop where
  | spelled {front key behind : List Char} (before : ∀ c ∈ front, Text.isBlank c = true)
      (nonempty : key ≠ []) (named : ∀ c ∈ key, isNameChar c = true)
      (after : ∀ c ∈ behind, Text.isBlank c = true) : Admits s ⟨key, s.spell front key behind⟩

theorem Admits.written_ne_nil (admits : s.Admits p) : p.written ≠ [] := by
  obtain ⟨-, nonempty, -, -⟩ := admits
  simp [spell, nonempty]

theorem closerAt?_sound (found : s.closerAt? cs = some behind) :
    (∀ c ∈ behind, Text.isBlank c = true) ∧ behind ++ s.closer.toList <+: cs := by
  obtain ⟨⟨run, last⟩, read, same⟩ := Option.map_eq_some_iff.mp found
  cases same
  obtain ⟨blank, rest, rfl, closes⟩ := Text.longestRun_sound read
  refine ⟨blank, last, ?_⟩
  rw [List.append_assoc, List.isPrefixOf?_eq_some_iff_append_eq.mp closes]

theorem placeholderAt?_sound {covered : Nat} (found : s.placeholderAt? cs = some (p, covered)) :
    s.Admits p ∧ covered = p.written.length ∧ p.written <+: cs := by
  simp only [placeholderAt?, Option.bind_eq_bind, Option.bind_eq_some_iff,
    List.isPrefixOf?_eq_some_iff_append_eq, List.span_eq_takeWhile_dropWhile, Option.pure_def,
    Option.some.injEq, Prod.mk.injEq] at found
  obtain ⟨opened, rfl, ⟨key, behind⟩, read, rfl, rfl⟩ := found
  obtain ⟨named, rest, split, closed⟩ := Text.longestRun_sound read
  split at closed
  · rename_i shorter
    obtain ⟨after, last, rfl⟩ := closerAt?_sound closed
    have nonempty : key ≠ [] := by
      rintro rfl
      rw [split] at shorter
      exact Nat.lt_irrefl _ shorter
    let front := opened.takeWhile Text.isBlank
    have whole : s.opener.toList ++ opened = s.spell front key behind ++ last := by
      have halves : front ++ opened.dropWhile Text.isBlank = opened :=
        List.takeWhile_append_dropWhile
      rw [← halves, split]
      simp [spell]
    have width : s.opener.length + front.length + key.length + behind.length + s.closer.length =
        (s.spell front key behind).length := by
      simp [spell, Nat.add_assoc, String.length_toList]
    dsimp only
    rw [width, whole, List.take_left']
    · exact ⟨.spelled (fun c member => List.mem_takeWhile_imp member) nonempty named after, rfl,
        List.prefix_append _ _⟩
    · rfl
  · contradiction

/-- A scan for placeholders loses nothing of a text. -/
theorem scanned (s : PlaceholderSyntax) (text : List Char) :
    Scanned s.placeholderAt? Placeholder.written text (scan s.placeholderAt? text) :=
  Text.scanned_of_covers (fun found => (placeholderAt?_sound found).2)
    (fun found => (placeholderAt?_sound found).1.written_ne_nil) text

theorem admits_of_mem_scan {text : List Char} (member : .found p ∈ scan s.placeholderAt? text) :
    s.Admits p := by
  obtain ⟨_, _, _, matched⟩ := (s.scanned text).exists_match member
  exact (placeholderAt?_sound matched).1

/-- What the default syntax admits is found, whatever stands behind it. -/
theorem placeholderAt?_of_admits (admits : default.Admits p) (rest : List Char) :
    default.placeholderAt? (p.written ++ rest) = some (p, p.written.length) := by
  obtain @⟨front, key, behind, before, nonempty, named, after⟩ := admits
  have closer : default.closer.toList = ['\x7d'] := rfl
  let keyed := key ++ (behind ++ '\x7d' :: rest)
  have spelled : default.spell front key behind ++ rest =
      default.opener.toList ++ (front ++ keyed) := by
    simp [spell, keyed, closer]
  have blanks : (front ++ keyed).span Text.isBlank = (front, keyed) := by
    obtain ⟨c, more, rfl⟩ := List.exists_cons_of_ne_nil nonempty
    have unblank : Text.isBlank c = false := isBlank_of_isNameChar (named c List.mem_cons_self)
    rw [List.span_eq_takeWhile_dropWhile, List.takeWhile_append_of_pos before,
      List.dropWhile_append_of_pos before]
    simp [keyed, unblank]
  have closed : default.closerAt? (behind ++ '\x7d' :: rest) = some behind := by
    have closes : default.closer.toList.isPrefixOf? ('\x7d' :: rest) = some rest := by
      simp [closer]
    have stops : ∀ c ∈ ('\x7d' :: rest).head?, Text.isBlank c = false := by
      rintro _ ⟨⟩
      decide
    rw [closerAt?, Text.longestRun_of_stop after stops closes, Option.map_some]
  have unnamed : ∀ c ∈ (behind ++ '\x7d' :: rest).head?, isNameChar c = false := by
    intro c first
    rw [Bool.eq_false_iff]
    intro named
    cases behind with
    | nil =>
        cases first
        revert named
        decide
    | cons blank behind =>
        cases first
        have unblank := isBlank_of_isNameChar named
        rw [after c List.mem_cons_self] at unblank
        cases unblank
  have shorter : (behind ++ '\x7d' :: rest).length < keyed.length := by
    have some := List.length_pos_iff.mpr nonempty
    have whole : keyed.length = key.length + (behind ++ '\x7d' :: rest).length :=
      List.length_append
    omega
  have read : longestRun isNameChar (fun rest =>
      if rest.length < keyed.length then default.closerAt? rest else none) keyed =
        some (key, behind) :=
    Text.longestRun_of_stop named unnamed (by rw [if_pos shorter, closed])
  have width : default.opener.length + front.length + key.length + behind.length +
      default.closer.length = (default.spell front key behind).length := by
    simp [spell, Nat.add_assoc, String.length_toList]
  rw [placeholderAt?, spelled, Text.isPrefixOf?_append]
  simp only [Option.bind_eq_bind, Option.bind_some, blanks, read]
  rw [width, ← spelled, List.take_left' rfl]
  rfl

end PlaceholderSyntax

end TagTemplate
