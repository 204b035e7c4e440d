import Mathlib.Data.List.Infix
import TagTemplate.Proofs.Lexing.Scanned
import TagTemplate.Text.Cut

/-!
Words that begin with a mark.

A word that holds its mark at the front and nowhere else overlaps no other such word.  Where
everything that a scan finds is written with the mark in front, the word occurs only where it
is written, or where the characters in between spell it.
-/

namespace TagTemplate.Text

/-- The mark stands in front of the word and nowhere else in it. -/
structure Marked (mark : Char) (word : List Char) : Prop where
  first : word.head? = some mark
  absent : mark ∉ word.tail

variable {α β : Type} {mark : Char} {word text behind before : List Char} {matcher : Matcher α}
  {write : α → List Char} {pieces : List (Piece α)}

theorem Marked.exists_eq_cons (marked : Marked mark word) :
    ∃ rest, word = mark :: rest ∧ mark ∉ rest := by
  obtain ⟨first, absent⟩ := marked
  cases word with
  | nil => cases first
  | cons c rest =>
      cases first
      exact ⟨rest, rfl, absent⟩

namespace Piece

def map (f : α → β) : Piece α → Piece β
  | .char c => .char c
  | .found a => .found (f a)

theorem render_map (f : α → β) (write : β → List Char) (pieces : List (Piece α)) :
    render write (pieces.map (map f)) = render (fun a => write (f a)) pieces := by
  induction pieces with
  | nil => rfl
  | cons piece pieces ih => cases piece <;> simp [map, ih]

theorem mem_map_found {f : α → β} {b : β} (member : .found b ∈ pieces.map (map f)) :
    ∃ a, .found a ∈ pieces ∧ f a = b := by
  obtain ⟨piece, here, same⟩ := List.mem_map.mp member
  cases piece with
  | char c => cases same
  | found a =>
      cases same
      exact ⟨a, here, rfl⟩

theorem render_congr {other : α → List Char} (same : ∀ a, .found a ∈ pieces → write a = other a) :
    render write pieces = render other pieces := by
  apply List.flatMap_congr
  intro piece member
  cases piece with
  | char c => rfl
  | found a => exact same a member

theorem infix_render (spelled : word.map .char <:+: pieces) (write : α → List Char) :
    word <:+: render write pieces := by
  obtain ⟨before, after, rfl⟩ := spelled
  simp only [render_append, render_chars]
  apply List.infix_append

theorem write_infix_render {a : α} (member : .found a ∈ pieces) :
    write a <:+: render write pieces := by
  obtain ⟨before, after, rfl⟩ := List.append_of_mem member
  simp only [render_append, render_found, ← List.append_assoc]
  apply List.infix_append

/-- What does not hold the mark is spelled by characters, as everything else begins with the
mark. -/
theorem chars_of_prefix (starts : ∀ a, (write a).head? = some mark)
    (ends : ∀ c ∈ behind.head?, c = mark) (absent : mark ∉ word)
    (found : word <+: render write pieces ++ behind) : word.map .char <+: pieces := by
  -- the word is followed through the pieces; it cannot enter a match or the text behind
  induction word generalizing pieces with
  | nil => apply List.nil_prefix
  | cons c word ih =>
      simp only [List.mem_cons, not_or] at absent
      cases pieces with
      | nil =>
          obtain ⟨rest, same⟩ := found
          have first : c ∈ behind.head? := by simp [← show _ = behind from same]
          exact absurd (ends c first).symm absent.1
      | cons piece pieces =>
          cases piece with
          | char other =>
              rw [render_char, List.cons_append, List.cons_prefix_cons] at found
              obtain ⟨rfl, found⟩ := found
              exact List.cons_prefix_cons.mpr ⟨rfl, ih absent.2 found⟩
          | found a =>
              obtain ⟨more, written⟩ := List.head?_eq_some_iff.mp (starts a)
              rw [render_found, written, List.cons_append, List.cons_append,
                List.cons_prefix_cons] at found
              exact absurd found.1.symm absent.1

theorem chars_of_marked_prefix {c : Char} (marked : Marked mark word)
    (starts : ∀ a, (write a).head? = some mark) (ends : ∀ c ∈ behind.head?, c = mark)
    (found : word <+: c :: (render write pieces ++ behind)) :
    word.map .char <+: .char c :: pieces := by
  obtain ⟨rest, rfl, absent⟩ := marked.exists_eq_cons
  obtain ⟨rfl, tail⟩ := List.cons_prefix_cons.mp found
  exact List.cons_prefix_cons.mpr ⟨rfl, chars_of_prefix starts ends absent tail⟩

end Piece

/-- Pieces are found again in what they are written as, if no match can begin between them. -/
theorem scanned_of_marked (marked : Marked mark word)
    (begins : ∀ {text a covered}, matcher text = some (a, covered) → word <+: text)
    (starts : ∀ a, (write a).head? = some mark)
    (reads : ∀ a, .found a ∈ pieces → ∀ rest,
      matcher (write a ++ rest) = some (a, (write a).length))
    (unspelled : ¬ word.map .char <:+: pieces) :
    Scanned matcher write (Piece.render write pieces) pieces := by
  induction pieces with
  | nil => exact .nil
  | cons piece pieces ih =>
      have behind := ih (fun a member => reads a (List.mem_cons_of_mem _ member))
        (fun spelled => unspelled (List.infix_cons spelled))
      cases piece with
      | char c =>
          cases matched : matcher (c :: Piece.render write pieces) with
          | none => exact .char matched behind
          | some result =>
              have found : word <+: c :: (Piece.render write pieces ++ []) := by
                rw [List.append_nil]
                exact begins matched
              have spelled := Piece.chars_of_marked_prefix marked starts (by simp) found
              exact absurd spelled.isInfix unspelled
      | found a =>
          have nonempty : write a ≠ [] := by
            intro empty
            simpa [empty] using starts a
          exact .found nonempty (reads a List.mem_cons_self _) behind

section Cut

theorem isPrefixOf?_append (word text : List Char) : word.isPrefixOf? (word ++ text) = some text :=
  List.isPrefixOf?_eq_some_iff_append_eq.mpr rfl

theorem isPrefixOf?_eq_none (other : ¬ word <+: text) : word.isPrefixOf? text = none := by
  cases found : word.isPrefixOf? text with
  | none => rfl
  | some rest => exact absurd ⟨rest, List.isPrefixOf?_eq_some_iff_append_eq.mp found⟩ other

/-- No cut is made where the mark does not stand. -/
theorem cutOnce_append (marked : Marked mark word) (absent : mark ∉ before) :
    cutOnce word (before ++ text) =
      (cutOnce word text).map fun cut => (before ++ cut.1, cut.2) := by
  obtain ⟨rest, rfl, _⟩ := marked.exists_eq_cons
  induction before with
  | nil => simp
  | cons c before ih =>
      simp only [List.mem_cons, not_or] at absent
      have other : ¬ mark :: rest <+: c :: (before ++ text) :=
        fun found => absent.1 (List.cons_prefix_cons.mp found).1
      rw [List.cons_append, cutOnce, isPrefixOf?_eq_none other]
      simp [ih absent.2, Function.comp_def]

theorem cutOnce_of_prefix : cutOnce word (word ++ text) = some ([], text) := by
  have here := isPrefixOf?_append word text
  cases whole : word ++ text with
  | nil => rw [cutOnce, ← whole, here, Option.map_some]
  | cons c behind => rw [cutOnce, ← whole, here]

theorem splitOnce_append {before : String} (absent : mark ∉ before.toList) (after : String) :
    splitOnce (.singleton mark) (before ++ .singleton mark ++ after) = some (before, after) := by
  have marked : Marked mark [mark] := ⟨rfl, by simp⟩
  have cut : cutOnce [mark] (mark :: after.toList) = some ([], after.toList) :=
    cutOnce_of_prefix
  simp [splitOnce, cutOnce_append marked absent, cut]

/-- The first cut is made behind the pieces, if none can be made in them. -/
theorem cutOnce_render (marked : Marked mark word) (writes : ∀ a, Marked mark (write a))
    (apart : ∀ a, ¬ word <+: write a ∧ ¬ write a <+: word)
    (unspelled : ¬ word.map .char <:+: pieces) (text : List Char) :
    cutOnce word (Piece.render write pieces ++ (word ++ text)) =
      some (Piece.render write pieces, text) := by
  have starts : ∀ a, (write a).head? = some mark := fun a => (writes a).first
  have ends : ∀ c ∈ (word ++ text).head?, c = mark := by
    obtain ⟨rest, rfl, _⟩ := marked.exists_eq_cons
    simp
  induction pieces with
  | nil => exact cutOnce_of_prefix
  | cons piece pieces ih =>
      have behind := ih fun spelled => unspelled (List.infix_cons spelled)
      cases piece with
      | char c =>
          have other : ¬ word <+: c :: (Piece.render write pieces ++ (word ++ text)) := fun found =>
            unspelled (Piece.chars_of_marked_prefix marked starts ends found).isInfix
          rw [Piece.render_char, List.cons_append, cutOnce, isPrefixOf?_eq_none other]
          simp [behind]
      | found a =>
          have other : ¬ word <+: write a ++ (Piece.render write pieces ++ (word ++ text)) := by
            intro found
            rcases List.prefix_or_prefix_of_prefix found (List.prefix_append _ _) with longer | shorter
            · exact (apart a).1 longer
            · exact (apart a).2 shorter
          -- the word begins neither where the match does nor inside it, where no mark is left
          obtain ⟨rest, written, absent⟩ := (writes a).exists_eq_cons
          rw [Piece.render_found, List.append_assoc]
          rw [written, List.cons_append] at other ⊢
          rw [cutOnce, isPrefixOf?_eq_none other]
          simp [cutOnce_append marked absent, behind]

end Cut

section Replace

/-- A scan for a word. -/
def occurrence (word : List Char) : Matcher Unit := fun text =>
  if word.isPrefixOf text then some ((), word.length) else none

theorem occurrence_eq_some_iff {found : Unit} {covered : Nat} :
    occurrence word text = some (found, covered) ↔ word <+: text ∧ word.length = covered := by
  simp [occurrence]

theorem reads_occurrence (nonempty : word ≠ []) : Reads (occurrence word) fun _ => word where
  covers := by
    intro text found covered matched
    obtain ⟨starts, rfl⟩ := occurrence_eq_some_iff.mp matched
    exact ⟨rfl, starts⟩
  nonempty := fun _ => nonempty
  extend := by
    intro text more matched
    obtain ⟨⟨found, covered⟩, matched⟩ := Option.isSome_iff_exists.mp matched
    obtain ⟨starts, same⟩ := occurrence_eq_some_iff.mp matched
    exact Option.isSome_iff_exists.mpr ⟨(found, covered),
      occurrence_eq_some_iff.mpr ⟨starts.trans (List.prefix_append _ _), same⟩⟩
  restrict := by
    intro found text more covered matched
    have same := (occurrence_eq_some_iff.mp matched).2
    exact occurrence_eq_some_iff.mpr ⟨List.prefix_append _ _, same⟩

theorem intercalate_nil_cons {replacement : List Char} {pieces : List (List Char)}
    (nonempty : pieces ≠ []) :
    replacement.intercalate ([] :: pieces) = replacement ++ replacement.intercalate pieces := by
  cases pieces with
  | nil => contradiction
  | cons piece pieces => simp [List.intercalate_cons_cons]

theorem intercalate_consFirst (replacement : List Char) (c : Char) (pieces : List (List Char)) :
    replacement.intercalate (consFirst c pieces) = c :: replacement.intercalate pieces := by
  rcases pieces with _ | ⟨piece, _ | ⟨next, pieces⟩⟩ <;>
    simp [consFirst, List.intercalate, List.intersperse]

theorem piecesFrom_ne_nil (word : List Char) (skip : Nat) (text : List Char) :
    piecesFrom word skip text ≠ [] := by
  induction text generalizing skip with
  | nil => simp [piecesFrom]
  | cons c text ih =>
      cases skip with
      | succ skip => exact ih skip
      | zero =>
          rw [piecesFrom]
          split
          · simp
          · cases piecesFrom word 0 text <;> simp [consFirst]

/-- Cut pieces are joined as the scan for the word is written. -/
theorem intercalate_piecesFrom (word replacement : List Char) (skip : Nat) (text : List Char) :
    replacement.intercalate (piecesFrom word skip text) =
      Piece.render (fun _ => replacement) (scanFrom (occurrence word) skip text) := by
  induction text generalizing skip with
  | nil => simp [piecesFrom, scanFrom, List.intercalate]
  | cons c text ih =>
      cases skip with
      | succ skip => exact ih skip
      | zero =>
          rw [piecesFrom, scanFrom, occurrence]
          split
          · rw [intercalate_nil_cons (piecesFrom_ne_nil _ _ _), ih]
            rfl
          · rw [intercalate_consFirst, ih]
            rfl

theorem toList_split {separator : String} (nonempty : separator ≠ "") (text : String) :
    (split separator text).map String.toList = piecesFrom separator.toList 0 text.toList := by
  have some : separator.toList.isEmpty = false := by simpa using nonempty
  simp [split, pieces, some, Function.comp_def]

theorem split_ne_nil {separator : String} (nonempty : separator ≠ "") (text : String) :
    split separator text ≠ [] := by
  intro none
  have cut := toList_split nonempty text
  rw [none] at cut
  exact piecesFrom_ne_nil _ _ _ cut.symm

theorem toList_replace {pattern replacement : String} (nonempty : pattern ≠ "") (text : String) :
    (replace pattern replacement text).toList =
      Piece.render (fun _ => replacement.toList) (scan (occurrence pattern.toList) text.toList) := by
  rw [replace, String.toList_intercalate, toList_split nonempty, intercalate_piecesFrom, scan]

theorem render_occurrence (nonempty : word ≠ []) (text : List Char) :
    Piece.render (fun _ => word) (scan (occurrence word) text) = text :=
  ((reads_occurrence nonempty).scanned text).render_eq

/-- Replacing a word by a marked one is undone, if the text did not hold the marked one. -/
theorem replace_replace {pattern replacement text : String} (nonempty : pattern ≠ "")
    (marked : Marked mark replacement.toList)
    (absent : ¬ replacement.toList <:+: text.toList) :
    replace replacement pattern (replace pattern replacement text) = text := by
  have nonempty' : replacement ≠ "" := by
    intro empty
    simpa [empty] using marked.first
  have whole := render_occurrence (by simpa using nonempty : pattern.toList ≠ []) text.toList
  have scanned : Scanned (occurrence replacement.toList) (fun _ => replacement.toList)
      (Piece.render (fun _ => replacement.toList) (scan (occurrence pattern.toList) text.toList))
      (scan (occurrence pattern.toList) text.toList) := by
    apply scanned_of_marked marked
    · intro text found covered matched
      exact (occurrence_eq_some_iff.mp matched).1
    · exact fun _ => marked.first
    · intro found member rest
      exact occurrence_eq_some_iff.mpr ⟨List.prefix_append _ _, rfl⟩
    · intro spelled
      rw [← whole] at absent
      exact absent (Piece.infix_render spelled _)
  apply String.toList_injective
  rw [toList_replace nonempty', toList_replace nonempty, scanned.scan_eq, whole]

end Replace

end TagTemplate.Text
