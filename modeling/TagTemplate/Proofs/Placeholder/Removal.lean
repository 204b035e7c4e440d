import TagTemplate.Proofs.Placeholder.Filling

/-!
What is left when placeholders are removed.

A text is scanned once.  What stands on both sides of a placeholder is joined when it is removed,
and may then be a placeholder itself; this is the only way in which one is left.
-/

namespace TagTemplate

open TagTemplate.Text (Piece scan)

namespace Text.Piece

variable {α : Type} {write : α → List Char} {pieces : List (Piece α)} {left right : List Char}

/-- Where the characters between the matches are divided, the pieces are. -/
theorem exists_append_of_render (split : render (fun _ => []) pieces = left ++ right) :
    ∃ before behind, pieces = before ++ behind ∧ render (fun _ => []) before = left ∧
      render (fun _ => []) behind = right := by
  induction pieces generalizing left with
  | nil =>
      obtain ⟨rfl, rfl⟩ := List.append_eq_nil_iff.mp split.symm
      exact ⟨[], [], rfl, rfl, rfl⟩
  | cons piece pieces ih =>
      cases piece with
      | found a =>
          obtain ⟨before, behind, rfl, rfl, rfl⟩ := ih split
          exact ⟨.found a :: before, behind, rfl, rfl, rfl⟩
      | char c =>
          cases left with
          | nil => exact ⟨[], .char c :: pieces, rfl, rfl, split⟩
          | cons first left =>
              obtain ⟨rfl, rest⟩ := List.cons_eq_cons.mp split
              obtain ⟨before, behind, rfl, rfl, rfl⟩ := ih rest
              exact ⟨.char c :: before, behind, rfl, rfl, rfl⟩

theorem length_render_nil_le (write : α → List Char) (pieces : List (Piece α)) :
    (render (fun _ => []) pieces).length ≤ (render write pieces).length := by
  induction pieces with
  | nil => exact Nat.le_refl _
  | cons piece pieces ih =>
      cases piece <;> simp only [render_char, render_found, List.length_append, List.length_cons,
        List.length_nil] <;> omega

/-- Leaving out a match makes the text shorter. -/
theorem length_render_nil_lt {a : α} (member : .found a ∈ pieces) (nonempty : write a ≠ []) :
    (render (fun _ => []) pieces).length < (render write pieces).length := by
  obtain ⟨before, behind, rfl⟩ := List.append_of_mem member
  have here := List.length_pos_iff.mpr nonempty
  have first := length_render_nil_le write before
  have last := length_render_nil_le write behind
  simp only [render_append, render_found, List.length_append, List.length_nil]
  omega

end Text.Piece

namespace PlaceholderSyntax

variable {s : PlaceholderSyntax} {text : String} {p : Placeholder}

theorem keys_eq_nil_iff_scan :
    s.keys text = [] ↔ ∀ p, .found p ∉ scan s.placeholderAt? text.toList := by
  rw [List.eq_nil_iff_forall_not_mem]
  constructor
  · exact fun none p member => none _ (mem_keys_iff.mpr ⟨p, member, rfl⟩)
  · rintro none key listed
    obtain ⟨p, member, -⟩ := mem_keys_iff.mp listed
    exact none p member

theorem remove_eq_self_iff : s.remove text = text ↔ s.keys text = [] := by
  rw [keys_eq_nil_iff_scan, ← String.toList_inj, toList_remove]
  constructor
  · intro same p member
    have shorter := Text.Piece.length_render_nil_lt member
      (admits_of_mem_scan member).written_ne_nil
    rw [render_written, same] at shorter
    exact Nat.lt_irrefl _ shorter
  · intro none
    refine .trans (Text.Piece.render_congr fun p member => ?_) (render_written s text)
    exact absurd member (none p)

/-- Placeholders stand among the characters of one that is none because of them. -/
def Encloses (s : PlaceholderSyntax) (pieces : List (Piece Placeholder)) : Prop :=
  ∃ before inner behind, pieces = before ++ (inner ++ behind) ∧ (∃ p, .found p ∈ inner) ∧
    ∃ p, s.Admits p ∧ Piece.render (fun _ => []) inner = p.written

/-- A text has no placeholder exactly if none is written anywhere in it. -/
theorem keys_default_eq_nil_iff :
    default.keys text = [] ↔ ∀ p, default.Admits p → ¬ p.written <:+: text.toList := by
  have scanned := default.scanned text.toList
  rw [keys_eq_nil_iff_scan]
  constructor
  · rintro none p admits ⟨left, right, split⟩
    obtain ⟨c, more, written⟩ := List.exists_cons_of_ne_nil admits.written_ne_nil
    have found := placeholderAt?_of_admits admits right
    rw [List.append_assoc, written, List.cons_append] at split
    rw [written, List.cons_append, scanned.silent_of_chars none split.symm] at found
    cases found
  · intro unwritten p member
    obtain ⟨left, right, split, -⟩ := scanned.exists_match member
    refine unwritten p (admits_of_mem_scan member) ⟨left, right, ?_⟩
    rw [split, List.append_assoc]

/-- Characters of a text that are a placeholder only without what is found among them. -/
theorem exists_found_of_written {before inner behind : List (Piece Placeholder)}
    (split : scan default.placeholderAt? text.toList = before ++ (inner ++ behind))
    (admits : default.Admits p) (written : Piece.render (fun _ => []) inner = p.written) :
    ∃ p, .found p ∈ inner := by
  have scanned := default.scanned text.toList
  rw [split] at scanned
  obtain ⟨rest, later⟩ := scanned.right_of_append
  by_contra none
  -- with nothing found among them the characters stand in the text as they are
  have chars : Piece.render Placeholder.written inner = p.written := by
    rw [← written]
    exact Text.Piece.render_congr fun p member => absurd ⟨p, member⟩ none
  have whole : p.written ++ Piece.render Placeholder.written behind = rest := by
    rw [← chars, ← Text.Piece.render_append, later.render_eq]
  have found := placeholderAt?_of_admits admits (Piece.render Placeholder.written behind)
  have pieces := later.scan_eq
  obtain ⟨c, more, spelled⟩ := List.exists_cons_of_ne_nil admits.written_ne_nil
  rw [spelled, List.cons_append] at found whole
  rw [← whole, Text.scan_of_match found] at pieces
  cases inner with
  | nil => exact admits.written_ne_nil written.symm
  | cons piece inner =>
      obtain ⟨rfl, -⟩ := List.cons_eq_cons.mp pieces
      exact none ⟨p, List.mem_cons_self⟩

theorem encloses_iff : default.Encloses (scan default.placeholderAt? text.toList) ↔
    ∃ p, default.Admits p ∧ p.written <:+: (default.remove text).toList := by
  rw [toList_remove]
  constructor
  · rintro ⟨before, inner, behind, split, -, p, admits, written⟩
    refine ⟨p, admits, Piece.render (fun _ => []) before, Piece.render (fun _ => []) behind, ?_⟩
    rw [split, Text.Piece.render_append, Text.Piece.render_append, written, List.append_assoc]
  · rintro ⟨p, admits, left, right, same⟩
    rw [List.append_assoc] at same
    obtain ⟨before, rest, split, -, later⟩ := Text.Piece.exists_append_of_render same.symm
    obtain ⟨inner, behind, rfl, written, -⟩ := Text.Piece.exists_append_of_render later
    exact ⟨before, inner, behind, split, exists_found_of_written split admits written, p, admits,
      written⟩

/-- Removing the placeholders of a text leaves none, and removing them again changes nothing,
exactly if no placeholders of the text stand among the characters of another one. -/
theorem remove_leaves_none_iff (text : String) :
    (default.keys (default.remove text) = [] ↔
      ¬ default.Encloses (scan default.placeholderAt? text.toList)) ∧
    (default.remove (default.remove text) = default.remove text ↔
      ¬ default.Encloses (scan default.placeholderAt? text.toList)) := by
  have none : default.keys (default.remove text) = [] ↔
      ¬ default.Encloses (scan default.placeholderAt? text.toList) := by
    rw [keys_default_eq_nil_iff, encloses_iff]
    simp only [not_exists, not_and]
  exact ⟨none, remove_eq_self_iff.trans none⟩

/-- The characters around the placeholder are one themselves, once it is removed. -/
theorem remove_leaves_enclosing :
    default.remove "\x7b:=\x7b:=a\x7db\x7d" = "\x7b:=b\x7d" ∧
      default.keys (default.remove "\x7b:=\x7b:=a\x7db\x7d") = ["b"] ∧
      default.remove (default.remove "\x7b:=\x7b:=a\x7db\x7d") ≠
        default.remove "\x7b:=\x7b:=a\x7db\x7d" := by
  decide

end PlaceholderSyntax

end TagTemplate
