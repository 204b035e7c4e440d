import TagTemplate.Proofs.Cutting
import TagTemplate.Proofs.Variables.Lookup

/-!
White space around paths.

White space at the ends of a path lies at the ends of its first and its last component, where it
does not count.
-/

namespace TagTemplate

namespace Text

variable {p : Char → Bool} {mark : Char}

theorem map_strip_piecesFrom (unmarked : p mark = false) (cs : List Char) :
    (piecesFrom [mark] 0 (strip p cs)).map (strip p) = (piecesFrom [mark] 0 cs).map (strip p) := by
  obtain ⟨front, behind, whole, blankFront, blankBehind⟩ := exists_eq_strip p cs
  have absent {around : List Char} (blank : ∀ c ∈ around, p c = true) : mark ∉ around := by
    intro member
    simpa [unmarked] using blank mark member
  obtain ⟨before, last, inner, longer⟩ :=
    @exists_pieces_append_right mark (strip p cs) behind (absent blankBehind)
  obtain ⟨first, rest, tail, all⟩ :=
    @exists_pieces_append_left mark (strip p cs ++ behind) front (absent blankFront)
  rw [← List.append_assoc, ← whole] at all
  calc (piecesFrom [mark] 0 (strip p cs)).map (strip p)
      = (piecesFrom [mark] 0 (strip p cs ++ behind)).map (strip p) := by
        rw [inner, longer, List.map_append, List.map_append, List.map_singleton,
          List.map_singleton, strip_append_right blankBehind]
    _ = (piecesFrom [mark] 0 cs).map (strip p) := by
        rw [tail, all, List.map_cons, List.map_cons, strip_append_left blankFront]

end Text

namespace Variables

/-- The names between the dots of a path, without the white space around them. -/
def names (path : String) : List String :=
  (Text.split "." path).map Text.trim

variable {path : String}

theorem names_trim : names (Text.trim path) = names path := by
  have stripped := @Text.map_strip_piecesFrom Text.isBlank '.' (by decide) path.toList
  have lifted := congrArg (List.map String.ofList) stripped
  simpa [names, Text.split, Text.pieces, Text.trim, Function.comp_def] using lifted

theorem components_trim (named : ∀ part ∈ Text.split "." path, Text.allBlank part = false) :
    components (Text.trim path) = .ok (names path) := by
  have full : ¬ (names path).any String.isEmpty = true := by
    rw [names, any_isEmpty_trim_iff]
    rintro ⟨part, member, blank⟩
    simp [named part member] at blank
  rw [components, ← names, names_trim, if_neg full]

theorem allBlank_eq_false
    (named : ∀ part ∈ Text.split "." path, Text.allBlank part = false) :
    Text.allBlank path = false := by
  rw [← Bool.not_eq_true]
  intro blank
  have absent : '.' ∉ path.toList := by
    intro member
    have dot := List.all_eq_true.mp blank '.' member
    simp [Text.isBlank] at dot
  obtain ⟨first, rest, same, whole⟩ := @Text.exists_pieces_append_left '.' [] path.toList absent
  cases same
  rw [List.append_nil] at whole
  have alone : Text.split "." path = [path] := by
    simp [Text.split, Text.pieces, whole]
  have unblank := named path (by simp [alone])
  simp [blank] at unblank

end Variables

end TagTemplate
