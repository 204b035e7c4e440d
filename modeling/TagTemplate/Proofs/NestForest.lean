import TagTemplate.Proofs.Forest
import TagTemplate.Proofs.Pairing.WellNested

/-!
The forest of well-nested text.

A text whose segments are those of a nest is parsed to the forest that the nest is.
-/

namespace TagTemplate

open TagTemplate.Pairing (Nest)

/-- The forest of a nest whose first segment stands at a position. -/
def Pairing.Nest.forest (start : Nat) : Nest → Forest
  | nil => .nil
  | literal text rest => .text text (rest.forest (start + 1))
  | single tag rest => .single start tag (rest.forest (start + 1))
  | pair opener body closer rest =>
    let closing := start + 1 + body.segments.length
    .pair start opener closing closer (body.forest (start + 1)) (rest.forest (closing + 1))

theorem prefix_drop_cons {α : Type} {a : α} {front whole : List α} {start : Nat}
    (found : a :: front <+: whole.drop start) :
    whole[start]? = some a ∧ front <+: whole.drop (start + 1) := by
  obtain ⟨rest, same⟩ := found
  constructor
  · rw [← List.head?_drop, ← same]
    rfl
  · rw [← List.tail_drop, ← same]
    exact List.prefix_append front rest

theorem prefix_drop_append {α : Type} {front more whole : List α} {start : Nat}
    (found : front ++ more <+: whole.drop start) :
    front <+: whole.drop start ∧ more <+: whole.drop (start + front.length) := by
  obtain ⟨rest, same⟩ := found
  rw [List.append_assoc] at same
  constructor
  · exact ⟨more ++ rest, same⟩
  · rw [← List.drop_drop, ← same, List.drop_left]
    exact List.prefix_append more rest

namespace Document

variable {document : Document} {nest : Nest} {start : Nat}

theorem role?_of_first {role : Option Role} {roles : List (Option Role)}
    (found : role :: roles <+: document.roles.toList.drop start) : document.role? start = role := by
  have here := (prefix_drop_cons found).1
  rw [Array.getElem?_toList] at here
  rw [role?, here]
  rfl

/-- Segments with the roles of a nest consist of its forest. -/
theorem forms_of_nest {stop : Nat} (wellNested : nest.WellNested)
    (segments : nest.segments <+: document.segments.toList.drop start)
    (roles : nest.roles start <+: document.roles.toList.drop start)
    (ends : start + nest.segments.length = stop) :
    document.Forms start stop (nest.forest start) := by
  induction wellNested generalizing start stop with
  | nil =>
      cases ends
      exact .nil start
  | literal text behind ih =>
      obtain ⟨found, segments⟩ := prefix_drop_cons segments
      have rest := (prefix_drop_cons roles).2
      rw [Array.getElem?_toList] at found
      simp only [Nest.segments, List.length_cons] at ends
      exact .text found (ih segments rest (by omega))
  | single named behind ih =>
      obtain ⟨found, segments⟩ := prefix_drop_cons segments
      have rest := (prefix_drop_cons roles).2
      rw [Array.getElem?_toList] at found
      simp only [Nest.segments, List.length_cons] at ends
      exact .single found named (role?_of_first roles) (ih segments rest (by omega))
  | @pair opener closer body rest named unnamed closes alone inside behind inner outer =>
      obtain ⟨found, segments⟩ := prefix_drop_cons segments
      have rolesBehind := (prefix_drop_cons roles).2
      obtain ⟨bodySegments, segments⟩ := prefix_drop_append segments
      obtain ⟨bodyRoles, rolesBehind⟩ := prefix_drop_append rolesBehind
      rw [Nest.length_roles] at rolesBehind
      obtain ⟨closeFound, segments⟩ := prefix_drop_cons segments
      have restRoles := (prefix_drop_cons rolesBehind).2
      rw [Array.getElem?_toList] at found closeFound
      simp only [Nest.segments, List.length_cons, List.length_append] at ends
      exact .pair found named (role?_of_first roles) (inner bodySegments bodyRoles rfl) closeFound
        unnamed (outer segments restRoles (by omega))

theorem parse_of_wellNested {d : Delimiters} {source : String} (wellNested : nest.WellNested)
    (read : d.tokenize source = nest.segments) :
    ∃ document, parse d source = .ok document ∧
      document.Forms 0 document.size (nest.forest 0) := by
  obtain ⟨hidden, ran⟩ := wellNested.runFrom_segments .start
  have accepted := Pairing.pairTags_of_run nest.segments.toArray d ran
  simp only [Pairing.Machine.start, Array.size_empty, Array.empty_append] at accepted
  refine ⟨⟨source, nest.segments.toArray, (nest.roles 0).toArray⟩,
    parse_eq_ok_iff.mpr ⟨rfl, congrArg List.toArray read.symm, accepted⟩, ?_⟩
  exact forms_of_nest wellNested (List.prefix_refl _) (List.prefix_refl _) (Nat.zero_add _)

end Document

end TagTemplate
