import Mathlib.Data.List.Nodup
import TagTemplate.Proofs.Placeholder.Admitted

/-!
What filling a text depends on.

Filling, removing and listing placeholders are three uses of one scan: it is written back with
values, written back with nothing, and read for its keys.  What a value has under other keys is
never looked at.
-/

namespace TagTemplate.PlaceholderSyntax

open TagTemplate.Json (Value)
open TagTemplate.Text (Piece scan)

variable {s : PlaceholderSyntax} {text key : String} {values others : Value}

/-- What a value has under a key. -/
def textUnder? (values : Value) (key : String) : Option String :=
  Keyed.find? key values.flatten

/-- What is written for a placeholder. -/
def filling (values : Value) (p : Placeholder) : List Char :=
  ((textUnder? values (String.ofList p.key)).map String.toList).getD p.written

theorem toList_fill (s : PlaceholderSyntax) (text : String) (values : Value) :
    (s.fill text values).toList =
      Piece.render (filling values) (scan s.placeholderAt? text.toList) := by
  rw [fill, String.toList_ofList]
  apply Text.Piece.render_congr
  intro p _
  rw [filling, textUnder?]
  cases Keyed.find? (String.ofList p.key) values.flatten <;> rfl

theorem toList_remove (s : PlaceholderSyntax) (text : String) :
    (s.remove text).toList = Piece.render (fun _ => []) (scan s.placeholderAt? text.toList) := by
  rw [remove, String.toList_ofList]

theorem render_written (s : PlaceholderSyntax) (text : String) :
    Piece.render Placeholder.written (scan s.placeholderAt? text.toList) = text.toList :=
  (s.scanned text.toList).render_eq

section Keys

/-- Puts a key in front of those that are known, unless it is one of them. -/
def note (known : List String) (key : String) : List String :=
  if known.contains key then known else key :: known

variable {known found : List String}

theorem mem_note {other : String} : other ∈ note known key ↔ other = key ∨ other ∈ known := by
  rw [note]
  split
  · rename_i old
    constructor
    · exact .inr
    · rintro (rfl | member)
      · simpa using old
      · exact member
  · exact List.mem_cons

theorem nodup_note (distinct : known.Nodup) : (note known key).Nodup := by
  rw [note]
  split
  · exact distinct
  · rename_i new
    exact List.nodup_cons.mpr ⟨by simpa using new, distinct⟩

theorem mem_foldl_note {other : String} :
    other ∈ found.foldl note known ↔ other ∈ found ∨ other ∈ known := by
  induction found generalizing known with
  | nil => simp
  | cons first found ih => rw [List.foldl_cons, ih, mem_note, List.mem_cons, or_left_comm, or_assoc]

theorem nodup_foldl_note (distinct : known.Nodup) : (found.foldl note known).Nodup := by
  induction found generalizing known with
  | nil => exact distinct
  | cons first found ih => exact ih (nodup_note distinct)

theorem keys_eq (s : PlaceholderSyntax) (text : String) :
    s.keys text = (((Text.matchesOf s.placeholderAt? text.toList).map fun p =>
      String.ofList p.key).foldl note []).reverse :=
  rfl

theorem mem_keys_iff : key ∈ s.keys text ↔
    ∃ p, .found p ∈ scan s.placeholderAt? text.toList ∧ String.ofList p.key = key := by
  rw [keys_eq, List.mem_reverse, mem_foldl_note]
  simp [Text.mem_matchesOf_iff]

theorem nodup_keys (s : PlaceholderSyntax) (text : String) : (s.keys text).Nodup := by
  rw [keys_eq, List.nodup_reverse]
  exact nodup_foldl_note List.nodup_nil

end Keys

/-- Two ways of writing that agree on the listed keys write the same text. -/
theorem render_congr_keys {write other : Placeholder → List Char}
    (same : ∀ p, String.ofList p.key ∈ s.keys text → write p = other p) :
    Piece.render write (scan s.placeholderAt? text.toList) =
      Piece.render other (scan s.placeholderAt? text.toList) :=
  Text.Piece.render_congr fun p member => same p (mem_keys_iff.mpr ⟨p, member, rfl⟩)

/-- Filling depends on what the values have under the listed keys.  Where they have nothing, the
text stays; where they have the empty text, the placeholders are removed.  No key is listed
twice. -/
theorem fill_by_keys (s : PlaceholderSyntax) (text : String) :
    (∀ values others, (∀ key ∈ s.keys text, textUnder? values key = textUnder? others key) →
      s.fill text values = s.fill text others) ∧
    (∀ values, (∀ key ∈ s.keys text, textUnder? values key = none) → s.fill text values = text) ∧
    (∀ values, (∀ key ∈ s.keys text, textUnder? values key = some "") →
      s.fill text values = s.remove text) ∧
    (s.keys text).Nodup := by
  refine ⟨?_, ?_, ?_, nodup_keys s text⟩
  · intro values others same
    apply String.toList_injective
    rw [toList_fill, toList_fill]
    apply render_congr_keys
    intro p listed
    rw [filling, filling, same _ listed]
  · intro values missing
    apply String.toList_injective
    refine (toList_fill s text values).trans (.trans (render_congr_keys ?_) (render_written s text))
    intro p listed
    rw [filling, missing _ listed]
    rfl
  · intro values empty
    apply String.toList_injective
    rw [toList_fill, toList_remove]
    apply render_congr_keys
    intro p listed
    rw [filling, empty _ listed]
    rfl

/-- The two values have the same text under the only key, and other leaves beside it; the text
has half a placeholder around the one that is found. -/
theorem fill_by_keys_halves :
    let text := "\x7b:=\x7b:= a.b \x7d\x7d\x7b:=a.b\x7d"
    let nested : Value := .object [("a", .object [("b", .string "x"), ("c", .null)])]
    let dotted : Value := .object [("a.b", .string "x"), ("d", .bool true)]
    (∀ key ∈ default.keys text, textUnder? nested key = textUnder? dotted key) ∧
      default.fill text nested = default.fill text dotted ∧
      (∀ key ∈ default.keys text, textUnder? (.object [("a", .string "x")]) key = none) ∧
      default.fill text (.object [("a", .string "x")]) = text ∧
      (∀ key ∈ default.keys text, textUnder? (.object [("a.b", .string "")]) key = some "") ∧
      default.fill text (.object [("a.b", .string "")]) = default.remove text := by
  intro text nested dotted
  have same : ∀ key ∈ default.keys text, textUnder? nested key = textUnder? dotted key := by decide
  have missing : ∀ key ∈ default.keys text,
      textUnder? (.object [("a", .string "x")]) key = none := by decide
  have empty : ∀ key ∈ default.keys text,
      textUnder? (.object [("a.b", .string "")]) key = some "" := by decide
  obtain ⟨agree, kept, removed, -⟩ := fill_by_keys default text
  exact ⟨same, agree nested dotted same, missing, kept _ missing, empty, removed _ empty⟩

end TagTemplate.PlaceholderSyntax
