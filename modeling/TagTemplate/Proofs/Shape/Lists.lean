import Mathlib.Data.List.Forall2
import TagTemplate.Proofs.Cutting
import TagTemplate.Proofs.Stripping
import TagTemplate.Shape

/-!
Lists that are read as they were joined.

A separator without white space does not reach into the white space around an item.  Each text is
then cut out whole, and what stripping leaves of it is the item.
-/

namespace TagTemplate.Shape

/-- A text is an item with white space around it. -/
def Spaced (text item : String) : Prop :=
  ∃ front behind, Text.allBlank front = true ∧ Text.allBlank behind = true ∧
    text = front ++ item ++ behind

/-- All decoders of lists that cut at the separator read the text as these items. -/
structure ReadsList (separator text : String) (items : List String) : Prop where
  param : decodeParam .list separator text = .list items
  body (shapes : ShapeSyntax) (delimited : shapes.listDelimiter = separator) :
    decodeBody shapes .list text = .ok (.list items)
  commaParam (other : String) (comma : separator = ",") :
    decodeParam .commaList other text = .list items
  commaBody (shapes : ShapeSyntax) (comma : separator = ",") :
    decodeBody shapes .commaList text = .ok (.list items)

variable {separator text item : String} {texts items : List String}

theorem readsList_of_splitTrimmed (cut : splitTrimmed text separator = items) :
    ReadsList separator text items where
  param := by rw [decodeParam, cut]
  body shapes delimited := by rw [decodeBody, delimited, cut]
  commaParam other comma := by rw [decodeParam, ← comma, cut]
  commaBody shapes comma := by rw [decodeBody, ← comma, cut]

theorem Spaced.refl (item : String) : Spaced item item :=
  ⟨"", "", rfl, rfl, by simp⟩

theorem Spaced.trim_eq (spaced : Spaced text item) (trimmed : Text.trim item = item) :
    Text.trim text = item := by
  obtain ⟨front, behind, before, after, rfl⟩ := spaced
  rw [Text.allBlank, List.all_eq_true] at before after
  rw [Text.trim, String.toList_append, String.toList_append, Text.strip_append_right after,
    Text.strip_append_left before]
  exact trimmed

theorem Spaced.apart (spaced : Spaced text item) (nonempty : separator ≠ "")
    (unblank : ∀ c ∈ separator.toList, Text.isBlank c = false)
    (apart : Text.Apart separator.toList item.toList) :
    Text.Apart separator.toList text.toList := by
  obtain ⟨front, behind, before, after, rfl⟩ := spaced
  have filled : separator.toList ≠ [] := by simpa using nonempty
  have outside : ∀ around : String, Text.allBlank around = true →
      ∀ c ∈ around.toList, c ∉ separator.toList := by
    intro around blank c member inside
    have both := List.all_eq_true.mp blank c member
    rw [unblank c inside] at both
    cases both
  rw [String.toList_append, String.toList_append, List.append_assoc]
  have trailing := apart.append filled (outside behind after)
  have leading := outside front before
  generalize front.toList = front at leading ⊢
  induction front with
  | nil => exact trailing
  | cons c front ih =>
      obtain ⟨here, later⟩ := List.forall_mem_cons.mp leading
      exact (ih later).cons filled here

theorem splitTrimmed_of_blank (blank : Text.allBlank text = true) (separator : String) :
    splitTrimmed text separator = [] := by
  rw [splitTrimmed, if_pos blank]

/-- A list that is not the empty text alone is joined to a text that is not blank. -/
theorem allBlank_intercalate (nonempty : separator ≠ "")
    (unblank : ∀ c ∈ separator.toList, Text.isBlank c = false) (some : texts ≠ [])
    (single : ∀ text, texts = [text] → Text.allBlank text = false) :
    Text.allBlank (separator.intercalate texts) = false := by
  rcases texts with _ | ⟨first, _ | ⟨second, rest⟩⟩
  · contradiction
  · simpa using single first rfl
  · obtain ⟨c, member⟩ := List.exists_mem_of_ne_nil separator.toList (by simpa using nonempty)
    rw [Text.allBlank, List.all_eq_false]
    refine ⟨c, ?_, by simp [unblank c member]⟩
    simp [String.toList_intercalate, member]

theorem map_trim_of_spaced (spaced : List.Forall₂ Spaced texts items)
    (trimmed : ∀ item ∈ items, Text.trim item = item) : texts.map Text.trim = items := by
  induction spaced with
  | nil => rfl
  | cons here _ ih =>
      obtain ⟨first, rest⟩ := List.forall_mem_cons.mp trimmed
      rw [List.map_cons, here.trim_eq first, ih rest]

theorem apart_of_spaced (spaced : List.Forall₂ Spaced texts items) (nonempty : separator ≠ "")
    (unblank : ∀ c ∈ separator.toList, Text.isBlank c = false)
    (apart : ∀ item ∈ items, Text.Apart separator.toList item.toList) :
    ∀ text ∈ texts, Text.Apart separator.toList text.toList := by
  induction spaced with
  | nil => exact nofun
  | cons here _ ih =>
      obtain ⟨first, rest⟩ := List.forall_mem_cons.mp apart
      exact List.forall_mem_cons.mpr ⟨here.apart nonempty unblank first, ih rest⟩

theorem splitTrimmed_intercalate (nonempty : separator ≠ "")
    (unblank : ∀ c ∈ separator.toList, Text.isBlank c = false) (some : items ≠ [])
    (other : items ≠ [""]) (trimmed : ∀ item ∈ items, Text.trim item = item)
    (apart : ∀ item ∈ items, Text.Apart separator.toList item.toList)
    (spaced : List.Forall₂ Spaced texts items) :
    splitTrimmed (separator.intercalate texts) separator = items := by
  have read := map_trim_of_spaced spaced trimmed
  have written : texts ≠ [] := by
    rintro rfl
    exact some read.symm
  have filled : ∀ text, texts = [text] → Text.allBlank text = false := by
    rintro text rfl
    rw [Bool.eq_false_iff]
    intro blank
    have empty := String.isEmpty_iff.mp (Text.isEmpty_trim_iff.mpr blank)
    rw [List.map_singleton, empty] at read
    exact other read.symm
  rw [splitTrimmed, allBlank_intercalate nonempty unblank written filled, if_neg (by simp),
    Text.split_intercalate nonempty (apart_of_spaced spaced nonempty unblank apart) written, read]

/-- Items that are joined with a separator are read again, with white space around them or
without, if the separator occurs behind each of them only where it was put.  The list of the
empty text alone is written as a blank text, which is read as no items at all. -/
theorem readsList_joined (separator : String) :
    (separator ≠ "" → (∀ c ∈ separator.toList, Text.isBlank c = false) →
      ∀ items : List String, items ≠ [] → items ≠ [""] →
        (∀ item ∈ items, Text.trim item = item) →
        (∀ item ∈ items, Text.Apart separator.toList item.toList) →
        ReadsList separator (separator.intercalate items) items ∧
          ∀ texts, List.Forall₂ Spaced texts items →
            ReadsList separator (separator.intercalate texts) items) ∧
    ∀ text, Text.allBlank text = true → ReadsList separator text [] := by
  constructor
  · intro nonempty unblank items some other trimmed apart
    have spaced : ∀ texts, List.Forall₂ Spaced texts items →
        ReadsList separator (separator.intercalate texts) items := fun texts spaced =>
      readsList_of_splitTrimmed
        (splitTrimmed_intercalate nonempty unblank some other trimmed apart spaced)
    exact ⟨spaced items (List.forall₂_same.mpr fun item _ => .refl item), spaced⟩
  · exact fun text blank => readsList_of_splitTrimmed (splitTrimmed_of_blank blank separator)

/-- The separator and the item behind it begin alike, and the last item is empty. -/
theorem readsList_joined_alike :
    let items := ["a-b", "-c", ""]
    "--" ≠ "" ∧ (∀ c ∈ "--".toList, Text.isBlank c = false) ∧
      (∀ item ∈ items, Text.trim item = item) ∧
      (∀ item ∈ items, Text.Apart "--".toList item.toList) ∧
      List.Forall₂ Spaced ["a-b", "\t-c", " "] items ∧
      ReadsList "--" "a-b---c--" items ∧ ReadsList "--" "a-b--\t-c-- " items := by
  intro items
  have unblank : ∀ c ∈ "--".toList, Text.isBlank c = false := by
    have dash : Text.isBlank '-' = false := by decide
    simpa using dash
  have trimmed : ∀ item ∈ items, Text.trim item = item := by decide
  have apart : ∀ item ∈ items, Text.Apart "--".toList item.toList := by
    simp only [items, List.forall_mem_cons]
    refine ⟨?_, ?_, ?_, nofun⟩ <;> exact Text.apart_of_not_infix (by decide)
  have spaced : List.Forall₂ Spaced ["a-b", "\t-c", " "] items :=
    .cons (.refl _) (.cons ⟨"\t", "", by decide, by decide, rfl⟩
      (.cons ⟨" ", "", by decide, by decide, rfl⟩ .nil))
  obtain ⟨plain, around⟩ := (readsList_joined "--").1 (by decide) unblank items (by decide)
    (by decide) trimmed apart
  exact ⟨by decide, unblank, trimmed, apart, spaced, plain, around _ spaced⟩

end TagTemplate.Shape
