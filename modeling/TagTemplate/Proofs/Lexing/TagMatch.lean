import Mathlib.Data.List.Basic
import Mathlib.Data.List.TakeDrop
import Mathlib.Data.List.TakeWhile
import TagTemplate.Proofs.Lexing.Scanned
import TagTemplate.Segment

/-!
The matcher of tags reads what a tag is written as.

A parameter holds no character that starts the closer, so that the closer is found
where the parameter stops, whatever follows it.
-/

namespace TagTemplate.Delimiters

open TagTemplate.Text (Reads longestRun longestRun_sound longestRun_extend longestRun_restrict)

variable {d : Delimiters} {cs param : List Char}

/-- Delimiters by which a tag can be told from the text around it. -/
structure Delimiting (d : Delimiters) : Prop where
  opener : d.opener.toList ≠ []
  closer : d.closer.toList ≠ []

/-- The characters of a tag. -/
def spell (d : Delimiters) (tag : List Char × List Char) : List Char :=
  d.opener.toList ++ (tag.1 ++ (d.separator.toList ++ (tag.2 ++ d.closer.toList)))

theorem toList_wrap (name param : String) :
    (d.wrap name param).toList = d.spell (name.toList, param.toList) := by
  simp [wrap, spell]

theorem ne_empty_of_validate (valid : d.validate = .ok ()) {label value : String}
    (member : (label, value) ∈ d.labelled) : value ≠ "" := by
  unfold validate at valid
  split at valid
  · contradiction
  · rename_i complete
    rw [List.find?_eq_none] at complete
    simpa using complete (label, value) member

theorem Delimiting.of_validate (valid : d.validate = .ok ()) : d.Delimiting := by
  have opener : ("prefix", d.opener) ∈ d.labelled := by simp [labelled]
  have closer : ("suffix", d.closer) ∈ d.labelled := by simp [labelled]
  constructor
  · simpa using ne_empty_of_validate valid opener
  · simpa using ne_empty_of_validate valid closer

theorem separator_ne_empty (valid : d.validate = .ok ()) : d.separator ≠ "" := by
  have separator : ("separator", d.separator) ∈ d.labelled := by simp [labelled]
  exact ne_empty_of_validate valid separator

theorem isParamChar_closer {c : Char} (first : d.closer.toList.head? = some c) :
    d.isParamChar c = false := by
  simp [isParamChar, first]

/-- What follows a name, read off the text: the parameter stops where the closer starts. -/
theorem paramAt?_eq_some_iff (closer : d.closer.toList ≠ []) :
    d.paramAt? cs = some param ↔ (∀ c ∈ param, d.isParamChar c = true) ∧
      d.separator.toList ++ (param ++ d.closer.toList) <+: cs := by
  obtain ⟨c, more, first⟩ := List.exists_cons_of_ne_nil closer
  have stops : d.isParamChar c = false := isParamChar_closer (by rw [first]; rfl)
  simp only [paramAt?, Option.bind_eq_bind, Option.bind_eq_some_iff,
    List.isPrefixOf?_eq_some_iff_append_eq, List.span_eq_takeWhile_dropWhile]
  constructor
  · rintro ⟨rest, rfl, found⟩
    split at found
    · rename_i closes
      cases found
      obtain ⟨behind, dropped⟩ := List.isPrefixOf_iff_prefix.mp closes
      refine ⟨fun c member => by simpa using List.mem_takeWhile_imp member, behind, ?_⟩
      rw [List.append_assoc, List.append_assoc, dropped, List.takeWhile_append_dropWhile]
    · contradiction
  · rintro ⟨allowed, behind, rfl⟩
    refine ⟨param ++ (d.closer.toList ++ behind), by simp, ?_⟩
    rw [List.takeWhile_append_of_pos allowed, List.dropWhile_append_of_pos allowed]
    simp [first, stops]

theorem paramAt?_extend (closer : d.closer.toList ≠ []) (more cs : List Char)
    (found : (d.paramAt? cs).isSome) : (d.paramAt? (cs ++ more)).isSome := by
  obtain ⟨param, read⟩ := Option.isSome_iff_exists.mp found
  obtain ⟨allowed, starts⟩ := (paramAt?_eq_some_iff closer).mp read
  exact Option.isSome_iff_exists.mpr ⟨param, (paramAt?_eq_some_iff closer).mpr
    ⟨allowed, starts.trans (List.prefix_append cs more)⟩⟩

theorem tagAt?_eq_some_iff {tag : List Char × List Char} {covered : Nat} :
    d.tagAt? cs = some (tag, covered) ↔ ∃ rest, d.opener.toList ++ rest = cs ∧
      longestRun isNameChar d.paramAt? rest = some tag ∧ (d.spell tag).length = covered := by
  have size : ∀ tag : List Char × List Char, d.opener.length + tag.1.length +
      d.separator.length + tag.2.length + d.closer.length = (d.spell tag).length := by
    intro tag
    simp [spell, Nat.add_assoc, String.length_toList]
  simp only [tagAt?, Option.bind_eq_bind, Option.bind_eq_some_iff,
    List.isPrefixOf?_eq_some_iff_append_eq, Option.pure_def, Option.some.injEq, Prod.mk.injEq]
  constructor
  · rintro ⟨rest, same, found, read, rfl, rfl⟩
    exact ⟨rest, same, read, (size found).symm⟩
  · rintro ⟨rest, same, read, rfl⟩
    exact ⟨rest, same, tag, read, rfl, size tag⟩

theorem chars_of_tagAt? {tag : List Char × List Char} {covered : Nat}
    (closer : d.closer.toList ≠ []) (found : d.tagAt? cs = some (tag, covered)) :
    (∀ c ∈ tag.1, isNameChar c = true) ∧ ∀ c ∈ tag.2, d.isParamChar c = true := by
  obtain ⟨rest, _, read, _⟩ := tagAt?_eq_some_iff.mp found
  obtain ⟨named, behind, _, param⟩ := longestRun_sound read
  exact ⟨named, ((paramAt?_eq_some_iff closer).mp param).1⟩

theorem Delimiting.reads (delimiting : d.Delimiting) : Reads d.tagAt? d.spell where
  covers := by
    intro text tag covered matched
    obtain ⟨rest, rfl, read, rfl⟩ := tagAt?_eq_some_iff.mp matched
    obtain ⟨_, behind, rfl, param⟩ := longestRun_sound read
    obtain ⟨_, starts⟩ := (paramAt?_eq_some_iff delimiting.closer).mp param
    refine ⟨rfl, ?_⟩
    rw [spell, List.prefix_append_right_inj, List.prefix_append_right_inj]
    exact starts
  nonempty := by
    intro text tag covered matched
    simp [spell, delimiting.opener]
  extend := by
    intro text more matched
    obtain ⟨⟨tag, covered⟩, found⟩ := Option.isSome_iff_exists.mp matched
    obtain ⟨rest, rfl, read, _⟩ := tagAt?_eq_some_iff.mp found
    obtain ⟨longer, reread⟩ := Option.isSome_iff_exists.mp <|
      longestRun_extend (paramAt?_extend delimiting.closer more)
        (Option.isSome_iff_exists.mpr ⟨tag, read⟩)
    exact Option.isSome_iff_exists.mpr ⟨(longer, _),
      tagAt?_eq_some_iff.mpr ⟨rest ++ more, by simp, reread, rfl⟩⟩
  restrict := by
    intro tag text more covered matched
    obtain ⟨rest, same, read, rfl⟩ := tagAt?_eq_some_iff.mp matched
    simp only [spell, List.append_assoc, List.append_cancel_left_eq] at same
    subst same
    obtain ⟨_, behind, split, param⟩ := longestRun_sound read
    have behind_eq := List.append_cancel_left split
    subst behind_eq
    obtain ⟨allowed, _⟩ := (paramAt?_eq_some_iff delimiting.closer).mp param
    have kept : d.paramAt? (d.separator.toList ++ (tag.2 ++ (d.closer.toList ++ text))) =
        some tag.2 :=
      (paramAt?_eq_some_iff delimiting.closer).mpr ⟨allowed, text, by simp⟩
    refine tagAt?_eq_some_iff.mpr ⟨tag.1 ++ (d.separator.toList ++ (tag.2 ++
      (d.closer.toList ++ text))), by simp [spell], ?_, rfl⟩
    apply longestRun_restrict (paramAt?_extend delimiting.closer more) kept
    simpa using read

/-- A tag is found in front of a text exactly where one is spelled. -/
theorem Delimiting.tagAt?_isSome_iff (delimiting : d.Delimiting) :
    (d.tagAt? cs).isSome ↔ ∃ tag, d.spell tag <+: cs ∧ (∀ c ∈ tag.1, isNameChar c = true) ∧
      ∀ c ∈ tag.2, d.isParamChar c = true := by
  constructor
  · intro found
    obtain ⟨⟨tag, covered⟩, found⟩ := Option.isSome_iff_exists.mp found
    exact ⟨tag, (delimiting.reads.covers found).2, chars_of_tagAt? delimiting.closer found⟩
  · intro spelled
    obtain ⟨⟨name, param⟩, ⟨rest, same⟩, named, allowed⟩ := spelled
    have behind : d.paramAt? (d.separator.toList ++ (param ++ (d.closer.toList ++ rest))) =
        some param := (paramAt?_eq_some_iff delimiting.closer).mpr ⟨allowed, rest, by simp⟩
    have read := Text.longestRun_isSome_append named (Option.isSome_of_eq_some behind)
    obtain ⟨longest, read⟩ := Option.isSome_iff_exists.mp read
    apply Option.isSome_of_eq_some
    exact tagAt?_eq_some_iff.mpr ⟨_, by rw [← same]; simp [spell], read, rfl⟩

end TagTemplate.Delimiters
