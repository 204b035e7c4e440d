import TagTemplate.Proofs.Lexing.Tokens

/-!
Tags that are read as they were written.

The name of a tag is the longest run of name characters that a separator can follow.  A second
separator that follows a longer run would have to be the first one moved to the right, over name
characters that a parameter may hold.  One character of the separator that is of no such kind
keeps it in its place.
-/

namespace TagTemplate

theorem Text.takeWhile_append_of_stop {p : Char → Bool} {word : List Char}
    (stop : ∃ c ∈ word, p c = false) (rest : List Char) :
    (word ++ rest).takeWhile p = word.takeWhile p := by
  obtain ⟨c, member, refused⟩ := stop
  rw [List.takeWhile_append, if_neg]
  intro whole
  have all := List.takeWhile_eq_self_iff.mp (List.takeWhile_prefix p |>.eq_of_length whole)
  simp [all c member] at refused

/-- A word cannot be moved over characters of a class if it holds one that is not of the class. -/
theorem Text.eq_nil_of_moved {p : Char → Bool} {moved word left right : List Char}
    (within : ∀ c ∈ moved, p c = true) (stop : ∃ c ∈ word, p c = false)
    (found : moved ++ (word ++ left) <+: word ++ right) : moved = [] := by
  obtain ⟨rest, same⟩ := found
  have runs := congrArg (List.takeWhile p) same
  rw [List.append_assoc, List.append_assoc, List.takeWhile_append_of_pos within,
    takeWhile_append_of_stop stop, takeWhile_append_of_stop stop] at runs
  exact List.append_left_eq_self.mp runs

namespace Delimiters

/-- The separator is not made of characters that may stand in a name and in a parameter alike. -/
def Telling (d : Delimiters) : Prop :=
  ∃ c ∈ d.separator.toList, isNameChar c = false ∨ d.isParamChar c = false

variable {d : Delimiters} {name param moved found text left right first second : List Char}

theorem takeWhile_closer (closer : d.closer.toList ≠ []) (rest : List Char) :
    (d.closer.toList ++ rest).takeWhile d.isParamChar = [] := by
  obtain ⟨c, more, starts⟩ := List.exists_cons_of_ne_nil closer
  have stops : d.isParamChar c = false := isParamChar_closer (by rw [starts]; rfl)
  simp [starts, stops]

theorem eq_of_closed (closer : d.closer.toList ≠ []) (allowed : ∀ c ∈ first, d.isParamChar c = true)
    (allowedToo : ∀ c ∈ second, d.isParamChar c = true)
    (same : first ++ (d.closer.toList ++ left) = second ++ (d.closer.toList ++ right)) :
    first = second := by
  have runs := congrArg (List.takeWhile d.isParamChar) same
  rwa [List.takeWhile_append_of_pos allowed, List.takeWhile_append_of_pos allowedToo,
    takeWhile_closer closer, takeWhile_closer closer, List.append_nil, List.append_nil] at runs

/-- The name that is read in front of a written tag may go on over the separator, if another one
follows. -/
theorem Delimiting.exists_moved (delimiting : d.Delimiting)
    (named : ∀ c ∈ name, isNameChar c = true) (allowed : ∀ c ∈ param, d.isParamChar c = true)
    (text : List Char) :
    ∃ moved found, d.tagAt? (d.spell (name, param) ++ text) =
        some ((name ++ moved, found), (d.spell (name ++ moved, found)).length) ∧
      (∀ c ∈ moved, isNameChar c = true) ∧ (∀ c ∈ found, d.isParamChar c = true) ∧
      moved ++ (d.separator.toList ++ (found ++ d.closer.toList)) <+:
        d.separator.toList ++ (param ++ (d.closer.toList ++ text)) := by
  have behind : d.paramAt? (d.separator.toList ++ (param ++ (d.closer.toList ++ text))) =
      some param := (paramAt?_eq_some_iff delimiting.closer).mpr ⟨allowed, text, by simp⟩
  have here := Option.isSome_of_eq_some behind
  obtain ⟨⟨longest, found⟩, read⟩ := Option.isSome_iff_exists.mp
    (Text.longestRun_isSome_append named here)
  obtain ⟨moved, rfl⟩ := Text.prefix_of_longestRun named here read
  obtain ⟨accepted, rest, split, param⟩ := Text.longestRun_sound read
  obtain ⟨allowedToo, starts⟩ := (paramAt?_eq_some_iff delimiting.closer).mp param
  rw [List.append_assoc, List.append_cancel_left_eq] at split
  refine ⟨moved, found, ?_, fun c member => accepted c (by simp [member]), allowedToo, ?_⟩
  · exact tagAt?_eq_some_iff.mpr ⟨_, by simp [spell], read, rfl⟩
  · rw [split, List.prefix_append_right_inj]
    exact starts

/-- A separator that is not made of name characters only is read where it was written. -/
theorem Delimiting.tagAt?_spell (delimiting : d.Delimiting)
    (stop : ∃ c ∈ d.separator.toList, isNameChar c = false)
    (named : ∀ c ∈ name, isNameChar c = true) (allowed : ∀ c ∈ param, d.isParamChar c = true)
    (text : List Char) :
    d.tagAt? (d.spell (name, param) ++ text) =
      some ((name, param), (d.spell (name, param)).length) := by
  obtain ⟨moved, found, read, within, allowedToo, starts⟩ :=
    delimiting.exists_moved named allowed text
  cases Text.eq_nil_of_moved within stop starts
  rw [List.nil_append, List.prefix_append_right_inj] at starts
  obtain ⟨rest, same⟩ := starts
  rw [List.append_assoc] at same
  cases eq_of_closed delimiting.closer allowedToo allowed same
  rwa [List.append_nil] at read

theorem Delimiting.exists_tagAt?_alone (delimiting : d.Delimiting)
    (named : ∀ c ∈ name, isNameChar c = true) (allowed : ∀ c ∈ param, d.isParamChar c = true) :
    ∃ moved found, d.tagAt? (d.spell (name, param)) =
        some ((name ++ moved, found), (d.spell (name ++ moved, found)).length) ∧
      d.spell (name ++ moved, found) = d.spell (name, param) ∧ (d.Telling → moved = []) := by
  obtain ⟨moved, found, read, within, allowedToo, starts⟩ :=
    delimiting.exists_moved named allowed []
  rw [List.append_nil] at read
  obtain ⟨rest, same⟩ := starts
  -- the separator and the closer use up all characters that no parameter holds
  have kept : ∀ c ∈ moved, d.isParamChar c = true := by
    have counts := congrArg (List.countP fun c => !d.isParamChar c) same
    have none : param.countP (fun c => !d.isParamChar c) = 0 :=
      List.countP_eq_zero.mpr (by simpa using allowed)
    simp only [List.countP_append, List.countP_nil] at counts
    have unused : moved.countP (fun c => !d.isParamChar c) = 0 := by omega
    simpa using List.countP_eq_zero.mp unused
  have unmoved : d.Telling → moved = [] := by
    rintro ⟨c, member, unnamed | refused⟩
    · exact Text.eq_nil_of_moved within ⟨c, member, unnamed⟩ ⟨rest, same⟩
    · exact Text.eq_nil_of_moved kept ⟨c, member, refused⟩ ⟨rest, same⟩
  refine ⟨moved, found, read, ?_, unmoved⟩
  by_cases telling : d.Telling
  · cases unmoved telling
    rw [List.nil_append, List.append_assoc, List.append_cancel_left_eq, List.append_assoc] at same
    cases eq_of_closed delimiting.closer allowedToo allowed same
    rw [List.append_nil]
  · have separator : ∀ c ∈ d.separator.toList, d.isParamChar c = true := by
      intro c member
      by_contra refused
      exact telling ⟨c, member, .inr (by simpa using refused)⟩
    have whole : moved ++ (d.separator.toList ++ found) = d.separator.toList ++ param := by
      apply eq_of_closed delimiting.closer
      · simpa [or_imp, forall_and] using ⟨kept, separator, allowedToo⟩
      · simpa [or_imp, forall_and] using ⟨separator, allowed⟩
      · rw [List.append_assoc, List.append_assoc, List.append_assoc] at same
        simpa only [List.append_assoc] using same
    simp only [spell, List.append_assoc]
    rw [← List.append_assoc _ found, ← List.append_assoc moved, whole, List.append_assoc]

theorem Delimiting.tokenize_of_tagAt? (delimiting : d.Delimiting) {text : String}
    {tag : List Char × List Char}
    (read : d.tagAt? text.toList = some (tag, (d.spell tag).length))
    (whole : d.spell tag = text.toList) :
    d.tokenize text = [.literal "",
      .tag ⟨String.ofList tag.1, String.ofList tag.2, 0, text.utf8ByteSize⟩, .literal ""] := by
  have nonempty := delimiting.reads.nonempty read
  have scanned : Text.Scanned d.tagAt? d.spell (d.spell tag ++ []) [.found tag] := by
    apply Text.Scanned.found nonempty
    · rw [List.append_nil, whole, read, whole]
    · exact .nil
  rw [List.append_nil, whole] at scanned
  have written : d.wrap (String.ofList tag.1) (String.ofList tag.2) = text := by
    apply String.toList_injective
    simpa [toList_wrap] using whole
  rw [tokenize_eq, scanned.scan_eq]
  simp [Text.Piece.gather, layOut, written, Text.byteLength]

theorem Delimiting.exists_tokenize_wrap (delimiting : d.Delimiting) {name param : String}
    (named : ∀ c ∈ name.toList, isNameChar c = true)
    (allowed : ∀ c ∈ param.toList, d.isParamChar c = true) :
    ∃ moved found, d.tokenize (d.wrap name param) = [.literal "",
        .tag ⟨name ++ moved, found, 0, (d.wrap name param).utf8ByteSize⟩, .literal ""] ∧
      d.wrap (name ++ moved) found = d.wrap name param ∧ (d.Telling → moved = "") := by
  obtain ⟨moved, found, read, whole, unmoved⟩ := delimiting.exists_tagAt?_alone named allowed
  rw [← toList_wrap] at read whole
  refine ⟨String.ofList moved, String.ofList found, ?_, ?_, ?_⟩
  · simpa using delimiting.tokenize_of_tagAt? read whole
  · apply String.toList_injective
    simpa [toList_wrap] using whole
  · exact fun telling => by rw [unmoved telling]

theorem Delimiting.tokenize_of_telling (delimiting : d.Delimiting) (telling : d.Telling)
    {name param : String} (named : ∀ c ∈ name.toList, isNameChar c = true)
    (allowed : ∀ c ∈ param.toList, d.isParamChar c = true) :
    d.tokenize (d.wrap name param) = [.literal "",
      .tag ⟨name, param, 0, (d.wrap name param).utf8ByteSize⟩, .literal ""] := by
  obtain ⟨moved, found, read, whole, unmoved⟩ := delimiting.exists_tokenize_wrap named allowed
  cases unmoved telling
  rw [String.append_empty] at read whole
  have same : found = param := by
    simpa [wrap, String.append_assoc] using whole
  rw [read, same]

/-- With valid delimiters a tag that stands alone is read as one tag.  It is always read as it was
written exactly if the separator is telling: otherwise the separator can be the name of one tag
and the parameter of another that is written alike. -/
theorem tokenize_wrap (valid : d.validate = .ok ()) :
    (∀ name param : String, (∀ c ∈ name.toList, isNameChar c = true) →
      (∀ c ∈ param.toList, d.isParamChar c = true) →
      ∃ moved found, d.tokenize (d.wrap name param) = [.literal "",
        .tag ⟨name ++ moved, found, 0, (d.wrap name param).utf8ByteSize⟩, .literal ""]) ∧
    ((∀ name param : String, (∀ c ∈ name.toList, isNameChar c = true) →
      (∀ c ∈ param.toList, d.isParamChar c = true) →
      d.tokenize (d.wrap name param) = [.literal "",
        .tag ⟨name, param, 0, (d.wrap name param).utf8ByteSize⟩, .literal ""]) ↔ d.Telling) := by
  have delimiting := Delimiting.of_validate valid
  refine ⟨?_, ?_, ?_⟩
  · intro name param named allowed
    obtain ⟨moved, found, read, _⟩ := delimiting.exists_tokenize_wrap named allowed
    exact ⟨moved, found, read⟩
  · intro all
    by_contra ambiguous
    simp only [Telling, not_exists, not_and, not_or, Bool.not_eq_false] at ambiguous
    have asName := all d.separator "" (fun c member => (ambiguous c member).1) (by simp)
    have asParam := all "" d.separator (by simp) (fun c member => (ambiguous c member).2)
    have alike : d.wrap d.separator "" = d.wrap "" d.separator := by simp [wrap]
    rw [alike, asParam] at asName
    simp [separator_ne_empty valid] at asName
  · intro telling name param named allowed
    exact delimiting.tokenize_of_telling telling named allowed

/-- A separator of name characters that holds the first character of the closer. -/
theorem tokenize_wrap_apart :
    let d : Delimiters := ⟨"a", "-a", "a.", default.escaped⟩
    d.validate = .ok () ∧
      d.tokenize "aaa-a-a." = [.literal "", .tag ⟨"aa", "-", 0, 8⟩, .literal ""] := by
  intro d
  have valid : d.validate = .ok () := by decide
  have telling : d.Telling := ⟨'a', by decide, by decide⟩
  have named : ∀ c ∈ "aa".toList, isNameChar c = true := List.all_eq_true.mp (by decide)
  have allowed : ∀ c ∈ "-".toList, d.isParamChar c = true := List.all_eq_true.mp (by decide)
  exact ⟨valid, (tokenize_wrap valid).2.mpr telling "aa" "-" named allowed⟩

/-- The hyphen is valid as a separator, and the name is read up to the last one. -/
theorem tokenize_wrap_hyphen :
    let d : Delimiters := { default with separator := "-" }
    d.validate = .ok () ∧ (∀ c ∈ "a".toList, isNameChar c = true) ∧
      (∀ c ∈ "b-c".toList, d.isParamChar c = true) ∧
      d.tokenize (d.wrap "a" "b-c") = [.literal "", .tag ⟨"a-b", "c", 0, 7⟩, .literal ""] :=
  ⟨by decide, List.all_eq_true.mp (by decide), List.all_eq_true.mp (by decide), by decide⟩

end Delimiters

end TagTemplate
