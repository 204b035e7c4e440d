import TagTemplate.Proofs.Lexing.Printed
import TagTemplate.Proofs.RawBody

/-!
Texts joined by a tag.

Where each delimiter is one character of its own, no tag that begins in a text reaches into a tag
behind it, so that the two texts around a tag are read as they are read alone.
-/

namespace TagTemplate

open TagTemplate.Text (Piece Scanned scan)

theorem Tokens.join {d : Delimiters} {here : Nat} {segments more : List Segment} {tag : Tag}
    (tokens : Tokens d here segments)
    (start : tag.start = here + (d.detokenize segments).utf8ByteSize)
    (stop : tag.stop = tag.start + (d.wrap tag.name tag.param).utf8ByteSize)
    (behind : Tokens d tag.stop more) : Tokens d here (segments ++ .tag tag :: more) := by
  induction tokens with
  | last text =>
      refine .next text ?_ stop behind
      simpa [Delimiters.detokenize_cons, Segment.text] using start
  | @next here text first rest startFirst stopFirst _ ih =>
      refine .next text startFirst stopFirst (ih ?_)
      rw [start, stopFirst, startFirst]
      simp only [Delimiters.detokenize_cons, Segment.text, String.utf8ByteSize_append]
      omega

theorem Segment.shift_comp_shift (first second : Nat) :
    Segment.shift first ∘ Segment.shift second = Segment.shift (first + second) := by
  funext segment
  cases segment <;> simp [shift, Nat.add_assoc]

namespace Delimiters

variable {d : Delimiters} {opener separator closer : Char} {text behind : List Char}
  {pieces more : List (Piece (List Char × List Char))} {name param : String}

namespace Single

theorem tagAt?_spell (single : d.Single opener separator closer) {tag : List Char × List Char}
    (named : ∀ c ∈ tag.1, isNameChar c = true) (allowed : ∀ c ∈ tag.2, d.isParamChar c = true)
    (rest : List Char) : d.tagAt? (d.spell tag ++ rest) = some (tag, (d.spell tag).length) :=
  single.delimiting.tagAt?_spell ⟨separator, by simp [single.separates], single.unnamed.2.1⟩
    named allowed rest

/-- A text is read as it is read alone, if an opener or nothing follows it. -/
theorem scanned_append (single : d.Single opener separator closer)
    (scanned : Scanned d.tagAt? d.spell text pieces) (ends : ∀ c ∈ behind.head?, c = opener)
    (rest : Scanned d.tagAt? d.spell behind more) :
    Scanned d.tagAt? d.spell (text ++ behind) (pieces ++ more) := by
  induction scanned with
  | nil => exact rest
  | @char c text pieces silent _ ih =>
      refine .char ?_ ih
      rw [← Option.not_isSome_iff_eq_none]
      intro found
      obtain ⟨tag, alone, named, allowed⟩ := single.exists_spelled_of_tagAt? ends found
      have heard := single.delimiting.tagAt?_isSome_iff.mpr ⟨tag, alone, named, allowed⟩
      simp [silent] at heard
  | @found tag text pieces nonempty matched _ ih =>
      obtain ⟨named, allowed⟩ := chars_of_tagAt? single.delimiting.closer matched
      rw [List.append_assoc]
      exact .found nonempty (single.tagAt?_spell named allowed _) ih

/-- The texts around a tag are read as they are read alone. -/
theorem tokenize_join (single : d.Single opener separator closer)
    (named : ∀ c ∈ name.toList, isNameChar c = true)
    (apart : ∀ c ∈ param.toList, c ≠ opener ∧ c ≠ closer) (before behind : String) :
    let start := before.utf8ByteSize
    let stop := start + (d.wrap name param).utf8ByteSize
    d.tokenize (before ++ d.wrap name param ++ behind) =
      d.tokenize before ++ .tag ⟨name, param, start, stop⟩ ::
        (d.tokenize behind).map (Segment.shift stop) := by
  intro start stop
  have allowed : ∀ c ∈ param.toList, d.isParamChar c = true := fun c member =>
    single.isParamChar_iff.mpr (apart c member)
  have reads := single.delimiting.reads
  obtain ⟨inside, written, _⟩ := single.spell_eq (name.toList, param.toList) named allowed
  have tag : Scanned d.tagAt? d.spell (d.spell (name.toList, param.toList) ++ behind.toList)
      (.found (name.toList, param.toList) :: scan d.tagAt? behind.toList) :=
    .found (by simp [written]) (single.tagAt?_spell named allowed _) (reads.scanned _)
  have scanned := single.scanned_append (reads.scanned before.toList) (by simp [written]) tag
  have shifted := (d.tokenize_tokens behind).shift stop
  have joined : Tokens d 0 (d.tokenize before ++ .tag ⟨name, param, start, stop⟩ ::
      (d.tokenize behind).map (Segment.shift stop)) := by
    refine (d.tokenize_tokens before).join ?_ rfl shifted
    rw [single.delimiting.detokenize_tokenize, Nat.zero_add]
  apply (d.tokenize_tokens _).unique joined
  rw [pieces_tokenize, String.toList_append, String.toList_append, toList_wrap, List.append_assoc,
    scanned.scan_eq, List.flatMap_append, List.flatMap_cons, List.flatMap_map, pieces_tokenize]
  simp only [Segment.pieces_shift]
  rw [pieces_tokenize]
  rfl

theorem exists_tokenize_join (single : d.Single opener separator closer) {text : String}
    (literal : d.tokenize text = [.literal text]) (named : ∀ c ∈ name.toList, isNameChar c = true)
    (apart : ∀ c ∈ param.toList, c ≠ opener ∧ c ≠ closer) (behind : String) (offset : Nat) :
    ∃ tag further, tag.name = name ∧ tag.param = param ∧
      (d.tokenize (text ++ d.wrap name param ++ behind)).map (Segment.shift offset) =
        .literal text :: .tag tag :: (d.tokenize behind).map (Segment.shift further) := by
  let stop := text.utf8ByteSize + (d.wrap name param).utf8ByteSize
  refine ⟨⟨name, param, offset + text.utf8ByteSize, offset + stop⟩, offset + stop, rfl, rfl, ?_⟩
  rw [single.tokenize_join named apart text behind, literal, List.singleton_append, List.map_cons,
    List.map_cons, List.map_map, Segment.shift_comp_shift]
  rfl

/-- The text between an open tag and its close tag is read as it is read alone. -/
theorem tokenize_pair (single : d.Single opener separator closer)
    (named : ∀ c ∈ name.toList, isNameChar c = true) (body : String) :
    let start := (d.wrap name "").utf8ByteSize
    let size := body.utf8ByteSize
    d.tokenize (d.wrap name "" ++ body ++ d.wrap "" name) =
      .literal "" :: .tag ⟨name, "", 0, start⟩ :: ((d.tokenize body).map (Segment.shift start) ++
        [.tag ⟨"", name, start + size, start + (size + (d.wrap "" name).utf8ByteSize)⟩,
          .literal ""]) := by
  intro start size
  have apart : ∀ c ∈ name.toList, c ≠ opener ∧ c ≠ closer := by
    intro c member
    constructor
    · rintro rfl
      simpa [single.unnamed.1] using named c member
    · rintro rfl
      simpa [single.unnamed.2.2] using named c member
  have first := @tokenize_join d _ _ _ name "" single named (by simp) "" (body ++ d.wrap "" name)
  have last := @tokenize_join d _ _ _ "" name single (by simp) apart body ""
  have empty : d.tokenize "" = [.literal ""] := rfl
  rw [String.append_empty] at last
  rw [String.empty_append, ← String.append_assoc, empty, last, empty] at first
  simpa [Segment.shift, start, size] using first

theorem tokenize_enclosed (single : d.Single opener separator closer)
    (named : ∀ c ∈ name.toList, isNameChar c = true) (body : String) :
    ∃ tag close offset, tag.name = name ∧ tag.param = "" ∧
      d.tokenize (d.wrap name "" ++ body ++ d.wrap "" name) =
        .literal "" :: .tag tag ::
          ((d.tokenize body).map (Segment.shift offset) ++ [.tag close, .literal ""]) :=
  ⟨_, _, _, rfl, rfl, single.tokenize_pair named body⟩

end Single

end Delimiters

@[simp] theorem Segment.text_shift {d : Delimiters} {segment : Segment} {offset : Nat} :
    (segment.shift offset).text d = segment.text d := by
  cases segment <;> rfl

theorem Delimiters.detokenize_shift {d : Delimiters} {segments : List Segment} {offset : Nat} :
    d.detokenize (segments.map (Segment.shift offset)) = d.detokenize segments := by
  simp [detokenize, List.map_map, Function.comp_def]

end TagTemplate
