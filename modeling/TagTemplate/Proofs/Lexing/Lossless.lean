import TagTemplate.Document
import TagTemplate.Proofs.Lexing.Tokens

/-!
Where the segments of a text lie in it.

The spans of the tags cut the text into the literals, and the raw text of a range of
segments is the slice of the text that the range covers.
-/

namespace TagTemplate

/-- The text from byte `start` up to byte `stop`, both at character boundaries. -/
def Text.IsSlice (text : String) (start stop : Nat) (part : String) : Prop :=
  ∃ before after, text = before ++ part ++ after ∧ before.utf8ByteSize = start ∧
    start + part.utf8ByteSize = stop

/-- The byte at which the segment at a position starts, in a text of `size` bytes: a tag
starts with its span, a literal where the span of the tag before it stops. -/
def boundary (segments : List Segment) (size index : Nat) : Nat :=
  match segments[index]?, index with
  | some (.tag tag), _ => tag.start
  | _, 0 => 0
  | _, before + 1 =>
    match segments[before]? with
    | some (.tag tag) => tag.stop
    | _ => size

open TagTemplate.Text (IsSlice)

variable {d : Delimiters} {segments : List Segment} {here index start stop : Nat} {tag : Tag}
  {text : String}

theorem take_eq_append (le : start ≤ stop) :
    segments.take stop = segments.take start ++ (segments.take stop).drop start := by
  have joined := List.take_append_drop start (segments.take stop)
  rw [List.take_take, Nat.min_eq_left le] at joined
  exact joined.symm

namespace Delimiters

theorem utf8ByteSize_take (d : Delimiters) (segments : List Segment) (le : start ≤ stop) :
    (d.detokenize (segments.take stop)).utf8ByteSize =
      (d.detokenize (segments.take start)).utf8ByteSize +
        (d.detokenize ((segments.take stop).drop start)).utf8ByteSize := by
  rw [take_eq_append le, detokenize_append, String.utf8ByteSize_append, ← take_eq_append le]

/-- A range of segments is written where the segments before it end. -/
theorem isSlice_range (d : Delimiters) (segments : List Segment) (le : start ≤ stop) :
    IsSlice (d.detokenize segments) (d.detokenize (segments.take start)).utf8ByteSize
      (d.detokenize (segments.take stop)).utf8ByteSize
      (d.detokenize ((segments.take stop).drop start)) := by
  refine ⟨d.detokenize (segments.take start), d.detokenize (segments.drop stop), ?_, rfl,
    (d.utf8ByteSize_take segments le).symm⟩
  rw [← detokenize_append, ← take_eq_append le, ← detokenize_append, List.take_append_drop]

theorem Delimiting.utf8ByteSize_wrap_pos (delimiting : d.Delimiting) (name param : String) :
    0 < (d.wrap name param).utf8ByteSize := by
  have opener : d.opener.utf8ByteSize ≠ 0 := by
    rw [Ne, String.utf8ByteSize_eq_zero_iff]
    intro empty
    exact delimiting.opener (by simp [empty])
  simp only [wrap, String.utf8ByteSize_append]
  omega

/-- A segment is written between the segments beside it. -/
theorem isSlice_segment (d : Delimiters) {segment : Segment}
    (found : segments[index]? = some segment) :
    IsSlice (d.detokenize segments) (d.detokenize (segments.take index)).utf8ByteSize
      (d.detokenize (segments.take (index + 1))).utf8ByteSize (segment.text d) := by
  have range : (segments.take (index + 1)).drop index = [segment] := by
    obtain ⟨bound, rfl⟩ := List.getElem?_eq_some_iff.mp found
    rw [List.take_add_one, found, List.drop_append_of_le_length (by simp; omega)]
    simp
  have slice := d.isSlice_range segments (Nat.le_succ index)
  rw [range, detokenize_cons, detokenize_nil, String.append_empty] at slice
  exact slice

end Delimiters

namespace Tokens

theorem parity (tokens : Tokens d here segments) : segments.length % 2 = 1 := by
  induction tokens with
  | last text => rfl
  | next text start stop behind ih => simp only [List.length_cons]; omega

theorem literal_iff (tokens : Tokens d here segments) {segment : Segment}
    (found : segments[index]? = some segment) :
    (∃ text, segment = .literal text) ↔ index % 2 = 0 := by
  induction tokens generalizing index with
  | last text =>
      match index with
      | 0 => cases found; simp
      | index + 1 => simp at found
  | next text start stop behind ih =>
      match index with
      | 0 => cases found; simp
      | 1 => cases found; simp
      | index + 2 =>
          rw [ih found]
          omega

theorem even_of_not_tag (tokens : Tokens d here segments) (bound : index < segments.length)
    (notTag : ∀ tag, segments[index]? = some (.tag tag) → False) : index % 2 = 0 := by
  have found : segments[index]? = some segments[index] := List.getElem?_eq_getElem bound
  apply (tokens.literal_iff found).mp
  cases kind : segments[index] with
  | literal text => exact ⟨text, rfl⟩
  | tag tag => exact (notTag tag (by rw [found, kind])).elim

/-- Spans count the bytes of the segments before a tag and of the tag itself. -/
theorem span (tokens : Tokens d here segments) (found : segments[index]? = some (.tag tag)) :
    tag.start = here + (d.detokenize (segments.take index)).utf8ByteSize ∧
      tag.stop = here + (d.detokenize (segments.take (index + 1))).utf8ByteSize := by
  induction tokens generalizing index with
  | last text =>
      match index with
      | 0 => cases found
      | index + 1 => simp at found
  | next text start stop behind ih =>
      match index with
      | 0 => cases found
      | 1 =>
          cases found
          simp [Delimiters.detokenize_cons, Segment.text, start, stop, Nat.add_assoc]
      | index + 2 =>
          obtain ⟨starts, stops⟩ := ih found
          simp [Delimiters.detokenize_cons, Segment.text, starts, stops, start, stop, Nat.add_assoc]

theorem span_le (tokens : Tokens d here segments) {later : Nat} {next : Tag}
    (found : segments[index]? = some (.tag tag)) (behind : segments[later]? = some (.tag next))
    (before : index < later) : tag.stop ≤ next.start := by
  have reach : index + 1 ≤ later := before
  have counted := d.utf8ByteSize_take segments reach
  rw [(tokens.span found).2, (tokens.span behind).1, counted]
  omega

/-- The boundaries read off the spans count the bytes of the segments before them. -/
theorem boundary_eq (tokens : Tokens d 0 segments) (bound : index ≤ segments.length) :
    boundary segments (d.detokenize segments).utf8ByteSize index =
      (d.detokenize (segments.take index)).utf8ByteSize := by
  unfold boundary
  split
  · rename_i tag found
    simpa using (tokens.span found).1
  · rfl
  · rename_i before notTag
    split
    · rename_i tag found
      simpa using (tokens.span found).2
    · rename_i alsoNotTag
      -- two literals are never neighbours, so that this is the end of the text
      have last : before.succ = segments.length := by
        have even := tokens.even_of_not_tag bound alsoNotTag
        have alsoEven := fun inside => tokens.even_of_not_tag inside notTag
        omega
      rw [last, List.take_length]

end Tokens

/-- A text and its segments: what lies where in the text, and that nothing is lost. -/
structure Lossless (d : Delimiters) (text : String) (segments : List Segment) : Prop where
  odd : segments.length % 2 = 1
  literal_iff : ∀ {index : Nat} {segment}, segments[index]? = some segment →
    ((∃ literal, segment = .literal literal) ↔ index % 2 = 0)
  detokenize_eq : d.detokenize segments = text
  spans : ∀ {index : Nat} {tag}, segments[index]? = some (.tag tag) →
    tag.start < tag.stop ∧ IsSlice text tag.start tag.stop (d.wrap tag.name tag.param)
  increasing : ∀ {index later : Nat} {tag next}, segments[index]? = some (.tag tag) →
    segments[later]? = some (.tag next) → index < later → tag.stop ≤ next.start
  literals : ∀ {index : Nat} {literal}, segments[index]? = some (.literal literal) →
    IsSlice text (boundary segments text.utf8ByteSize index)
      (boundary segments text.utf8ByteSize (index + 1)) literal

theorem Delimiters.Delimiting.lossless (delimiting : d.Delimiting) (text : String) :
    Lossless d text (d.tokenize text) := by
  have tokens := d.tokenize_tokens text
  have whole := delimiting.detokenize_tokenize text
  constructor
  case odd => exact tokens.parity
  case literal_iff => exact tokens.literal_iff
  case detokenize_eq => exact whole
  case spans =>
    intro index tag found
    obtain ⟨starts, stops⟩ := tokens.span found
    have slice := d.isSlice_segment found
    rw [Nat.zero_add] at starts stops
    rw [whole, ← starts, ← stops, Segment.text] at slice
    refine ⟨?_, slice⟩
    obtain ⟨_, _, _, _, size⟩ := slice
    have positive := delimiting.utf8ByteSize_wrap_pos tag.name tag.param
    omega
  case increasing => exact tokens.span_le
  case literals =>
    intro index literal found
    have slice := d.isSlice_segment found
    have bound := (List.getElem?_eq_some_iff.mp found).1
    rw [← tokens.boundary_eq (Nat.le_of_lt bound), ← tokens.boundary_eq bound, whole] at slice
    exact slice

namespace Document

theorem parse_eq_ok_iff {source : String} {document : Document} :
    parse d source = .ok document ↔ document.source = source ∧
      document.segments = (d.tokenize source).toArray ∧
      Pairing.pairTags document.segments d = .ok document.roles := by
  constructor
  · intro parsed
    cases paired : Pairing.pairTags (d.tokenize source).toArray d with
    | error reason =>
        rw [parse, paired] at parsed
        cases parsed
    | ok roles =>
        rw [parse, paired] at parsed
        cases parsed
        exact ⟨rfl, rfl, paired⟩
  · rintro ⟨rfl, segments, paired⟩
    rw [segments] at paired
    rw [parse, paired, ← segments]
    rfl

/-- The byte of the source at which the segment at a position starts. -/
def boundary (document : Document) (index : Nat) : Nat :=
  TagTemplate.boundary document.segments.toList document.source.utf8ByteSize index

end Document

/-- Tokenizing keeps every character in its place, and a range of segments of a parsed
text is a slice of the text. -/
theorem tokenize_lossless (d : Delimiters) (valid : d.validate = .ok ()) (text : String) :
    Lossless d text (d.tokenize text) ∧
      ∀ document, Document.parse d text = .ok document →
        ∀ start stop, start ≤ stop → stop ≤ document.size →
          IsSlice text (document.boundary start) (document.boundary stop)
            (document.raw d start stop) := by
  have delimiting := Delimiters.Delimiting.of_validate valid
  have lossless := delimiting.lossless text
  refine ⟨lossless, ?_⟩
  intro document parsed start stop le bound
  obtain ⟨rfl, segments, _⟩ := Document.parse_eq_ok_iff.mp parsed
  have whole := lossless.detokenize_eq
  have tokens := d.tokenize_tokens document.source
  simp only [Document.size, segments, List.size_toArray] at bound
  have slice := d.isSlice_range (d.tokenize document.source) le
  rw [← tokens.boundary_eq (Nat.le_trans le bound), ← tokens.boundary_eq bound, whole] at slice
  simpa only [Document.boundary, Document.raw, Document.range, segments] using slice

/-- A pair behind a character of two bytes: the open tag and its body are bytes 2 to 8. -/
theorem tokenize_lossless_accented :
    Delimiters.default.validate = .ok () ∧
      ∃ document, Document.parse .default "é\x7ba:p\x7dy\x7b:a\x7d" = .ok document ∧
        Lossless .default document.source (Delimiters.default.tokenize document.source) ∧
        document.boundary 1 = 2 ∧ document.boundary 3 = 8 ∧
        IsSlice document.source 2 8 (document.raw .default 1 3) := by
  have valid : Delimiters.default.validate = .ok () := by decide
  let document : Document := ⟨"é\x7ba:p\x7dy\x7b:a\x7d",
    #[.literal "é", .tag ⟨"a", "p", 2, 7⟩, .literal "y", .tag ⟨"", "a", 8, 12⟩, .literal ""],
    #[none, some (.closedAt 3), none, some (.closes 1), none]⟩
  have parsed : Document.parse .default document.source = .ok document := by
    decide +kernel
  obtain ⟨lossless, slices⟩ := tokenize_lossless .default valid document.source
  exact ⟨valid, document, parsed, lossless, by decide, by decide,
    slices document parsed 1 3 (by decide) (by decide)⟩

end TagTemplate
