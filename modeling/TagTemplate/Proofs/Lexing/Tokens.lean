import TagTemplate.Proofs.Lexing.TagMatch

/-!
The shape of a tokenized text: literals and tags take turns, and the spans of the tags
lie one behind the other with the literals between them.
-/

namespace TagTemplate

open TagTemplate.Text (Piece byteLength scan)

/-- The pieces that a scan finds in the text of a segment. -/
def Segment.pieces : Segment → List (Piece (List Char × List Char))
  | .literal text => text.toList.map .char
  | .tag t => [.found (t.name.toList, t.param.toList)]

/-- Segments that start at byte `here` of a text: tags between literals, each with the
span that it covers. -/
inductive Tokens (d : Delimiters) : Nat → List Segment → Prop where
  | last {here : Nat} (text : String) : Tokens d here [.literal text]
  | next {here : Nat} (text : String) {tag : Tag} {rest : List Segment}
      (start : tag.start = here + text.utf8ByteSize)
      (stop : tag.stop = tag.start + (d.wrap tag.name tag.param).utf8ByteSize)
      (behind : Tokens d tag.stop rest) : Tokens d here (.literal text :: .tag tag :: rest)

theorem Text.Piece.gather_chars {α : Type} (text : List Char) (pieces : List (Piece α)) :
    gather (text.map .char ++ pieces) = (text ++ (gather pieces).1, (gather pieces).2) := by
  induction text with
  | nil => rfl
  | cons c text ih =>
      rw [List.map_cons, List.cons_append, gather, ih]
      rfl

/-- Gathered pieces in their original order. -/
theorem Text.Piece.flatten_gather {α : Type} (pieces : List (Piece α)) :
    (gather pieces).1.map .char ++ (gather pieces).2.flatMap (fun (a, text) =>
      .found a :: text.map .char) = pieces := by
  induction pieces with
  | nil => rfl
  | cons piece pieces ih =>
      cases piece with
      | char c => simpa [gather] using ih
      | found a => simpa [gather] using ih

namespace Delimiters

variable {d : Delimiters} {segments more : List Segment} {here : Nat} {text : String}

theorem detokenize_append :
    d.detokenize (segments ++ more) = d.detokenize segments ++ d.detokenize more := by
  simp [detokenize]

theorem detokenize_cons {segment : Segment} :
    d.detokenize (segment :: more) = segment.text d ++ d.detokenize more := by
  simp [detokenize]

@[simp] theorem detokenize_nil : d.detokenize [] = "" := rfl

theorem toList_join {f : Segment → String} {write : List Char × List Char → List Char}
    (literal : ∀ text, f (.literal text) = text)
    (tag : ∀ tag, (f (.tag tag)).toList = write (tag.name.toList, tag.param.toList))
    (segments : List Segment) :
    (String.join (segments.map f)).toList =
      Piece.render write (segments.flatMap Segment.pieces) := by
  induction segments with
  | nil => rfl
  | cons segment segments ih =>
      rw [List.map_cons, String.join_cons, String.toList_append, List.flatMap_cons,
        Piece.render_append, ih]
      congr 1
      cases segment with
      | literal text => rw [literal, Segment.pieces, Piece.render_chars]
      | tag t => simp [tag, Segment.pieces]

/-- The text of segments is what their pieces are written as. -/
theorem toList_detokenize :
    (d.detokenize segments).toList = Piece.render d.spell (segments.flatMap Segment.pieces) := by
  apply toList_join
  · exact fun _ => rfl
  · exact fun tag => toList_wrap tag.name tag.param

theorem layOut_tokens (start : Nat) (first : String)
    (rest : List ((List Char × List Char) × List Char)) :
    Tokens d start (.literal first :: d.layOut (start + first.utf8ByteSize) rest) := by
  induction rest generalizing start first with
  | nil => exact .last first
  | cons entry rest ih =>
      rw [layOut, Text.byteLength_eq]
      exact .next first rfl rfl (ih _ _)

theorem pieces_layOut (start : Nat) (rest : List ((List Char × List Char) × List Char)) :
    (d.layOut start rest).flatMap Segment.pieces =
      rest.flatMap fun (a, text) => .found a :: text.map .char := by
  induction rest generalizing start with
  | nil => rfl
  | cons entry rest ih =>
      rw [layOut, List.flatMap_cons, List.flatMap_cons, List.flatMap_cons, ih]
      simp [Segment.pieces]

theorem tokenize_eq (d : Delimiters) (text : String) :
    d.tokenize text =
      .literal (String.ofList (Piece.gather (scan d.tagAt? text.toList)).1) ::
        d.layOut (byteLength (Piece.gather (scan d.tagAt? text.toList)).1)
          (Piece.gather (scan d.tagAt? text.toList)).2 := rfl

theorem tokenize_tokens (d : Delimiters) (text : String) : Tokens d 0 (d.tokenize text) := by
  rw [tokenize_eq, Text.byteLength_eq]
  simpa using layOut_tokens 0 (String.ofList _) _

theorem pieces_tokenize (d : Delimiters) (text : String) :
    (d.tokenize text).flatMap Segment.pieces = scan d.tagAt? text.toList := by
  rw [tokenize_eq, List.flatMap_cons, pieces_layOut]
  simpa [Segment.pieces] using Piece.flatten_gather (scan d.tagAt? text.toList)

theorem Delimiting.detokenize_tokenize (delimiting : d.Delimiting) (text : String) :
    d.detokenize (d.tokenize text) = text := by
  apply String.toList_injective
  rw [toList_detokenize, pieces_tokenize]
  exact (delimiting.reads.scanned text.toList).render_eq

theorem Delimiting.tokenize_of_no_tag (delimiting : d.Delimiting) {text : String}
    (tagless : ∀ tag, .tag tag ∉ d.tokenize text) : d.tokenize text = [.literal text] := by
  have tokens := d.tokenize_tokens text
  have whole := delimiting.detokenize_tokenize text
  generalize d.tokenize text = segments at tokens whole tagless
  cases tokens with
  | last literal =>
      rw [detokenize_cons, detokenize_nil, String.append_empty] at whole
      exact congrArg (fun literal => [Segment.literal literal]) whole
  | @next _ literal tag rest start stop behind => exact absurd (by simp) (tagless tag)

theorem mem_tokenize_iff {tag : List Char × List Char} :
    .found tag ∈ scan d.tagAt? text.toList ↔ ∃ found, .tag found ∈ d.tokenize text ∧
      (found.name.toList, found.param.toList) = tag := by
  rw [← pieces_tokenize, List.mem_flatMap]
  constructor
  · intro found
    obtain ⟨segment, member, inside⟩ := found
    cases segment with
    | literal literal => simp [Segment.pieces] at inside
    | tag found =>
        simp only [Segment.pieces, List.mem_singleton, Piece.found.injEq] at inside
        exact ⟨found, member, inside.symm⟩
  · intro held
    obtain ⟨found, member, same⟩ := held
    exact ⟨.tag found, member, by simp [Segment.pieces, same]⟩

theorem Delimiting.named_of_mem_tokenize (delimiting : d.Delimiting) {tag : Tag}
    (member : .tag tag ∈ d.tokenize text) : ∀ c ∈ tag.name.toList, isNameChar c = true := by
  obtain ⟨_, _, _, matched⟩ := (delimiting.reads.scanned text.toList).exists_match
    (mem_tokenize_iff.mpr ⟨tag, member, rfl⟩)
  exact (chars_of_tagAt? delimiting.closer matched).1

theorem Delimiting.exists_tag_iff (delimiting : d.Delimiting) :
    (∃ tag, .tag tag ∈ d.tokenize text) ↔ ∃ tag, d.spell tag <:+: text.toList ∧
      (∀ c ∈ tag.1, isNameChar c = true) ∧ ∀ c ∈ tag.2, d.isParamChar c = true := by
  have scanned := delimiting.reads.scanned text.toList
  constructor
  · intro held
    obtain ⟨tag, member⟩ := held
    obtain ⟨left, right, split, matched⟩ :=
      scanned.exists_match (mem_tokenize_iff.mpr ⟨tag, member, rfl⟩)
    refine ⟨_, ⟨left, right, ?_⟩, chars_of_tagAt? delimiting.closer matched⟩
    rw [split, List.append_assoc]
  · intro held
    obtain ⟨tag, ⟨left, right, split⟩, spelled⟩ := held
    apply Classical.byContradiction
    intro tagless
    have chars : ∀ found, .found found ∉ scan d.tagAt? text.toList := by
      intro found member
      obtain ⟨tag, member, _⟩ := mem_tokenize_iff.mp member
      exact tagless ⟨tag, member⟩
    obtain ⟨first, opener, written⟩ := List.exists_cons_of_ne_nil delimiting.opener
    obtain ⟨rest, same⟩ : ∃ rest, d.spell tag ++ right = first :: rest := by simp [spell, written]
    rw [List.append_assoc, same] at split
    have silent := scanned.silent_of_chars chars split.symm
    have found := delimiting.tagAt?_isSome_iff.mpr ⟨tag, ⟨right, same⟩, spelled⟩
    simp [silent] at found

end Delimiters

namespace Tokens

variable {d : Delimiters} {segments other more : List Segment} {here : Nat} {tag : Tag}

/-- Segments are laid out as tokenizing lays out their pieces. -/
theorem eq_layOut (tokens : Tokens d here segments) :
    segments = .literal (String.ofList (Piece.gather (segments.flatMap Segment.pieces)).1) ::
      d.layOut (here + byteLength (Piece.gather (segments.flatMap Segment.pieces)).1)
        (Piece.gather (segments.flatMap Segment.pieces)).2 := by
  induction tokens with
  | last text =>
      have gathered : Piece.gather ([Segment.literal text].flatMap Segment.pieces) =
          (text.toList, []) := by
        simpa [Segment.pieces, Piece.gather] using
          @Piece.gather_chars (List Char × List Char) text.toList []
      rw [gathered, String.ofList_toList]
      rfl
  | @next here text tag rest start stop behind ih =>
      have gathered : Piece.gather ((.literal text :: .tag tag :: rest).flatMap Segment.pieces) =
          (text.toList, ((tag.name.toList, tag.param.toList),
            (Piece.gather (rest.flatMap Segment.pieces)).1) ::
              (Piece.gather (rest.flatMap Segment.pieces)).2) := by
        rw [List.flatMap_cons, List.flatMap_cons, Segment.pieces, Segment.pieces,
          Piece.gather_chars, List.singleton_append, Piece.gather, List.append_nil]
      rw [gathered]
      simp only [Delimiters.layOut, Text.byteLength_eq, String.ofList_toList, ← start, ← stop]
        at ih ⊢
      rw [← ih]

/-- The pieces and the first byte determine the segments. -/
theorem unique (tokens : Tokens d here segments) (others : Tokens d here other)
    (pieces : segments.flatMap Segment.pieces = other.flatMap Segment.pieces) :
    segments = other := by
  rw [tokens.eq_layOut, others.eq_layOut, pieces]

theorem split (tokens : Tokens d here (segments ++ .tag tag :: more)) :
    Tokens d here segments ∧ Tokens d tag.stop more := by
  generalize equal : segments ++ .tag tag :: more = whole at tokens
  induction tokens generalizing segments with
  | last text => rcases segments with _ | ⟨_, _ | _⟩ <;> simp at equal
  | next text start stop behind ih =>
      rcases segments with _ | ⟨literal, _ | ⟨first, segments⟩⟩
      · simp at equal
      · cases equal
        exact ⟨.last text, behind⟩
      · cases equal
        obtain ⟨before, after⟩ := ih rfl
        exact ⟨.next text start stop before, after⟩

end Tokens

end TagTemplate
