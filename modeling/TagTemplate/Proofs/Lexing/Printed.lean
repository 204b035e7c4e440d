import TagTemplate.Proofs.Lexing.Wrapped

/-!
Segments are found again in their text.

Where each delimiter is one character of its own, no delimiter but the two at its ends stands in a
tag, apart from separators.  A tag that began in a literal and went on behind it would hold the
opener of the tag that follows, so that the tags of a written text lie in its literals or are the
ones that were written.
-/

namespace TagTemplate

open TagTemplate.Text (Piece Scanned)

/-- A segment without its place in a text. -/
def Segment.unplaced : Segment → Segment
  | .literal text => .literal text
  | .tag t => .tag { t with start := 0, stop := 0 }

/-- Literals and tags in turn, with a literal at both ends. -/
inductive Alternating : List Segment → Prop where
  | last (text : String) : Alternating [.literal text]
  | next (text : String) (tag : Tag) {rest : List Segment} (behind : Alternating rest) :
      Alternating (.literal text :: .tag tag :: rest)

/-- A word without the mark does not reach into a text that begins with it. -/
theorem Text.prefix_of_prefix_append {mark : Char} {word text behind : List Char}
    (absent : mark ∉ word) (ends : ∀ c ∈ behind.head?, c = mark) (found : word <+: text ++ behind) :
    word <+: text := by
  rcases List.prefix_or_prefix_of_prefix found (List.prefix_append text behind) with within | longer
  · exact within
  · obtain ⟨more, rfl⟩ := longer
    rw [List.prefix_append_right_inj] at found
    cases more with
    | nil => simp
    | cons c more =>
        obtain ⟨rest, rfl⟩ := found
        have first : c = mark := ends c (by simp)
        simp [first] at absent

namespace Delimiters

/-- Three different characters, none of which may stand in a name. -/
structure Single (d : Delimiters) (opener separator closer : Char) : Prop where
  opens : d.opener.toList = [opener]
  separates : d.separator.toList = [separator]
  closes : d.closer.toList = [closer]
  apart : opener ≠ separator ∧ opener ≠ closer ∧ separator ≠ closer
  unnamed : isNameChar opener = false ∧ isNameChar separator = false ∧ isNameChar closer = false

/-- No tag is spelled in a text. -/
def Plain (d : Delimiters) (text : List Char) : Prop :=
  ∀ tag : List Char × List Char, (∀ c ∈ tag.1, isNameChar c = true) →
    (∀ c ∈ tag.2, d.isParamChar c = true) → ¬ d.spell tag <:+: text

variable {d : Delimiters} {opener separator closer : Char} {literal behind : List Char}
  {pieces : List (Piece (List Char × List Char))} {segments : List Segment}

theorem Delimiting.plain_of_tokenize (delimiting : d.Delimiting) {text : String}
    (alone : d.tokenize text = [.literal text]) : d.Plain text.toList := by
  intro tag named allowed spelled
  obtain ⟨found, member⟩ := delimiting.exists_tag_iff.mpr ⟨tag, spelled, named, allowed⟩
  simp [alone] at member

namespace Single

theorem delimiting (single : d.Single opener separator closer) : d.Delimiting :=
  ⟨by simp [single.opens], by simp [single.closes]⟩

theorem isParamChar_iff (single : d.Single opener separator closer) {c : Char} :
    d.isParamChar c = true ↔ c ≠ opener ∧ c ≠ closer := by
  simp [isParamChar, single.opens, single.closes]

/-- Behind its first character a tag holds no opener. -/
theorem spell_eq (single : d.Single opener separator closer) (tag : List Char × List Char)
    (named : ∀ c ∈ tag.1, isNameChar c = true) (allowed : ∀ c ∈ tag.2, d.isParamChar c = true) :
    ∃ rest, d.spell tag = opener :: rest ∧ opener ∉ rest := by
  have unnamed : opener ∉ tag.1 := fun member => by
    simpa [single.unnamed.1] using named opener member
  have refused : opener ∉ tag.2 := fun member =>
    (single.isParamChar_iff.mp (allowed opener member)).1 rfl
  refine ⟨tag.1 ++ (separator :: (tag.2 ++ [closer])), ?_, ?_⟩
  · simp [spell, single.opens, single.separates, single.closes]
  · simp [unnamed, refused, single.apart]

/-- A tag holds no second opener, so that it ends where an opener follows at the latest. -/
theorem exists_spelled_of_tagAt? (single : d.Single opener separator closer) {c : Char}
    (ends : ∀ c ∈ behind.head?, c = opener)
    (found : (d.tagAt? (c :: (literal ++ behind))).isSome = true) :
    ∃ tag, d.spell tag <+: c :: literal ∧ (∀ c ∈ tag.1, isNameChar c = true) ∧
      ∀ c ∈ tag.2, d.isParamChar c = true := by
  obtain ⟨tag, spelled, named, allowed⟩ := single.delimiting.tagAt?_isSome_iff.mp found
  obtain ⟨inside, written, absent⟩ := single.spell_eq tag named allowed
  rw [written, List.cons_prefix_cons] at spelled
  obtain ⟨rfl, spelled⟩ := spelled
  have within := Text.prefix_of_prefix_append absent ends spelled
  refine ⟨tag, ?_, named, allowed⟩
  rw [written]
  exact List.cons_prefix_cons.mpr ⟨rfl, within⟩

/-- No tag begins in a literal, if an opener or nothing follows it. -/
theorem scanned_literal (single : d.Single opener separator closer) (plain : d.Plain literal)
    (ends : ∀ c ∈ behind.head?, c = opener) (scanned : Scanned d.tagAt? d.spell behind pieces) :
    Scanned d.tagAt? d.spell (literal ++ behind) (literal.map .char ++ pieces) := by
  induction literal with
  | nil => exact scanned
  | cons c literal ih =>
      have rest := ih fun tag named allowed spelled =>
        plain tag named allowed (List.infix_cons spelled)
      refine .char ?_ rest
      rw [← Option.not_isSome_iff_eq_none]
      intro found
      obtain ⟨tag, spelled, named, allowed⟩ := single.exists_spelled_of_tagAt? ends found
      exact plain tag named allowed spelled.isInfix

theorem scanned_detokenize (single : d.Single opener separator closer)
    (alternating : Alternating segments)
    (plain : ∀ text, .literal text ∈ segments → d.Plain text.toList)
    (tags : ∀ tag, .tag tag ∈ segments → (∀ c ∈ tag.name.toList, isNameChar c = true) ∧
      ∀ c ∈ tag.param.toList, d.isParamChar c = true) :
    Scanned d.tagAt? d.spell (d.detokenize segments).toList (segments.flatMap Segment.pieces) := by
  rw [toList_detokenize]
  induction alternating with
  | last text =>
      have scanned := single.scanned_literal (plain text (by simp)) (by simp) .nil
      simpa [Segment.pieces, Piece.render_chars] using scanned
  | @next text tag rest alternating ih =>
      have behind := ih (fun text member => plain text (by simp [member]))
        (fun tag member => tags tag (by simp [member]))
      obtain ⟨named, allowed⟩ := tags tag (by simp)
      have stop : ∃ c ∈ d.separator.toList, isNameChar c = false :=
        ⟨separator, by simp [single.separates], single.unnamed.2.1⟩
      obtain ⟨inside, written, _⟩ :=
        single.spell_eq (tag.name.toList, tag.param.toList) named allowed
      have found : Scanned d.tagAt? d.spell _ (.found (tag.name.toList, tag.param.toList) :: _) :=
        .found (by simp [written]) (single.delimiting.tagAt?_spell stop named allowed _) behind
      have scanned := single.scanned_literal (plain text (by simp)) (by simp [written]) found
      simpa [Segment.pieces, Piece.render_chars] using scanned

end Single

end Delimiters

@[simp] theorem Segment.pieces_unplaced {segment : Segment} :
    segment.unplaced.pieces = segment.pieces := by
  cases segment <;> rfl

theorem Alternating.exists_tokens {segments : List Segment} (alternating : Alternating segments)
    (d : Delimiters) (here : Nat) :
    ∃ placed, Tokens d here placed ∧
      placed.map Segment.unplaced = segments.map Segment.unplaced := by
  induction alternating generalizing here with
  | last text => exact ⟨_, .last text, rfl⟩
  | @next text tag rest alternating ih =>
      let start := here + text.utf8ByteSize
      let stop := start + (d.wrap tag.name tag.param).utf8ByteSize
      obtain ⟨placed, tokens, same⟩ := ih stop
      refine ⟨.literal text :: .tag { tag with start, stop } :: placed, .next text rfl rfl tokens, ?_⟩
      simp [same, Segment.unplaced]

namespace Delimiters

variable {d : Delimiters} {opener separator closer : Char} {segments : List Segment}

/-- Tokenizing undoes writing: what was written as alternating segments is read as the same
literals, names and parameters. -/
theorem tokenize_of_written (single : d.Single opener separator closer)
    (alternating : Alternating segments)
    (literals : ∀ text, .literal text ∈ segments → d.tokenize text = [.literal text])
    (tags : ∀ tag, .tag tag ∈ segments → (∀ c ∈ tag.name.toList, isNameChar c = true) ∧
      ∀ c ∈ tag.param.toList, c ≠ opener ∧ c ≠ closer) :
    (d.tokenize (d.detokenize segments)).map Segment.unplaced = segments.map Segment.unplaced := by
  obtain ⟨placed, tokens, same⟩ := alternating.exists_tokens d 0
  have pieces : placed.flatMap Segment.pieces = segments.flatMap Segment.pieces := by
    have flat := congrArg (List.flatMap Segment.pieces) same
    simpa [List.flatMap_map] using flat
  have scanned := single.scanned_detokenize alternating
    (fun text member => single.delimiting.plain_of_tokenize (literals text member))
    (fun tag member => (tags tag member).imp_right fun apart c inside =>
      single.isParamChar_iff.mpr (apart c inside))
  have read : d.tokenize (d.detokenize segments) = placed := by
    apply (d.tokenize_tokens _).unique tokens
    rw [pieces_tokenize, scanned.scan_eq, pieces]
  rw [read, same]

theorem single_default : default.Single '\x7b' ':' '\x7d' where
  opens := by decide
  separates := by decide
  closes := by decide
  apart := by decide
  unnamed := by decide

/-- Half a tag in front of a tag, separators in a parameter, and half tags on both sides of a
closing tag. -/
theorem tokenize_of_written_halves :
    let segments : List Segment := [.literal "\x7ba:", .tag ⟨"b", ":c:", 9, 9⟩,
      .literal "d:\x7d\x7be", .tag ⟨"", " b ", 0, 0⟩, .literal ":\x7d"]
    (default.tokenize "\x7ba:\x7bb::c:\x7dd:\x7d\x7be\x7b: b \x7d:\x7d").map Segment.unplaced =
      segments.map Segment.unplaced := by
  intro segments
  have alternating : Alternating segments := .next _ _ (.next _ _ (.last _))
  have literals : ∀ text, .literal text ∈ segments →
      default.tokenize text = [.literal text] := by
    intro text member
    simp only [segments, List.mem_cons, Segment.literal.injEq, reduceCtorEq, false_or,
      List.not_mem_nil, or_false] at member
    rcases member with rfl | rfl | rfl <;> decide
  have tags : ∀ tag, .tag tag ∈ segments → (∀ c ∈ tag.name.toList, isNameChar c = true) ∧
      ∀ c ∈ tag.param.toList, c ≠ '\x7b' ∧ c ≠ '\x7d' := by
    intro tag member
    simp only [segments, List.mem_cons, Segment.tag.injEq, reduceCtorEq, false_or,
      List.not_mem_nil, or_false] at member
    rcases member with rfl | rfl
    · exact ⟨List.all_eq_true.mp (by decide), by simp⟩
    · exact ⟨List.all_eq_true.mp (by decide), by simp⟩
  have written : default.detokenize segments =
      "\x7ba:\x7bb::c:\x7dd:\x7d\x7be\x7b: b \x7d:\x7d" := by decide
  rw [← written]
  exact tokenize_of_written single_default alternating literals tags

end Delimiters

end TagTemplate
