import TagTemplate.Proofs.Escaping.RoundTrip

/-!
When an escaped text has no tag.

Escaping rewrites the tags of a text and nothing else.  Braces outside the tags stay, and a
brace that could not open a tag because of a tag in its parameter may open one once that tag
has been rewritten.
-/

namespace TagTemplate

open TagTemplate.Text (Piece scan)

namespace Text

theorem mem_replace {pattern replacement text : String} {c : Char} (nonempty : pattern ≠ "")
    (member : c ∈ (replace pattern replacement text).toList) :
    c ∈ replacement.toList ∨ c ∈ text.toList := by
  rw [toList_replace nonempty, Piece.mem_render_iff] at member
  rcases member with kept | ⟨_, _, replaced⟩
  · have whole := render_occurrence (by simpa using nonempty : pattern.toList ≠ []) text.toList
    rw [← whole]
    exact .inr (Piece.mem_render_iff.mpr (.inl kept))
  · exact .inl replaced

end Text

namespace Delimiters

variable {pieces : List (Piece (List Char × List Char))}

/-- The characters outside the tags open a tag, and close it without a brace in between. -/
def Framed (d : Delimiters) (pieces : List (Piece (List Char × List Char))) : Prop :=
  ∃ before name middle after,
    pieces = before ++ ((d.opener.toList ++ (name ++ d.separator.toList)).map .char ++
      (middle ++ (d.closer.toList.map .char ++ after))) ∧
    (∀ c ∈ name, isNameChar c = true) ∧ ∀ c, .char c ∈ middle → d.isParamChar c = true

theorem isParamChar_default_iff {c : Char} :
    default.isParamChar c = true ↔ c ≠ '\x7b' ∧ c ≠ '\x7d' := by
  simp [isParamChar, default]

theorem isParamChar_of_isNameChar {c : Char} (named : isNameChar c = true) :
    default.isParamChar c = true := by
  refine isParamChar_default_iff.mpr ⟨?_, ?_⟩ <;> intro brace <;> subst brace <;>
    exact absurd named (by decide)

theorem isParamChar_of_mem_escaped {tag : List Char × List Char} {c : Char}
    (named : ∀ c ∈ tag.1, isNameChar c = true) (allowed : ∀ c ∈ tag.2, default.isParamChar c = true)
    (member : c ∈ default.spellEscaped (default.escapedTag tag)) :
    default.isParamChar c = true := by
  have opener : ∀ c ∈ default.escaped.opener.toList, default.isParamChar c = true := by
    simp [isParamChar, default]
  have separator : ∀ c ∈ default.escaped.separator.toList, default.isParamChar c = true := by
    simp [isParamChar, default]
  have closer : ∀ c ∈ default.escaped.closer.toList, default.isParamChar c = true := by
    simp [isParamChar, default]
  simp only [spellEscaped, escapedTag, List.mem_append] at member
  rcases member with inOpener | inName | inSeparator | inParam | inCloser
  · exact opener c inOpener
  · exact isParamChar_of_isNameChar (named c inName)
  · exact separator c inSeparator
  · rcases Text.mem_replace (by decide) inParam with inSeparator | kept
    · exact separator c inSeparator
    · exact allowed c (by simpa using kept)
  · exact closer c inCloser

section Spelled

variable {write : List Char × List Char → List Char}

theorem spell_default (name param : List Char) :
    default.spell (name, param) = '\x7b' :: (name ++ ':' :: (param ++ ['\x7d'])) := rfl

/-- A tag that is spelled by pieces begins and ends outside the tags among them. -/
theorem framed_of_spelled (starts : ∀ tag, (write tag).head? = some '&')
    (braceless : ∀ tag, .found tag ∈ pieces → ∀ c ∈ write tag, default.isParamChar c = true)
    {tag : List Char × List Char} (spelled : default.spell tag <:+: Piece.render write pieces)
    (named : ∀ c ∈ tag.1, isNameChar c = true) (allowed : ∀ c ∈ tag.2, default.isParamChar c = true) :
    default.Framed pieces := by
  obtain ⟨name, param⟩ := tag
  obtain ⟨left, right, same⟩ := spelled
  have whole : Piece.render write pieces =
      left ++ '\x7b' :: ((name ++ [':']) ++ (param ++ '\x7d' :: right)) := by
    rw [← same, spell_default]
    simp
  -- the opening brace lies outside the tags
  obtain ⟨before, behind, rfl, _, here⟩ := Piece.split_at_char (c := '\x7b')
    (fun tag member brace => absurd (braceless tag member _ brace) (by decide)) whole
  -- no escaped tag begins in a name or in the separator behind it
  have unmarked : '&' ∉ name ++ [':'] := by
    intro mark
    rcases List.mem_append.mp mark with inName | inSeparator
    · exact absurd (named _ inName) (by decide)
    · exact absurd inSeparator (by decide)
  have heads : name ++ [':'] <+: Piece.render write behind ++ [] := by
    rw [List.append_nil, here]
    apply List.prefix_append
  obtain ⟨rest, rfl⟩ := Piece.chars_of_prefix starts (by simp) unmarked heads
  rw [Piece.render_append, Piece.render_chars, List.append_cancel_left_eq] at here
  -- the closing brace lies outside the tags again
  obtain ⟨middle, after, rfl, inside, _⟩ := Piece.split_at_char (c := '\x7d')
    (fun tag member brace => absurd (braceless tag (by simp [member]) _ brace) (by decide)) here
  refine ⟨before, name, middle, after, by simp [default], named, fun c member => allowed c ?_⟩
  rw [← inside]
  exact Piece.mem_render_iff.mpr (.inl member)

theorem spelled_of_framed
    (braceless : ∀ tag, .found tag ∈ pieces → ∀ c ∈ write tag, default.isParamChar c = true)
    (framed : default.Framed pieces) :
    ∃ tag, default.spell tag <:+: Piece.render write pieces ∧
      (∀ c ∈ tag.1, isNameChar c = true) ∧ ∀ c ∈ tag.2, default.isParamChar c = true := by
  obtain ⟨before, name, middle, after, rfl, named, clear⟩ := framed
  refine ⟨(name, Piece.render write middle),
    ⟨Piece.render write before, Piece.render write after, ?_⟩, named, ?_⟩
  · simp [spell, Piece.render_chars]
  · intro c member
    rcases Piece.mem_render_iff.mp member with outside | ⟨tag, found, inside⟩
    · exact clear c outside
    · exact braceless tag (by simp [found]) c inside

end Spelled

/-- An escaped text has a tag exactly if tags of the text are framed by what is outside them. -/
theorem exists_tag_escape_iff (text : String) :
    (∃ tag, .tag tag ∈ default.tokenize (default.escape text)) ↔
      default.Framed (scan default.tagAt? text.toList) := by
  have delimiting : default.Delimiting := ⟨by decide, by decide⟩
  have starts : ∀ tag, (default.spellEscaped (default.escapedTag tag)).head? = some '&' :=
    fun _ => rfl
  have braceless : ∀ tag, .found tag ∈ scan default.tagAt? text.toList →
      ∀ c ∈ default.spellEscaped (default.escapedTag tag), default.isParamChar c = true := by
    intro tag member c inside
    obtain ⟨_, _, _, matched⟩ := (delimiting.reads.scanned text.toList).exists_match member
    obtain ⟨named, allowed⟩ := chars_of_tagAt? delimiting.closer matched
    exact isParamChar_of_mem_escaped named allowed inside
  rw [delimiting.exists_tag_iff, toList_escape, Piece.render_map]
  constructor
  · intro held
    obtain ⟨tag, spelled, named, allowed⟩ := held
    exact framed_of_spelled starts braceless spelled named allowed
  · exact spelled_of_framed braceless

/-- An escaped text is plain exactly if no tags of the text are framed by what is outside
them. -/
theorem tokenize_escape_iff (text : String) :
    default.tokenize (default.escape text) = [.literal (default.escape text)] ↔
      ¬ default.Framed (scan default.tagAt? text.toList) := by
  have delimiting : default.Delimiting := ⟨by decide, by decide⟩
  rw [← exists_tag_escape_iff]
  constructor
  · intro plain held
    obtain ⟨tag, member⟩ := held
    simp [plain] at member
  · intro tagless
    apply delimiting.tokenize_of_no_tag
    exact fun tag member => tagless ⟨tag, member⟩

/-- An opening brace and a name in front of a tag are left, and open a tag of the escaped
text. -/
theorem tokenize_escape_framed :
    default.escape "\x7ba:\x7bb:\x7d\x7d" = "\x7ba:&#123;b&#58;&#125;\x7d" ∧
      default.tokenize (default.escape "\x7ba:\x7bb:\x7d\x7d") =
        [.literal "", .tag ⟨"a", "&#123;b&#58;&#125;", 0, 22⟩, .literal ""] := by
  decide

end Delimiters

end TagTemplate
