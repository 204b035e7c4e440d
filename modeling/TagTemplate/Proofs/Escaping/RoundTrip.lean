import TagTemplate.Escaping
import TagTemplate.Proofs.Lexing.Marked
import TagTemplate.Proofs.Lexing.Tokens

/-!
Escaped tags are restored.

The escaped delimiters begin with a mark and hold it nowhere else, so that none of them can
arise where a literal, a name or a parameter meets another.  A text in which none of them is
spelled is given back by unescaping its escaped form.
-/

namespace TagTemplate

open TagTemplate.Text (Marked Piece Scanned scan cutOnce)

/-- Escaped delimiters that can be told from each other and from the names between them by a
mark in front. -/
structure EscapedDelimiters.Marking (escaped : EscapedDelimiters) (mark : Char) : Prop where
  opener : Marked mark escaped.opener.toList
  separator : Marked mark escaped.separator.toList
  closer : Marked mark escaped.closer.toList
  unnamed : isNameChar mark = false
  apart : ¬ escaped.closer.toList <+: escaped.separator.toList ∧
    ¬ escaped.separator.toList <+: escaped.closer.toList

/-- A text holds none of the escaped delimiters. -/
structure EscapedDelimiters.Unspelled (escaped : EscapedDelimiters) (text : List Char) :
    Prop where
  opener : ¬ escaped.opener.toList <:+: text
  separator : ¬ escaped.separator.toList <:+: text
  closer : ¬ escaped.closer.toList <:+: text

namespace Delimiters

variable {d : Delimiters} {mark : Char} {text : String} {name param rest : List Char}

/-- The characters of a tag that is written with the escaped delimiters. -/
def spellEscaped (d : Delimiters) (tag : List Char × List Char) : List Char :=
  d.escaped.opener.toList ++ (tag.1 ++ (d.escaped.separator.toList ++
    (tag.2 ++ d.escaped.closer.toList)))

/-- The name and the parameter of a tag, the separators in the parameter escaped. -/
def escapedTag (d : Delimiters) (tag : List Char × List Char) : List Char × List Char :=
  (tag.1, (Text.replace d.separator d.escaped.separator (String.ofList tag.2)).toList)

theorem toList_wrapEscaped (name param : String) :
    (d.wrapEscaped name param).toList =
      d.spellEscaped (d.escapedTag (name.toList, param.toList)) := by
  simp [wrapEscaped, spellEscaped, escapedTag]

/-- Escaping keeps what lies between the tags, and writes the tags anew. -/
theorem toList_escape (d : Delimiters) (text : String) :
    (d.escape text).toList =
      Piece.render d.spellEscaped ((scan d.tagAt? text.toList).map (Piece.map d.escapedTag)) := by
  rw [Piece.render_map, ← pieces_tokenize, escape]
  apply toList_join
  · exact fun _ => rfl
  · exact fun tag => toList_wrapEscaped tag.name tag.param

/-- An escaped tag is read as it is written, if its parameter ends at the next closer. -/
theorem escapedTagAt?_spellEscaped (marking : d.escaped.Marking mark)
    (named : ∀ c ∈ name, isNameChar c = true)
    (cut : cutOnce d.escaped.closer.toList (param ++ (d.escaped.closer.toList ++ rest)) =
      some (param, rest)) :
    d.escapedTagAt? (d.spellEscaped (name, param) ++ rest) =
      some ((name, param), (d.spellEscaped (name, param)).length) := by
  have read : d.escapedParamAt? (d.escaped.separator.toList ++
      (param ++ (d.escaped.closer.toList ++ rest))) = some param := by
    simp [escapedParamAt?, Text.isPrefixOf?_append, cut]
  have stops : ∀ c ∈ (d.escaped.separator.toList ++
      (param ++ (d.escaped.closer.toList ++ rest))).head?, isNameChar c = false := by
    obtain ⟨more, written, _⟩ := marking.separator.exists_eq_cons
    simp [written, marking.unnamed]
  have run := Text.longestRun_of_stop named stops read
  simp [escapedTagAt?, spellEscaped, Text.isPrefixOf?_append, run, String.length_toList,
    Nat.add_assoc]

theorem begins_of_escapedTagAt? {found : List Char × List Char} {covered : Nat}
    (matched : d.escapedTagAt? rest = some (found, covered)) :
    d.escaped.opener.toList <+: rest := by
  simp only [escapedTagAt?, Option.bind_eq_bind, Option.bind_eq_some_iff,
    List.isPrefixOf?_eq_some_iff_append_eq] at matched
  obtain ⟨behind, same, _⟩ := matched
  exact ⟨behind, same⟩

/-- A tag whose parameter holds no escaped separator is restored from its escaped form. -/
theorem restore_escapedTag (separator : d.separator ≠ "") (marking : d.escaped.Marking mark)
    (unspelled : ¬ d.escaped.separator.toList <:+: param) :
    d.restore (d.escapedTag (name, param)).1 (d.escapedTag (name, param)).2 =
      d.spell (name, param) := by
  have restored : Text.replace d.escaped.separator d.separator
      (Text.replace d.separator d.escaped.separator (String.ofList param)) =
        String.ofList param := by
    apply Text.replace_replace separator marking.separator
    simpa using unspelled
  simp [restore, escapedTag, restored, toList_wrap]

theorem cutOnce_escapedTag (separator : d.separator ≠ "") (marking : d.escaped.Marking mark)
    (unspelled : ¬ d.escaped.closer.toList <:+: param) (rest : List Char) :
    cutOnce d.escaped.closer.toList ((d.escapedTag (name, param)).2 ++
      (d.escaped.closer.toList ++ rest)) = some ((d.escapedTag (name, param)).2, rest) := by
  rw [escapedTag, Text.toList_replace separator, String.toList_ofList]
  apply Text.cutOnce_render marking.closer
  · exact fun _ => marking.separator
  · exact fun _ => marking.apart
  · -- what the pieces of a parameter spell outside its separators, the parameter spells
    intro spelled
    have found := Piece.infix_render spelled fun _ => d.separator.toList
    rw [Text.render_occurrence (by simpa using separator)] at found
    exact unspelled found

section Restored

variable (valid : d.validate = .ok ()) (marking : d.escaped.Marking mark)
  (unspelled : d.escaped.Unspelled text.toList)

include valid unspelled

/-- The parameter of a tag holds none of the escaped delimiters if the text does not. -/
theorem unspelled_param (member : .found (name, param) ∈ scan d.tagAt? text.toList) :
    d.escaped.Unspelled param := by
  have delimiting := Delimiting.of_validate valid
  have inside : param <:+: d.spell (name, param) := by
    simp only [spell, ← List.append_assoc]
    exact ⟨_, d.closer.toList, rfl⟩
  have within : d.spell (name, param) <:+: text.toList := by
    have written : d.spell (name, param) <:+: Piece.render d.spell (scan d.tagAt? text.toList) :=
      Piece.write_infix_render member
    rwa [(delimiting.reads.scanned text.toList).render_eq] at written
  have part := inside.trans within
  exact ⟨fun found => unspelled.opener (found.trans part),
    fun found => unspelled.separator (found.trans part),
    fun found => unspelled.closer (found.trans part)⟩

include marking

theorem render_restore :
    Piece.render (fun tag => d.restore tag.1 tag.2)
      ((scan d.tagAt? text.toList).map (Piece.map d.escapedTag)) = text.toList := by
  have delimiting := Delimiting.of_validate valid
  have restored : ∀ tag, .found tag ∈ scan d.tagAt? text.toList →
      d.restore (d.escapedTag tag).1 (d.escapedTag tag).2 = d.spell tag := fun tag member =>
    restore_escapedTag (separator_ne_empty valid) marking
      (unspelled_param valid unspelled member).separator
  rw [Piece.render_map, Piece.render_congr restored]
  exact (delimiting.reads.scanned text.toList).render_eq

/-- An escaped text holds the escaped tags, and no other. -/
theorem scanned_escape :
    Scanned d.escapedTagAt? d.spellEscaped (d.escape text).toList
      ((scan d.tagAt? text.toList).map (Piece.map d.escapedTag)) := by
  have delimiting := Delimiting.of_validate valid
  rw [toList_escape]
  apply Text.scanned_of_marked marking.opener
  · exact begins_of_escapedTagAt?
  · intro tag
    obtain ⟨rest, written, _⟩ := marking.opener.exists_eq_cons
    simp [spellEscaped, written]
  · intro tag member rest
    obtain ⟨⟨name, param⟩, found, rfl⟩ := Piece.mem_map_found member
    obtain ⟨_, _, _, matched⟩ := (delimiting.reads.scanned text.toList).exists_match found
    exact escapedTagAt?_spellEscaped marking (chars_of_tagAt? delimiting.closer matched).1
      (cutOnce_escapedTag (separator_ne_empty valid) marking
        (unspelled_param valid unspelled found).closer rest)
  · -- likewise for the text, in which the tags stand as they are restored
    intro spelled
    have found := Piece.infix_render spelled fun tag => d.restore tag.1 tag.2
    rw [render_restore valid marking unspelled] at found
    exact unspelled.opener found

theorem unescape_escape_of_marking : d.unescape (d.escape text) = text := by
  apply String.toList_injective
  rw [unescape, (scanned_escape valid marking unspelled).scan_eq, String.toList_ofList]
  exact render_restore valid marking unspelled

end Restored

theorem marking_default : default.escaped.Marking '&' where
  opener := ⟨by decide, by decide⟩
  separator := ⟨by decide, by decide⟩
  closer := ⟨by decide, by decide⟩
  unnamed := by decide
  apart := by decide

/-- With the default delimiters, a text without an escaped delimiter is given back. -/
theorem unescape_escape (text : String) (opener : ¬ "&#123;".toList <:+: text.toList)
    (separator : ¬ "&#58;".toList <:+: text.toList) (closer : ¬ "&#125;".toList <:+: text.toList) :
    default.unescape (default.escape text) = text := by
  have valid : default.validate = .ok () := by decide
  exact unescape_escape_of_marking valid marking_default ⟨opener, separator, closer⟩

/-- The characters of escaped delimiters may stand around tags and in them. -/
theorem unescape_escape_entities :
    default.escape "&#\x7ba:58;&:#b\x7d123;&\x7b:\x7d\x7b" =
        "&#&#123;a&#58;58;&&#58;#b&#125;123;&&#123;&#58;&#125;\x7b" ∧
      default.unescape (default.escape "&#\x7ba:58;&:#b\x7d123;&\x7b:\x7d\x7b") =
        "&#\x7ba:58;&:#b\x7d123;&\x7b:\x7d\x7b" := by
  constructor
  · decide
  · exact unescape_escape _ (by decide) (by decide) (by decide)

end Delimiters

end TagTemplate
