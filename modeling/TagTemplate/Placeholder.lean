import TagTemplate.Segment
import TagTemplate.Json.Value

/-!
Placeholders: keys in a syntax of their own that are replaced by plain values.

They live beside the tag engine; no handler is involved.  The leaves of a structured
value are reached under dotted keys, and a placeholder without a value stays as it
is.
-/

namespace TagTemplate

open TagTemplate.Text (Matcher)

structure PlaceholderSyntax where
  opener : String
  closer : String
deriving DecidableEq, Repr

/-- A placeholder as it was found: its key and all of its text. -/
structure Placeholder where
  key : List Char
  written : List Char
deriving DecidableEq, Repr

namespace PlaceholderSyntax

/-- The opener is `\x7b:=` and the closer is `\x7d`. -/
def default : PlaceholderSyntax := ⟨"\x7b:=", "\x7d"⟩

instance : Inhabited PlaceholderSyntax := ⟨default⟩

def validate (s : PlaceholderSyntax) : Except TemplateError Unit :=
  if s.opener.isEmpty || s.closer.isEmpty then
    .error (.config "placeholder prefix and suffix must not be empty")
  else .ok ()

/-- Reads white space and the closer behind a key, and returns the white space. -/
def closerAt? (s : PlaceholderSyntax) (cs : List Char) : Option (List Char) :=
  (Text.longestRun Text.isBlank (fun rest => s.closer.toList.isPrefixOf? rest) cs).map Prod.fst

/-- The placeholder at the start of a text: the opener, a key of name characters with
white space around it, and the closer.  The key is the longest one that white
space and the closer can follow. -/
def placeholderAt? (s : PlaceholderSyntax) : Matcher Placeholder := fun cs => do
  let afterOpener ← s.opener.toList.isPrefixOf? cs
  let (before, cs') := afterOpener.span Text.isBlank
  let keyed (rest : List Char) : Option (List Char) :=
    if rest.length < cs'.length then s.closerAt? rest else none
  let (key, behind) ← Text.longestRun isNameChar keyed cs'
  let width := s.opener.length + before.length + key.length + behind.length + s.closer.length
  return (⟨key, cs.take width⟩, width)

def remove (s : PlaceholderSyntax) (text : String) : String :=
  String.ofList <| Text.Piece.render (fun _ => []) (Text.scan s.placeholderAt? text.toList)

/-- The keys of the placeholders of a text, each once, in the order in which they
first appear. -/
def keys (s : PlaceholderSyntax) (text : String) : List String :=
  let found := (Text.matchesOf s.placeholderAt? text.toList).map fun p => String.ofList p.key
  (found.foldl (fun known key => if known.contains key then known else key :: known) []).reverse

end PlaceholderSyntax

namespace Json

/-- A key below another one. -/
def dotted (parent key : String) : String :=
  if parent.isEmpty then key else parent ++ "." ++ key

/-- Adds a leaf, unless it has no key. -/
def leafInto (key : String) (table : Keyed String) (leaf : Value) : Keyed String :=
  if key.isEmpty then table else Keyed.insert key leaf.display table

mutual

/-- Adds the leaves of a value to a table, under keys below `parent`.  Members come
in key order and items in order, and a later leaf replaces an earlier one with
the same key. -/
def Value.flattenInto (parent : String) (table : Keyed String) : Value → Keyed String
  | .object members => flattenMembers parent table members
  | .array items => flattenItems parent 0 table items
  | .null => leafInto parent table .null
  | .bool b => leafInto parent table (.bool b)
  | .number n => leafInto parent table (.number n)
  | .string s => leafInto parent table (.string s)

/-- Adds the leaves of the members of an object. -/
def flattenMembers (parent : String) (table : Keyed String) :
    List (String × Value) → Keyed String
  | [] => table
  | member :: rest => flattenMembers parent (flattenMember parent table member) rest

def flattenMember (parent : String) (table : Keyed String) : String × Value → Keyed String
  | (key, value) => value.flattenInto (dotted parent key) table

/-- Adds the leaves of the items of an array, which are numbered from zero. -/
def flattenItems (parent : String) (index : Nat) (table : Keyed String) :
    List Value → Keyed String
  | [] => table
  | item :: rest =>
    flattenItems parent (index + 1) (item.flattenInto (dotted parent (natText index)) table) rest

end

/-- The leaves of a value under their dotted keys. -/
def Value.flatten (value : Value) : Keyed String :=
  value.flattenInto "" []

end Json

namespace PlaceholderSyntax

/-- The text with a value written for every placeholder whose key has one. -/
def fill (s : PlaceholderSyntax) (text : String) (values : Json.Value) : String :=
  let table := values.flatten
  let write (p : Placeholder) : List Char :=
    match Keyed.find? (String.ofList p.key) table with
    | some value => value.toList
    | none => p.written
  String.ofList (Text.Piece.render write (Text.scan s.placeholderAt? text.toList))

example :
    default.fill "a \x7b:= n \x7d \x7b:=m\x7d" (.object [("n", .number (.integer 3))]) =
      "a 3 \x7b:=m\x7d" := by decide

end PlaceholderSyntax

end TagTemplate
