import TagTemplate.Delimiters
import TagTemplate.Text.Blank
import TagTemplate.Text.Excerpt
import TagTemplate.Text.Scan

/-!
Template text as a sequence of literals and tags.

`tokenize` cuts a text at its tags, so that the sequence starts and ends with a
literal and alternates; `detokenize` writes a sequence back.  A tag without a name
is a close tag, and its parameter names the tag it closes.
-/

namespace TagTemplate

open TagTemplate.Text (Matcher)

/-- A tag found in a text, with the byte positions at which it starts and stops. -/
structure Tag where
  name : String
  param : String
  start : Nat
  stop : Nat
deriving DecidableEq, Repr

namespace Tag

/-- A close tag has no name. -/
def isClose (tag : Tag) : Bool :=
  tag.name.isEmpty

/-- The name of the tag that a close tag refers to; empty if it closes any tag. -/
def closeName (tag : Tag) : String :=
  Text.trim tag.param

def ref (d : Delimiters) (tag : Tag) : TagRef :=
  ⟨d.wrap tag.name tag.param, tag.start⟩

end Tag

inductive Segment where
  | literal (text : String)
  | tag (tag : Tag)
deriving DecidableEq, Repr

namespace Segment

def tag? : Segment → Option Tag
  | .literal _ => none
  | .tag t => some t

def text (d : Delimiters) : Segment → String
  | .literal s => s
  | .tag t => d.wrap t.name t.param

end Segment

namespace Delimiters

/-- A parameter does not contain the first character of the opener or the closer, so
that an inner tag is cut before an outer one. -/
def isParamChar (d : Delimiters) (c : Char) : Bool :=
  some c != d.opener.toList.head? && some c != d.closer.toList.head?

/-- Reads what follows the name of a tag: the separator, a parameter and the
closer.  Returns the parameter. -/
def paramAt? (d : Delimiters) (cs : List Char) : Option (List Char) := do
  let cs ← d.separator.toList.isPrefixOf? cs
  let (param, cs) := cs.span d.isParamChar
  if d.closer.toList.isPrefixOf cs then some param else none

/-- The name and the parameter of the tag at the start of a text.  The name is the
longest run of name characters that a separator, a parameter and a closer follow. -/
def tagAt? (d : Delimiters) : Matcher (List Char × List Char) := fun cs => do
  let cs ← d.opener.toList.isPrefixOf? cs
  let (name, param) ← Text.longestRun isNameChar d.paramAt? cs
  return ((name, param),
    d.opener.length + name.length + d.separator.length + param.length + d.closer.length)

/-- Lays tags and the literals behind them out from a byte position. -/
def layOut (d : Delimiters) (start : Nat) :
    List ((List Char × List Char) × List Char) → List Segment
  | [] => []
  | ((name, param), literal) :: rest =>
    let name := String.ofList name
    let param := String.ofList param
    let stop := start + (d.wrap name param).utf8ByteSize
    .tag ⟨name, param, start, stop⟩ :: .literal (String.ofList literal) ::
      d.layOut (stop + Text.byteLength literal) rest

def tokenize (d : Delimiters) (text : String) : List Segment :=
  let (first, rest) := Text.Piece.gather (Text.scan d.tagAt? text.toList)
  .literal (String.ofList first) :: d.layOut (Text.byteLength first) rest

def detokenize (d : Delimiters) (segments : List Segment) : String :=
  String.join (segments.map (Segment.text d))

/-- Whether an open tag called `name` occurs in a text: whether a tag starts at one of
the occurrences of the opener, the name and the separator in a row. -/
def hasTag (d : Delimiters) (text name : String) : Bool :=
  if name.isEmpty then false
  else
    let head := (d.opener ++ name ++ d.separator).toList
    let occurrence : Matcher Bool := fun cs =>
      if head.isPrefixOf cs then some ((d.tagAt? cs).isSome, head.length) else none
    (Text.matchesOf occurrence text.toList).any id

example :
    default.tokenize "\x7ba:\x7bb:\x7d\x7d" =
      [.literal "\x7ba:", .tag ⟨"b", "", 3, 7⟩, .literal "\x7d"] := by decide

end Delimiters

end TagTemplate
