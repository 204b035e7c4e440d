import TagTemplate.Segment
import TagTemplate.Text.Cut

/-!
Escaping tags.

`escape` writes every tag of a text with the escaped delimiters, so that a later
expansion sees plain text; `unescape` restores tags written that way.  Text outside
tags is never touched.
-/

namespace TagTemplate.Delimiters

open TagTemplate.Text (Matcher)

/-- Writes a tag with the escaped delimiters, inside its parameter too. -/
def wrapEscaped (d : Delimiters) (name param : String) : String :=
  d.escaped.opener ++ name ++ d.escaped.separator ++
    Text.replace d.separator d.escaped.separator param ++ d.escaped.closer

def escape (d : Delimiters) (text : String) : String :=
  String.join <| (d.tokenize text).map fun
    | .literal text => text
    | .tag tag => d.wrapEscaped tag.name tag.param

/-- Reads what follows the name of an escaped tag: the separator and a parameter that
ends at the next closer.  Returns the parameter. -/
def escapedParamAt? (d : Delimiters) (cs : List Char) : Option (List Char) := do
  let cs ← d.escaped.separator.toList.isPrefixOf? cs
  let (param, _) ← Text.cutOnce d.escaped.closer.toList cs
  return param

/-- The name and the parameter of the escaped tag at the start of a text. -/
def escapedTagAt? (d : Delimiters) : Matcher (List Char × List Char) := fun cs => do
  let cs ← d.escaped.opener.toList.isPrefixOf? cs
  let (name, param) ← Text.longestRun isNameChar d.escapedParamAt? cs
  return ((name, param),
    d.escaped.opener.length + name.length + d.escaped.separator.length + param.length +
      d.escaped.closer.length)

/-- Writes a tag that was read in its escaped form. -/
def restore (d : Delimiters) (name param : List Char) : List Char :=
  let param := Text.replace d.escaped.separator d.separator (String.ofList param)
  (d.wrap (String.ofList name) param).toList

def unescape (d : Delimiters) (text : String) : String :=
  let pieces := Text.scan d.escapedTagAt? text.toList
  String.ofList (Text.Piece.render (fun (name, param) => d.restore name param) pieces)

example : default.escape "x\x7ba:b:c\x7dy" = "x&#123;a&#58;b&#58;c&#125;y" := by decide

example : default.unescape "&#58; &#123;a&#58;&#125;" = "&#58; \x7ba:\x7d" := by decide

end TagTemplate.Delimiters
