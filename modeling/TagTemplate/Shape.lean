import TagTemplate.Call
import TagTemplate.Convention
import TagTemplate.Json.Reader
import TagTemplate.Xml.Tree

/-!
Decoding parameters and bodies into the shapes that a convention declares.
-/

namespace TagTemplate

/-- The separators of list bodies and of the entries of key-value bodies. -/
structure ShapeSyntax where
  listDelimiter : String
  keyValueSeparator : String
deriving DecidableEq, Repr

/-- Items are separated by `|#|`, and a key and its value by an equals sign. -/
def ShapeSyntax.default : ShapeSyntax := ⟨"|#|", "="⟩

instance : Inhabited ShapeSyntax := ⟨ShapeSyntax.default⟩

inductive BodyFault where
  | missingSeparator (entry separator : String)
  | emptyKey (entry : String)
  | json
  | xml (fault : Xml.Fault)
deriving DecidableEq, Repr

def BodyFault.message : BodyFault → String
  | .missingSeparator entry separator => "entry '" ++ entry ++ "' has no '" ++ separator ++ "'"
  | .emptyKey entry => "entry '" ++ entry ++ "' has an empty key"
  | .json => "malformed value"
  | .xml fault => fault.message

namespace Shape

/-- The trimmed pieces between the delimiters of a text; none if the text is blank. -/
def splitTrimmed (text delimiter : String) : List String :=
  if Text.allBlank text then [] else (Text.split delimiter text).map Text.trim

/-- The key and the value of an entry. -/
def entry (separator text : String) : Except BodyFault (String × String) :=
  match Text.splitOnce separator text with
  | none => .error (.missingSeparator text separator)
  | some (key, value) =>
    let key := Text.trim key
    if key.isEmpty then .error (.emptyKey text) else .ok (key, Text.trim value)

/-- The entries of a key-value body as they are written: the pieces between list
delimiters if the text has one, else its lines; trimmed, and without blank ones. -/
def entryTexts (s : ShapeSyntax) (text : String) : List String :=
  let delimiter :=
    if Text.occurs s.listDelimiter.toList text.toList then s.listDelimiter else "\n"
  ((Text.split delimiter text).map Text.trim).filter fun entry => !entry.isEmpty

/-- Reads key-value entries; a later entry replaces an earlier one with its key. -/
def keyValues (s : ShapeSyntax) (text : String) : Except BodyFault (Keyed String) :=
  (entryTexts s text).foldlM
    (fun table text => do
      let (key, value) ← entry s.keyValueSeparator text
      return Keyed.insert key value table)
    []

def decodeParam (shape : ParamShape) (separator text : String) : Param :=
  match shape with
  | .scalar => .text text
  | .list => .list (splitTrimmed text separator)
  | .commaList => .list (splitTrimmed text ",")

def decodeBody (s : ShapeSyntax) (shape : BodyShape) (text : String) : Except BodyFault Body :=
  match shape with
  | .text => .ok (.text text)
  | .keyValue => (keyValues s text).map .map
  | .json =>
    match Json.Value.parse? (Text.trim text) with
    | some value => .ok (.json value)
    | none => .error .json
  | .list => .ok (.list (splitTrimmed text s.listDelimiter))
  | .commaList => .ok (.list (splitTrimmed text ","))
  | .xml =>
    match Xml.Node.parse text with
    | .ok node => .ok (.xml node)
    | .error fault => .error (.xml fault)

end Shape

end TagTemplate
