import TagTemplate.Json.Value
import TagTemplate.Xml.Node

/-!
Calls of tags, as handlers see them: the parameter and the body in their decoded
shapes, and where the call comes from.
-/

namespace TagTemplate

inductive Param where
  | text (text : String)
  | list (items : List String)
deriving DecidableEq, Repr

namespace Param

/-- The text of a scalar parameter; empty for a list. -/
def asText : Param → String
  | .text s => s
  | .list _ => ""

/-- The items of a list parameter; none for a scalar. -/
def items : Param → List String
  | .text _ => []
  | .list items => items

/-- Whether a parameter is the empty text or the empty list. -/
def isEmpty : Param → Bool
  | .text s => s.isEmpty
  | .list items => items.isEmpty

end Param

inductive Body where
  /-- the tag has no body -/
  | none
  | text (text : String)
  | map (entries : Keyed String)
  | json (value : Json.Value)
  | list (items : List String)
  | xml (node : Xml.Node)
deriving Repr

namespace Body

/-- The text of a text body; empty for any other shape. -/
def asText : Body → String
  | .text s => s
  | _ => ""

/-- The items of a list body; none for any other shape. -/
def items : Body → List String
  | .list items => items
  | _ => []

def isNone : Body → Bool
  | .none => true
  | _ => false

end Body

structure TagCall where
  /-- the name of the binding that handles the call -/
  name : String
  /-- the name as written in the source -/
  tag : String
  param : Param
  body : Body
  /-- the byte position of the tag in its source -/
  offset : Nat
  /-- the output of the whole document, while a deferred call is replayed -/
  document : Option String
deriving Repr

end TagTemplate
