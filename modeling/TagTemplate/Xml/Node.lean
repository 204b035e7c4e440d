import TagTemplate.Data.Keyed

/-!
Element trees, the decoded form of markup bodies.

An element keeps its attributes in key order, its child elements in document
order, and all character data directly inside it as one text.
-/

namespace TagTemplate.Xml

structure Node where
  name : String
  attributes : List (String × String)
  children : List Node
  text : String
deriving Repr, Inhabited

namespace Node

def leaf (name : String) (attributes : Keyed String) : Node :=
  ⟨name, attributes, [], ""⟩

def child? (name : String) (node : Node) : Option Node :=
  node.children.find? fun child => child.name == name

def attribute? (key : String) (node : Node) : Option String :=
  Keyed.find? key node.attributes

end Node

/-- What can be wrong with a markup body. -/
inductive Fault where
  /-- a second element beside the root -/
  | secondRoot
  /-- no element at all -/
  | noRoot
  /-- character data outside the root element -/
  | strayText
  /-- the text ends inside an element -/
  | unclosed (name : String)
  /-- markup that does not follow the grammar -/
  | malformed
deriving DecidableEq, Repr

def Fault.message : Fault → String
  | .secondRoot => "more than one root element"
  | .noRoot => "no root element"
  | .strayText => "text outside the root element"
  | .unclosed name => "unclosed element <" ++ name ++ ">"
  | .malformed => "malformed markup"

end TagTemplate.Xml
