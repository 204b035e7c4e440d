import TagTemplate.Xml.Markup

/-!
Building an element tree from markup.

The builder reads one piece of markup after the other and keeps the open elements,
innermost first.  The first fault ends it.
-/

namespace TagTemplate.Xml

structure Builder where
  opened : List Node
  root : Option Node
deriving Repr

namespace Builder

def start : Builder := ⟨[], none⟩

/-- Puts a complete element into the innermost open one, or makes it the root. -/
def attach (node : Node) (builder : Builder) : Except Fault Builder :=
  match builder.opened with
  | parent :: outer =>
    .ok { builder with opened := { parent with children := parent.children ++ [node] } :: outer }
  | [] =>
    match builder.root with
    | some _ => .error .secondRoot
    | none => .ok { builder with root := some node }

/-- Adds character data to the innermost open element.  Outside the root only blanks
may stand. -/
def addText (content : List Char) (builder : Builder) : Except Fault Builder :=
  match builder.opened with
  | node :: outer =>
    .ok { builder with opened := { node with text := node.text ++ String.ofList content } :: outer }
  | [] => if content.all Text.isBlank then .ok builder else .error .strayText

/-- Closes the innermost element, whose name must be that of the end tag. -/
def close (name : String) (builder : Builder) : Except Fault Builder :=
  match builder.opened with
  | node :: outer =>
    if node.name = name then attach node { builder with opened := outer } else .error .malformed
  | [] => .error .malformed

def step (builder : Builder) : Markup → Except Fault Builder
  | .start name attributes =>
    .ok { builder with opened := Node.leaf name attributes :: builder.opened }
  | .empty name attributes => attach (Node.leaf name attributes) builder
  | .stop name => close name builder
  | .text content => addText content builder
  | .skipped => .ok builder

/-- Reads a whole text.  The first `skip` characters belong to a piece that has been
read already. -/
def read (builder : Builder) : Nat → List Char → Except Fault Builder
  | _, [] => .ok builder
  | skip + 1, _ :: cs => read builder skip cs
  | 0, c :: cs =>
    match markupAt? (c :: cs) with
    | some (markup, covered) =>
      match builder.step markup with
      | .ok next => read next (covered - 1) cs
      | .error fault => .error fault
    | none => .error .malformed

/-- The tree, once all elements are closed. -/
def result (builder : Builder) : Except Fault Node :=
  match builder.opened with
  | node :: _ => .error (.unclosed node.name)
  | [] =>
    match builder.root with
    | some node => .ok node
    | none => .error .noRoot

end Builder

/-- The element tree of a text with exactly one root element. -/
def Node.parse (text : String) : Except Fault Node := do
  (← Builder.start.read 0 (Text.dropMark text.toList)).result

end TagTemplate.Xml
