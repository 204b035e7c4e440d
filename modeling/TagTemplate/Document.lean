import TagTemplate.Pairing

/-!
Template text together with its segments and the roles of its tags.

`outline` lists what the evaluation of a range of segments has to do.
-/

namespace TagTemplate

/-- A template text that has been tokenized and matched. -/
structure Document where
  source : String
  segments : Array Segment
  roles : Roles
deriving DecidableEq, Repr

/-- What evaluation meets at one place of a range. -/
inductive Item where
  | text (text : String)
  /-- an open tag at a position, with the position of its close tag -/
  | call (index : Nat) (tag : Tag) (closer : Option Nat)
  /-- a close tag without an open tag -/
  | dangling (tag : Tag)
  /-- a tag without a role -/
  | unresolved (tag : Tag)
deriving DecidableEq, Repr

namespace Document

/-- The document without any text, not even a literal. -/
def empty : Document := ⟨"", #[], #[]⟩

def parse (d : Delimiters) (source : String) : Except TemplateError Document := do
  let segments := (d.tokenize source).toArray
  let roles ← Pairing.pairTags segments d
  return ⟨source, segments, roles⟩

def size (document : Document) : Nat :=
  document.segments.size

/-- The number of tags in an alternating sequence of segments. -/
def tagCount (document : Document) : Nat :=
  document.size / 2

def tag? (document : Document) (index : Nat) : Option Tag :=
  document.segments[index]?.bind Segment.tag?

def role? (document : Document) (index : Nat) : Option Role :=
  (document.roles[index]?).join

def closer? (document : Document) (index : Nat) : Option Nat :=
  match document.role? index with
  | some (.closedAt closer) => some closer
  | _ => none

/-- The segments from `start` up to but not including `stop`. -/
def range (document : Document) (start stop : Nat) : List Segment :=
  (document.segments.toList.take stop).drop start

def raw (document : Document) (d : Delimiters) (start stop : Nat) : String :=
  d.detokenize (document.range start stop)

/-- What evaluation meets in a list of segments that starts at position `index`.
Positions below `resume` belong to a body that is left to its own tag. -/
def outlineFrom (document : Document) (index resume : Nat) : List Segment → List Item
  | [] => []
  | segment :: rest =>
    if index < resume then document.outlineFrom (index + 1) resume rest
    else
      match segment, document.role? index with
      | .literal text, _ => .text text :: document.outlineFrom (index + 1) resume rest
      | .tag _, some (.closes _) => document.outlineFrom (index + 1) resume rest
      | .tag tag, some .dangling => .dangling tag :: document.outlineFrom (index + 1) resume rest
      | .tag tag, some .selfClosed =>
        .call index tag none :: document.outlineFrom (index + 1) resume rest
      | .tag tag, some (.closedAt closer) =>
        .call index tag (some closer) :: document.outlineFrom (index + 1) (closer + 1) rest
      | .tag tag, _ => .unresolved tag :: document.outlineFrom (index + 1) resume rest

/-- What evaluation meets in a range of segments. -/
def outline (document : Document) (start stop : Nat) : List Item :=
  document.outlineFrom start start (document.range start stop)

end Document

end TagTemplate
