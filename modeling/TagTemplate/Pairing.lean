import TagTemplate.Segment

/-!
Pairing open tags with close tags.

One pass goes over the close tags.  Each looks backwards at its own level, stepping
over pairs that are closed already, for the nearest open tag that it accepts.  A
close tag whose only partners lie inside closed pairs would cross one of them, which
is an error; a close tag without any partner dangles, and an open tag that nobody
closes closes itself.  A second pass checks that the pairs nest.
-/

namespace TagTemplate

/-- The part a tag plays among the segments of its text. -/
inductive Role where
  /-- not decided yet -/
  | unresolved
  /-- an open tag without a body -/
  | selfClosed
  /-- a close tag without an open tag -/
  | dangling
  /-- the close tag of the open tag at a position -/
  | closes (opener : Nat)
  /-- an open tag whose close tag is at a position -/
  | closedAt (closer : Nat)
deriving DecidableEq, Repr

/-- The roles of the segments of a text; literals have none. -/
abbrev Roles := Array (Option Role)

namespace Pairing

variable (segments : Array Segment)

/-- Whether a close tag may close an open tag: their names agree, or the close tag
names none. -/
def accepts (close opener : Tag) : Bool :=
  !opener.isClose && (close.closeName.isEmpty || opener.name == close.closeName)

/-- Whether the segment at a position is an open tag that is still unmatched and that
a close tag accepts. -/
def isPartner (roles : Roles) (close : Tag) (index : Nat) : Bool :=
  match roles[index]?, segments[index]? with
  | some (some .unresolved), some (.tag opener) => accepts close opener
  | _, _ => false

/-- What a close tag finds when it looks backwards: a partner, or the closed pairs
that it has stepped over, nearest first. -/
inductive Search where
  | partner (index : Nat)
  | none (passed : List (Nat × Nat))
deriving DecidableEq, Repr

def Search.passing (pair : Nat × Nat) : Search → Search
  | .partner index => .partner index
  | .none passed => .none (pair :: passed)

/-- Looks for a partner at the positions below `index`.  Positions from `bound` on lie
inside a closed pair and are stepped over. -/
def search (roles : Roles) (close : Tag) : Nat → Nat → Search
  | 0, _ => .none []
  | index + 1, bound =>
    if bound ≤ index then search roles close index bound
    else
      match roles[index]? with
      | some (some (.closes opener)) => (search roles close index opener).passing (opener, index)
      | _ =>
        if isPartner segments roles close index then .partner index
        else search roles close index bound

/-- The last partner at positions between `low` and `low + count`. -/
def lastPartner (roles : Roles) (close : Tag) (low : Nat) : Nat → Option Nat
  | 0 => none
  | count + 1 =>
    if isPartner segments roles close (low + count) then some (low + count)
    else lastPartner roles close low count

/-- The first pair of a list that hides a partner, with that partner. -/
def crossing (roles : Roles) (close : Tag) (passed : List (Nat × Nat)) : Option (Nat × Nat) :=
  passed.findSome? fun (opener, closer) =>
    (lastPartner segments roles close (opener + 1) (closer - (opener + 1))).map
      fun inner => (opener, inner)

def refAt (d : Delimiters) (index : Nat) : TagRef :=
  match segments[index]? with
  | some (.tag tag) => tag.ref d
  | _ => ⟨"", 0⟩

def crossed (d : Delimiters) (outer inner : Nat) : TemplateError :=
  .nesting (refAt segments d outer) (refAt segments d inner)

/-- Gives the close tag at a position its role, and its partner the matching one. -/
def pairClose (d : Delimiters) (roles : Roles) (index : Nat) (close : Tag) :
    Except TemplateError Roles :=
  match search segments roles close index index with
  | .partner opener =>
    .ok ((roles.setIfInBounds opener (some (.closedAt index))).setIfInBounds index
      (some (.closes opener)))
  | .none passed =>
    match crossing segments roles close passed with
    | some (outer, inner) => .error (crossed segments d outer inner)
    | none => .ok (roles.setIfInBounds index (some .dangling))

/-- One step of the first pass: open tags wait, close tags look for a partner. -/
def pairStep (d : Delimiters) (roles : Roles) (index : Nat) : Except TemplateError Roles :=
  match segments[index]? with
  | some (.tag tag) => if tag.isClose then pairClose segments d roles index tag else .ok roles
  | _ => .ok roles

/-- The roles before the first pass: no tag is decided. -/
def undecided : Roles :=
  segments.map fun segment => segment.tag?.map fun _ => .unresolved

def pairAll (d : Delimiters) : Except TemplateError Roles :=
  (List.range segments.size).foldlM (pairStep segments d) (undecided segments)

/-- Open tags that nobody has closed close themselves. -/
def settle (roles : Roles) : Roles :=
  roles.map fun role => if role = some .unresolved then some .selfClosed else role

/-- Removes the pairs that end at or before a position from a stack of open pairs. -/
def leaveClosed (index : Nat) (opened : List (Nat × Nat)) : List (Nat × Nat) :=
  opened.dropWhile fun (_, closer) => closer ≤ index

/-- The second pass: goes over the roles from position `index` on with the pairs that
are open there, innermost first, and compares each new pair with the innermost
one. -/
def checkFrom (d : Delimiters) (index : Nat) (opened : List (Nat × Nat)) :
    List (Option Role) → Except TemplateError Unit
  | [] => .ok ()
  | some (.closedAt closer) :: roles =>
    match leaveClosed index opened with
    | [] => checkFrom d (index + 1) [(index, closer)] roles
    | (outer, outerCloser) :: rest =>
      if outerCloser < closer then .error (crossed segments d outer index)
      else checkFrom d (index + 1) ((index, closer) :: (outer, outerCloser) :: rest) roles
  | _ :: roles => checkFrom d (index + 1) (leaveClosed index opened) roles

def checkNesting (d : Delimiters) (roles : Roles) : Except TemplateError Unit :=
  checkFrom segments d 0 [] roles.toList

/-- Gives every tag its role, or reports the first crossing. -/
def pairTags (d : Delimiters) : Except TemplateError Roles := do
  let roles := settle (← pairAll segments d)
  checkNesting segments d roles
  return roles

end Pairing

end TagTemplate
