import TagTemplate.Error
import TagTemplate.Json.Value
import TagTemplate.Text.Blank
import TagTemplate.Text.Cut

/-!
Variables: a nested map of values under dotted paths.

White space around the components of a path does not count, and no component may be
blank.
-/

namespace TagTemplate

/-- How an existing value is treated when a variable is set. -/
inductive SetMode where
  | replace
  /-- an existing value is an error -/
  | keep
  /-- strings are concatenated, arrays extended -/
  | append
deriving DecidableEq, Repr

structure Variables where
  members : Keyed Json.Value
deriving Repr

namespace Variables

def empty : Variables := ⟨[]⟩

def isEmpty (vars : Variables) : Bool :=
  vars.members.isEmpty

def toValue (vars : Variables) : Json.Value :=
  .object vars.members

def components (path : String) : Except TemplateError (List String) :=
  let parts := (Text.split "." path).map Text.trim
  if parts.any String.isEmpty then
    .error (.variableConflict path "path has an empty component")
  else .ok parts

/-- The value under the components of a path. -/
def lookup : List String → Keyed Json.Value → Option Json.Value
  | [], _ => none
  | [last], members => Keyed.find? last members
  | part :: rest, members =>
    match Keyed.find? part members with
    | some (.object inner) => lookup rest inner
    | _ => none

def get? (path : String) (vars : Variables) : Except TemplateError (Option Json.Value) := do
  return lookup (← components path) vars.members

/-- The value at a path, which must exist. -/
def need (path : String) (vars : Variables) : Except TemplateError Json.Value := do
  match ← vars.get? path with
  | some value => return value
  | none => throw (.variableMissing path)

/-- The value at a path as template text. -/
def getText? (path : String) (vars : Variables) : Except TemplateError (Option String) := do
  return (← vars.get? path).map Json.Value.display

inductive Fault where
  | exists
  | notAMap (part : String)
  | notAppendable
deriving DecidableEq, Repr

/-- The error of a fault at a path. -/
def Fault.error (path : String) : Fault → TemplateError
  | .exists => .variableExists path
  | .notAMap part => .variableConflict path ("'" ++ part ++ "' is not a map")
  | .notAppendable => .variableConflict path "only strings and arrays can be appended to"

/-- The value that replaces `old` when `value` is stored in a mode. -/
def merge (mode : SetMode) (value : Json.Value) (old : Option Json.Value) :
    Except Fault Json.Value :=
  match mode, old with
  | .replace, _ => .ok value
  | _, none => .ok value
  | .keep, some _ => .error .exists
  | .append, some (.string text) => .ok (.string (text ++ value.display))
  | .append, some (.array items) =>
    .ok (.array (items ++ match value with
      | .array more => more
      | other => [other]))
  | .append, some _ => .error .notAppendable

/-- Stores a value under the components of a path, in place: a map that is missing on the
way is created before what lies behind it is looked at.  Returns what the members are
afterwards also when the value cannot be stored. -/
def store (mode : SetMode) (value : Json.Value) :
    List String → Keyed Json.Value → Except Fault Unit × Keyed Json.Value
  | [], members => (.ok (), members)
  | [last], members =>
    match merge mode value (Keyed.find? last members) with
    | .ok merged => (.ok (), Keyed.insert last merged members)
    | .error fault => (.error fault, members)
  | part :: rest, members =>
    let members := Keyed.ensure part (.object []) members
    match Keyed.find? part members with
    | some (.object inner) =>
      let (result, inner) := store mode value rest inner
      (result, Keyed.replace part (.object inner) members)
    | _ => (.error (.notAMap part), members)

/-- Sets the variable at a path, and returns the variables that are left. -/
def assign (path : String) (value : Json.Value) (mode : SetMode) (vars : Variables) :
    Except TemplateError Unit × Variables :=
  match components path with
  | .error error => (.error error, vars)
  | .ok parts =>
    let (result, members) := store mode value parts vars.members
    (result.mapError (Fault.error path), ⟨members⟩)

/-- The variables with one of them set. -/
def set (path : String) (value : Json.Value) (mode : SetMode) (vars : Variables) :
    Except TemplateError Variables :=
  let (result, vars) := vars.assign path value mode
  result.map fun () => vars

/-- Removes the value under the components of a path, where there is one. -/
def discard : List String → Keyed Json.Value → Keyed Json.Value
  | [], members => members
  | [last], members => Keyed.erase last members
  | part :: rest, members =>
    match Keyed.find? part members with
    | some (.object inner) => Keyed.replace part (.object (discard rest inner)) members
    | _ => members

/-- Removes the variable at a path, and returns its value and the variables that are left. -/
def remove (path : String) (vars : Variables) :
    Except TemplateError (Option Json.Value) × Variables :=
  match components path with
  | .error error => (.error error, vars)
  | .ok parts => (.ok (lookup parts vars.members), ⟨discard parts vars.members⟩)

end Variables

end TagTemplate
