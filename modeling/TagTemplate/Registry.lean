import TagTemplate.Program
import TagTemplate.Text.Visible

/-!
The registry: which binding handles a tag.

A binding for the catch-all name receives every tag.  Otherwise a tag is looked up
under its own name, and then under its name joined with the part of its parameter
before the first separator.  When all of these miss, an autoload callback gets one
chance to register the name.  The callback is detached while it runs, so that a miss
inside it does not call it again.
-/

namespace TagTemplate

inductive LookupEvent where
  /-- the autoload callback is called for a name -/
  | autoloading (name : String)
  /-- a look-up inside the autoload callback has succeeded -/
  | resolved (result : Option Resolution)
deriving DecidableEq, Repr

/-- The name whose binding receives every tag. -/
def catchAll : String := "*"

/-- The bindings of a registry under their names, and the separator that joins the
parts of a name. -/
structure Bindings where
  separator : String
  table : Keyed Binding

namespace Bindings

/-- The registered names with their conventions, in increasing order. -/
def conventions (bindings : Bindings) : Keyed Convention :=
  bindings.table.map fun (name, binding) => (name, binding.convention)

/-- The registered names in increasing order. -/
def names (bindings : Bindings) : List String :=
  Keyed.keys bindings.table

/-- The binding of exactly this name. -/
def get? (name : String) (bindings : Bindings) : Option Binding :=
  Keyed.find? name bindings.table

/-- The binding of a name, or the catch-all binding if there is one. -/
def lookup? (name : String) (bindings : Bindings) : Option Binding :=
  (bindings.get? catchAll).or (bindings.get? name)

/-- A part of a name is a run of name characters. -/
def isNamePart (part : String) : Bool :=
  !part.isEmpty && part.toList.all isNameChar

/-- Whether a name may be registered: it is the catch-all name, or all its parts
between separators are runs of name characters. -/
def isName (separator name : String) : Bool :=
  name == catchAll || (Text.split separator name).all isNamePart

/-- Registers a binding, in place of the one that its name had. -/
def register (name : String) (binding : Binding) (bindings : Bindings) :
    Except TemplateError Bindings :=
  if !isName bindings.separator name then
    .error (.invalidConvention name "tag names use letters, digits, '_', '.' and '-'")
  else
    match binding.convention.validate with
    | .ok () => .ok { bindings with table := Keyed.insert name binding bindings.table }
    | .error message => .error (.invalidConvention name message)

theorem register_eq_ok {name : String} {binding : Binding} {bindings added : Bindings}
    (registered : bindings.register name binding = .ok added) :
    isName bindings.separator name ∧ binding.convention.validate = .ok () ∧
      added = { bindings with table := Keyed.insert name binding bindings.table } := by
  unfold register at registered
  split at registered
  · cases registered
  · rename_i named
    split at registered
    · rename_i validated
      cases registered
      exact ⟨by simpa using named, validated, rfl⟩
    · cases registered

def unregister (name : String) (bindings : Bindings) : Bindings :=
  { bindings with table := Keyed.erase name bindings.table }

end Bindings

/-- A binding with the name and the parameter under which a tag found it. -/
structure Resolved where
  binding : Binding
  name : String
  param : String

namespace Resolved

/-- What is known of a look-up apart from the handler. -/
def resolution (resolved : Resolved) : Resolution :=
  ⟨resolved.name, resolved.param, resolved.binding.convention⟩

end Resolved

/-- Looks a tag up without autoload: the catch-all binding, the binding of its name, or
the one of its name with the first part of the parameter. -/
def Bindings.find? (name param : String) (bindings : Bindings) : Option Resolved :=
  match bindings.lookup? name with
  | some binding => some ⟨binding, name, param⟩
  | none =>
    if param.isEmpty then none
    else
      let (first, rest) := (Text.splitOnce bindings.separator param).getD (param, "")
      let subtype := name ++ bindings.separator ++ first
      (bindings.get? subtype).map fun binding => ⟨binding, subtype, rest⟩

/-- What a run of an autoload callback leaves behind: its result, the bindings, the
callback it has installed if any, and what happened. -/
inductive Autoload where
  /-- a callback, given by what it does for a name to the bindings of a registry from
  which it has been detached -/
  | mk (call : String → Bindings →
      Except TemplateError Unit × Bindings × Option Autoload × List LookupEvent)

structure Registry where
  bindings : Bindings
  autoload : Option Autoload

namespace Registry

def empty (separator : String) : Registry :=
  ⟨⟨separator, []⟩, none⟩

def register (name : String) (binding : Binding) (registry : Registry) :
    Except TemplateError Unit × Registry :=
  match registry.bindings.register name binding with
  | .ok bindings => (.ok (), { registry with bindings })
  | .error error => (.error error, registry)

/-- Registers bindings one after the other.  The first one that fails ends it, and the
ones before it stay registered. -/
def registerAll : List (String × Binding) → Registry → Except TemplateError Unit × Registry
  | [], registry => (.ok (), registry)
  | (name, binding) :: rest, registry =>
    match registry.register name binding with
    | (.ok (), registry) => registerAll rest registry
    | (.error error, registry) => (.error error, registry)

/-- Removes the binding of a name and returns it. -/
def unregister (name : String) (registry : Registry) : Option Binding × Registry :=
  (registry.bindings.get? name, { registry with bindings := registry.bindings.unregister name })

/-- Looks a tag up.  A miss calls the autoload callback once and is tried once more; the
callback is installed again unless it has installed another one. -/
def resolve (name param : String) (registry : Registry) :
    Except TemplateError (Option Resolved) × Registry × List LookupEvent :=
  match registry.bindings.find? name param with
  | some resolved => (.ok (some resolved), registry, [])
  | none =>
    match registry.autoload with
    | none => (.ok none, registry, [])
    | some (.mk call) =>
      let (result, bindings, installed, events) := call name registry.bindings
      let after : Registry := ⟨bindings, some (installed.getD (.mk call))⟩
      (result.map fun () => bindings.find? name param, after, .autoloading name :: events)

theorem resolve_of_found {registry : Registry} {name param : String} {resolved : Resolved}
    (found : registry.bindings.find? name param = some resolved) :
    registry.resolve name param = (.ok (some resolved), registry, []) := by
  simp only [resolve, found]

theorem resolve_of_still {registry : Registry} (still : registry.autoload = none)
    (name param : String) :
    registry.resolve name param = (.ok (registry.bindings.find? name param), registry, []) := by
  rw [resolve, still]
  cases registry.bindings.find? name param <;> rfl

/-- How a text is shown between double quotes. -/
def quoted (s : String) : String :=
  let shown (c : Char) : List Char :=
    if c == '"' || c == '\\' then ['\\', c]
    else if c == '\n' then ['\\', 'n']
    else if c == '\r' then ['\\', 'r']
    else if c == '\t' then ['\\', 't']
    else if c.toNat = 0 then ['\\', '0']
    else if !Text.isVisible c then
      ['\\', 'u', '\x7b'] ++ Nat.toDigits 16 c.toNat ++ ['\x7d']
    else [c]
  String.ofList ('"' :: s.toList.flatMap shown ++ ['"'])

/-- A summary of a registry: its names, and whether it has an autoload callback. -/
def summary (registry : Registry) : String :=
  "PluginRegistry \x7b tags: [" ++ ", ".intercalate (registry.bindings.names.map quoted) ++
    "], autoload: " ++ (if registry.autoload.isSome then "true" else "false") ++ " \x7d"

end Registry

namespace RegistryProgram

def run : RegistryProgram → Registry → Except TemplateError Unit × Registry × List LookupEvent
  | .done, registry => (.ok (), registry, [])
  | .fail error, registry => (.error error, registry, [])
  | .inspect next, registry => (next registry.bindings.conventions).run registry
  | .register name handler convention builtIn next, registry =>
    let (result, registry) := registry.register name ⟨handler, convention, builtIn⟩
    (next result).run registry
  | .unregister name next, registry =>
    let (binding, registry) := registry.unregister name
    (next (binding.map Binding.convention)).run registry
  | .resolve name param next, registry =>
    let (result, registry, events) := registry.resolve name param
    let answer := result.map fun found => found.map Resolved.resolution
    let events := events ++ match answer with
      | .ok resolution => [.resolved resolution]
      | .error _ => []
    let (result, registry, later) := (next answer).run registry
    (result, registry, events ++ later)
  | .setAutoload autoload next, registry =>
    let callback := Autoload.mk fun name bindings =>
      let (result, after, events) := (autoload name).run ⟨bindings, none⟩
      (result, after.bindings, after.autoload, events)
    next.run { registry with autoload := some callback }
termination_by structural program => program

/-- The callback that runs the program a function chooses for each name. -/
def callback (autoload : String → RegistryProgram) : Autoload :=
  .mk fun name bindings =>
    let (result, after, events) := (autoload name).run ⟨bindings, none⟩
    (result, after.bindings, after.autoload, events)

end RegistryProgram

end TagTemplate
