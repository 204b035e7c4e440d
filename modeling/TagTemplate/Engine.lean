import TagTemplate.DeferredQueue
import TagTemplate.Escaping
import TagTemplate.Registry

/-!
The engine: everything one expansion needs, and what can be done to it without
expanding anything.
-/

namespace TagTemplate

/-- A call that waits for the end of the main pass. -/
structure DeferredCall where
  binding : Binding
  call : TagCall

inductive Event where
  /-- a handler is called, with the depth of the engine and the number of frames -/
  | called (call : TagCall) (builtIn : Bool) (depth frames : Nat)
  | lookup (event : LookupEvent)
deriving Repr

structure Engine where
  settings : Settings
  registry : Registry
  callStack : CallStack
  vars : Variables
  deferred : DeferredQueue DeferredCall
  /-- the loaded document -/
  document : Document
  /-- the number of levels of expansion that are open -/
  depth : Nat
  /-- whether an evaluation is running -/
  evaluating : Bool
  /-- what has happened so far -/
  journal : Array Event

namespace Engine

/-- An engine with nothing loaded and nothing registered. -/
def create (settings : Settings) : Except TemplateError Engine := do
  settings.validate
  return {
    settings
    registry := .empty settings.delimiters.separator
    callStack := .empty
    vars := .empty
    deferred := .empty
    document := .empty
    depth := 0
    evaluating := false
    journal := #[] }

/-- What a handler can read. -/
def view (engine : Engine) : View where
  settings := engine.settings
  document := engine.document
  callStack := engine.callStack
  vars := engine.vars
  conventions := engine.registry.bindings.conventions

/-- The number of levels of expansion that may still be opened. -/
def levelsLeft (engine : Engine) : Nat :=
  engine.settings.maxDepth - engine.depth

/-- Adds events to the journal. -/
def record (events : List Event) (engine : Engine) : Engine :=
  { engine with journal := engine.journal ++ events.toArray }

/-- Matches a text with the delimiters of the engine. -/
def parse (source : String) (engine : Engine) : Except TemplateError Document :=
  Document.parse engine.settings.delimiters source

def load (source : String) (engine : Engine) : Except TemplateError Unit × Engine :=
  match engine.parse source with
  | .ok document => (.ok (), { engine with document })
  | .error error => (.error error, engine)

/-- Replaces the loaded document by a text given as UTF-8 bytes. -/
def loadBytes (bytes : ByteArray) (engine : Engine) : Except TemplateError Unit × Engine :=
  match String.fromUTF8? bytes with
  | some source => engine.load source
  | none => (.error (.io "the source is not valid UTF-8"), engine)

/-- Fills the slot of the nearest enclosing call of a name. -/
def setSlot (name : String) (value : Json.Value) (engine : Engine) :
    Except TemplateError Unit × Engine :=
  match engine.callStack.set name value with
  | .ok callStack => (.ok (), { engine with callStack })
  | .error error => (.error error, engine)

def setVariable (path : String) (value : Json.Value) (mode : SetMode) (engine : Engine) :
    Except TemplateError Unit × Engine :=
  let (result, vars) := engine.vars.assign path value mode
  (result, { engine with vars })

def removeVariable (path : String) (engine : Engine) :
    Except TemplateError (Option Json.Value) × Engine :=
  let (result, vars) := engine.vars.remove path
  (result, { engine with vars })

def clearVariables (engine : Engine) : Engine :=
  { engine with vars := .empty }

def register (name : String) (binding : Binding) (engine : Engine) :
    Except TemplateError Unit × Engine :=
  let (result, registry) := engine.registry.register name binding
  (result, { engine with registry })

def resolve (name param : String) (engine : Engine) :
    Except TemplateError (Option Resolved) × Engine :=
  let (result, registry, events) := engine.registry.resolve name param
  (result, { engine with registry }.record (events.map .lookup))

/-- Finding a binding leaves no trace. -/
theorem resolve_of_found {name param : String} {engine : Engine} {resolved : Resolved}
    (found : engine.registry.bindings.find? name param = some resolved) :
    engine.resolve name param = (.ok (some resolved), engine) := by
  simp [resolve, Registry.resolve_of_found found, record]

/-- Without autoload a look-up does not change the engine. -/
theorem resolve_of_still {engine : Engine} (still : engine.registry.autoload = none)
    (name param : String) :
    engine.resolve name param = (.ok (engine.registry.bindings.find? name param), engine) := by
  simp [resolve, Registry.resolve_of_still still, record]

def setAutoload (autoload : String → RegistryProgram) (engine : Engine) : Engine :=
  { engine with
    registry := { engine.registry with autoload := some (RegistryProgram.callback autoload) } }

/-- Whether an open tag called `name` occurs in the loaded document. -/
def hasTag (name : String) (engine : Engine) : Bool :=
  engine.settings.delimiters.hasTag engine.document.source name

end Engine

/-- Carries out a request that expands nothing. -/
def Action.perform (engine : Engine) : (action : Action) →
    Except TemplateError action.Answer × Engine
  | .load source => engine.load source
  | .setSlot name value => engine.setSlot name value
  | .setVariable path value mode => engine.setVariable path value mode
  | .removeVariable path => engine.removeVariable path
  | .clearVariables => (.ok (), engine.clearVariables)
  | .unregister name =>
    let (binding, registry) := engine.registry.unregister name
    (.ok (binding.map Binding.convention), { engine with registry })
  | .resolve name param =>
    let (result, engine) := engine.resolve name param
    (result.map fun found => found.map Resolved.resolution, engine)

end TagTemplate
