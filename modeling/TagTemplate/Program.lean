import TagTemplate.CallStack
import TagTemplate.Document
import TagTemplate.Settings
import TagTemplate.Variables

/-!
What handlers and autoload callbacks do, as data.

A handler turns a call into a program: a tree of requests to the engine, each with the
rest of the program for every answer.  The tree is well-founded, so a handler always
ends by itself; whatever it asks the engine to expand is bounded by the engine.  An
autoload callback is a program of requests to the registry alone.
-/

namespace TagTemplate

/-- What a handler can read of the engine. -/
structure View where
  settings : Settings
  document : Document
  callStack : CallStack
  vars : Variables
  /-- the registered names with their conventions -/
  conventions : Keyed Convention

/-- A successful look-up: the name and the parameter under which a binding was found,
and its convention. -/
structure Resolution where
  name : String
  param : String
  convention : Convention
deriving DecidableEq, Repr

/-- A request that changes the engine without expanding anything. -/
inductive Action where
  /-- replace the loaded document -/
  | load (source : String)
  /-- fill the slot of the nearest enclosing call of a name -/
  | setSlot (name : String) (value : Json.Value)
  | setVariable (path : String) (value : Json.Value) (mode : SetMode)
  | removeVariable (path : String)
  | clearVariables
  /-- remove the binding of a name -/
  | unregister (name : String)
  /-- look a tag up, with autoload -/
  | resolve (name param : String)

/-- What a successful request answers. -/
abbrev Action.Answer : Action → Type
  | .removeVariable _ => Option Json.Value
  | .unregister _ => Option Convention
  | .resolve _ _ => Option Resolution
  | _ => Unit

mutual

/-- What a handler does for one call. -/
inductive Program where
  /-- return the text that replaces the tag -/
  | done (text : String)
  | fail (error : TemplateError)
  | inspect (next : View → Program)
  | act (action : Action) (next : Except TemplateError action.Answer → Program)
  /-- expand a text inside the running evaluation -/
  | expand (text : String) (next : Except TemplateError String → Program)
  /-- load a text and expand it; inside an evaluation the text is only expanded -/
  | render (text : String) (next : Except TemplateError String → Program)
  /-- expand the loaded document -/
  | evaluate (next : Except TemplateError String → Program)
  | register (name : String) (handler : TagCall → Program) (convention : Convention)
    (next : Except TemplateError Unit → Program)
  | setAutoload (autoload : String → RegistryProgram) (next : Program)

/-- What an autoload callback does for one missing name. -/
inductive RegistryProgram where
  | done
  | fail (error : TemplateError)
  | inspect (next : Keyed Convention → RegistryProgram)
  | register (name : String) (handler : TagCall → Program) (convention : Convention)
    (builtIn : Bool) (next : Except TemplateError Unit → RegistryProgram)
  | unregister (name : String) (next : Option Convention → RegistryProgram)
  /-- look a tag up; the autoload that is running is detached -/
  | resolve (name param : String)
    (next : Except TemplateError (Option Resolution) → RegistryProgram)
  | setAutoload (autoload : String → RegistryProgram) (next : RegistryProgram)

end

abbrev Handler := TagCall → Program

/-- A handler with the calling convention it expects. -/
structure Binding where
  handler : Handler
  convention : Convention
  /-- the tag belongs to the core tags of the library -/
  builtIn : Bool

end TagTemplate
