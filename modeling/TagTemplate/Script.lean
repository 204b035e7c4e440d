import TagTemplate.CoreTags
import TagTemplate.Evaluation

/-!
Scripts: handlers and autoload callbacks written as data.

A script is a list of actions whose texts are concatenated.  The first error ends the
script and is the error of its handler.  A loader script is a list of steps on the
registry for each name.
-/

namespace TagTemplate

/-- One action of a script.  An action without a text of its own adds nothing. -/
inductive ScriptAction where
  | text (s : String)
  /-- the name of the binding that was called -/
  | callName
  /-- the name of the tag as written -/
  | callTag
  | callOffset
  | callDocument
  | param
  | body
  /-- the items of a list parameter, joined -/
  | paramJoin (separator : String)
  /-- the items of a list body, joined -/
  | bodyJoin (separator : String)
  /-- the value of a key of a key-value body -/
  | bodyKey (key : String)
  | bodyJson
  /-- the value of an attribute of the root element -/
  | bodyAttribute (key : String)
  | upper (script : List ScriptAction)
  | expand (script : List ScriptAction)
  | render (script : List ScriptAction)
  | evaluate
  | load (script : List ScriptAction)
  | escape (script : List ScriptAction)
  | unescape (script : List ScriptAction)
  /-- the text with placeholders filled from the variables -/
  | fill (script : List ScriptAction)
  | hasTag (name : String)
  /-- the text of a script, or the kind of its error between exclamation marks -/
  | attempt (script : List ScriptAction)
  | slotGet (name : String)
  | slotSet (name : String) (value : Json.Value)
  | slotSetText (name : String) (script : List ScriptAction)
  | slotHas (name : String)
  | stackDepth
  | varGet (path : String)
  | varNeed (path : String)
  | varSet (path : String) (mode : SetMode) (value : Json.Value)
  | varSetText (path : String) (mode : SetMode) (script : List ScriptAction)
  | varsClear
  | register (name flags : String) (script : List ScriptAction)
  | unregister (name : String)
  | fail (message : String)
  | failAs (tag message : String)
deriving Inhabited

abbrev Script := List ScriptAction

namespace Script

/-- What a program does with the text of a script, or with its error. -/
structure Rest where
  text : String → Program
  error : TemplateError → Program

namespace Rest

/-- Goes on with a result. -/
def result (rest : Rest) : Except TemplateError String → Program
  | .ok text => rest.text text
  | .error error => rest.error error

/-- Goes on without a text after a request that answers nothing. -/
def silent {α : Type} (rest : Rest) : Except TemplateError α → Program
  | .ok _ => rest.text ""
  | .error error => rest.error error

/-- Goes on with a text computed from what a handler can read. -/
def reading (rest : Rest) (f : View → Except TemplateError String) : Program :=
  .inspect fun view => rest.result (f view)

/-- The same continuation of an error, with another one of a text. -/
def withText (rest : Rest) (text : String → Program) : Rest :=
  { rest with text }

end Rest

def boolText (b : Bool) : String :=
  if b then "true" else "false"

def jsonText : Body → String
  | .json value => value.display
  | _ => ""

/-- The value of a key of a key-value body. -/
def keyText (key : String) : Body → String
  | .map entries => (Keyed.find? key entries).getD ""
  | _ => ""

/-- The value of an attribute of the root element of a markup body. -/
def attributeText (key : String) : Body → String
  | .xml node => (node.attribute? key).getD ""
  | _ => ""

/-- The text of the slot of the nearest call of a name. -/
def slotText (name : String) (stack : CallStack) : Except TemplateError String := do
  return ((← stack.get name).map Json.Value.display).getD "(none)"

def variableText (path : String) (vars : Variables) : Except TemplateError String := do
  return (← vars.getText? path).getD "(absent)"

mutual

def actionProgram (call : TagCall) (rest : Rest) : ScriptAction → Program
  | .text s => rest.text s
  | .callName => rest.text call.name
  | .callTag => rest.text call.tag
  | .callOffset => rest.text (Json.natText call.offset)
  | .callDocument => rest.text (call.document.getD "")
  | .param => rest.text call.param.asText
  | .body => rest.text call.body.asText
  | .paramJoin separator => rest.text (separator.intercalate call.param.items)
  | .bodyJoin separator => rest.text (separator.intercalate call.body.items)
  | .bodyKey key => rest.text (keyText key call.body)
  | .bodyJson => rest.text (jsonText call.body)
  | .bodyAttribute key => rest.text (attributeText key call.body)
  | .upper script => program call (rest.withText fun s => rest.text (upperAscii s)) script
  | .expand script => program call (rest.withText fun s => .expand s rest.result) script
  | .render script => program call (rest.withText fun s => .render s rest.result) script
  | .evaluate => .evaluate rest.result
  | .load script => program call (rest.withText fun s => .act (.load s) rest.silent) script
  | .escape script =>
    program call
      (rest.withText fun s => rest.reading fun view => .ok (view.settings.delimiters.escape s))
      script
  | .unescape script =>
    program call
      (rest.withText fun s => rest.reading fun view => .ok (view.settings.delimiters.unescape s))
      script
  | .fill script =>
    program call
      (rest.withText fun s => rest.reading fun view =>
        .ok (view.settings.placeholders.fill s view.vars.toValue))
      script
  | .hasTag name =>
    rest.reading fun view =>
      .ok (boolText (view.settings.delimiters.hasTag view.document.source name))
  | .attempt script =>
    program call ⟨rest.text, fun error => rest.text ("!" ++ error.kind ++ "!")⟩ script
  | .slotGet name => rest.reading fun view => slotText name view.callStack
  | .slotSet name value => .act (.setSlot name value) rest.silent
  | .slotSetText name script =>
    program call (rest.withText fun s => .act (.setSlot name (.string s)) rest.silent) script
  | .slotHas name => rest.reading fun view => .ok (boolText (view.callStack.contains name))
  | .stackDepth => rest.reading fun view => .ok (Json.natText view.callStack.depth)
  | .varGet path => rest.reading fun view => variableText path view.vars
  | .varNeed path =>
    rest.reading fun view => (view.vars.need path).map Json.Value.display
  | .varSet path mode value => .act (.setVariable path value mode) rest.silent
  | .varSetText path mode script =>
    program call
      (rest.withText fun s => .act (.setVariable path (.string s) mode) rest.silent) script
  | .varsClear => .act .clearVariables rest.silent
  | .register name flags script =>
    match Convention.parse flags with
    | .ok convention =>
      .register name (fun call => program call ⟨.done, .fail⟩ script) convention rest.silent
    | .error error => rest.error error
  | .unregister name =>
    .act (.unregister name) fun
      | .ok convention => rest.text (boolText convention.isSome)
      | .error error => rest.error error
  | .fail message => rest.error (.raised message)
  | .failAs tag message => rest.error (.handler tag message)
termination_by structural action => action

def program (call : TagCall) (rest : Rest) : List ScriptAction → Program
  | [] => rest.text ""
  | action :: actions =>
    actionProgram call
      (rest.withText fun head =>
        program call (rest.withText fun tail => rest.text (head ++ tail)) actions)
      action
termination_by structural actions => actions

end

def handler (script : Script) : Handler :=
  fun call => program call ⟨.done, .fail⟩ script

def binding (script : Script) (convention : Convention) : Binding :=
  ⟨script.handler, convention, false⟩

end Script

inductive LoaderStep where
  | register (name flags : String) (script : Script)
  /-- register tags that share a script, one after the other -/
  | registerAll (tags : List (String × Convention)) (script : Script)
  | registerCore
  | unregister (name : String)
  | resolve (name param : String)
  /-- install another autoload callback: steps for each name -/
  | setAutoload (entries : List (String × List LoaderStep))
  /-- a step that only reads -/
  | read
  | fail (message : String)
deriving Inhabited

namespace LoaderStep

/-- Goes on after a request that answers nothing, or fails. -/
def orFail {α : Type} (next : RegistryProgram) : Except TemplateError α → RegistryProgram
  | .ok _ => next
  | .error error => .fail error

/-- Registers bindings one after the other; the first error ends the program. -/
def registering (next : RegistryProgram) : List (String × Binding) → RegistryProgram
  | [] => next
  | (name, binding) :: rest =>
    .register name binding.handler binding.convention binding.builtIn
      (orFail (registering next rest))

mutual

/-- The program of one step, before `next`. -/
def program (next : RegistryProgram) : LoaderStep → RegistryProgram
  | .register name flags script =>
    match Convention.parse flags with
    | .ok convention => .register name script.handler convention false (orFail next)
    | .error error => .fail error
  | .registerAll tags script =>
    registering next (tags.map fun (name, convention) => (name, script.binding convention))
  | .registerCore => registering next CoreTags.bindings
  | .unregister name => .unregister name fun _ => next
  | .resolve name param => .resolve name param (orFail next)
  | .setAutoload entries => .setAutoload (fun name => entriesProgram name entries) next
  | .read => next
  | .fail message => .fail (.raised message)
termination_by structural step => step

def stepsProgram : List LoaderStep → RegistryProgram
  | [] => .done
  | step :: steps => program (stepsProgram steps) step
termination_by structural steps => steps

/-- The program of the first entry for a name; an entry for the catch-all name is for
every name. -/
def entriesProgram (name : String) : List (String × List LoaderStep) → RegistryProgram
  | [] => .done
  | entry :: entries =>
    match entryProgram name entry with
    | some found => found
    | none => entriesProgram name entries
termination_by structural entries => entries

/-- The program of an entry, if it is for a name. -/
def entryProgram (name : String) : String × List LoaderStep → Option RegistryProgram
  | (key, steps) => if key == name || key == catchAll then some (stepsProgram steps) else none
termination_by structural entry => entry

end

end LoaderStep

end TagTemplate
