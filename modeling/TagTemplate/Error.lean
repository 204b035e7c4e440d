import TagTemplate.Json.Decimal

/-!
Everything that can go wrong while a template is loaded, matched or expanded.

Structural errors and violations of a calling convention carry the offending tag as
it is written, with its byte offset.
-/

namespace TagTemplate

/-- A tag as written in its source, with its byte offset. -/
structure TagRef where
  written : String
  offset : Nat
deriving DecidableEq, Repr

def TagRef.text (tag : TagRef) : String :=
  "'" ++ tag.written ++ "' at byte " ++ Json.natText tag.offset

/-- The rule of a calling convention that a call broke. -/
inductive Violation where
  | missingParam
  | unexpectedParam
  | missingBody
  | unexpectedBody
  /-- a parameter and a body where one takes the place of the other -/
  | paramAndBody
  /-- a body that does not decode into the declared shape -/
  | invalidBody (shape message : String)
deriving DecidableEq, Repr

def Violation.message : Violation → String
  | .missingParam => "parameter is required"
  | .unexpectedParam => "parameter is not allowed"
  | .missingBody => "body is required"
  | .unexpectedBody => "body is not allowed"
  | .paramAndBody => "use either parameter or body, not both"
  | .invalidBody shape message => "body is not a valid " ++ shape ++ ": " ++ message

inductive TemplateError where
  /-- delimiters or settings that cannot be used -/
  | config (message : String)
  /-- a template source that cannot be read -/
  | io (message : String)
  /-- `inner` opens inside `outer` but closes after it -/
  | nesting (outer inner : TagRef)
  /-- a tag that matching left without a role -/
  | unresolved (tag : TagRef)
  /-- a tag that no binding handles -/
  | unknownTag (tag : TagRef)
  /-- a call that breaks the calling convention of its tag -/
  | convention (tag : TagRef) (violation : Violation) (context : String)
  /-- a convention or a name that cannot be registered -/
  | invalidConvention (tag message : String)
  /-- no enclosing call of this name -/
  | callStackMiss (name : String)
  /-- a variable that is required and missing -/
  | variableMissing (path : String)
  /-- a variable that must not be overwritten -/
  | variableExists (path : String)
  /-- a path through a value that is no map, or a value that cannot be appended to -/
  | variableConflict (path message : String)
  /-- more levels of expansion than the limit allows -/
  | recursionLimit (limit : Nat)
  /-- an error raised by a handler; the tag is empty until the engine fills it in -/
  | handler (tag message : String)
deriving DecidableEq, Repr

namespace TemplateError

/-- An error raised by a handler that leaves the tag to the engine. -/
def raised (message : String) : TemplateError :=
  .handler "" message

def isStructural : TemplateError → Bool
  | .nesting _ _ | .unresolved _ => true
  | _ => false

def message : TemplateError → String
  | .config text => "Invalid configuration: " ++ text
  | .io text => "IO error: " ++ text
  | .nesting outer inner =>
    "Invalid nesting: " ++ inner.text ++ " opens inside " ++ outer.text ++ " but closes after it"
  | .unresolved tag => "Unresolved tag " ++ tag.text
  | .unknownTag tag => "Unknown tag " ++ tag.text
  | .convention tag violation context =>
    "Invalid call of " ++ tag.text ++ ": " ++ violation.message ++
      (if context.isEmpty then "" else " (near \"" ++ context ++ "\")")
  | .invalidConvention tag text => "Invalid convention for tag '" ++ tag ++ "': " ++ text
  | .callStackMiss name => "No enclosing '" ++ name ++ "' invocation on the call stack"
  | .variableMissing path => "Missing required variable '" ++ path ++ "'"
  | .variableExists path => "Variable '" ++ path ++ "' already exists"
  | .variableConflict path text => "Variable '" ++ path ++ "': " ++ text
  | .recursionLimit limit =>
    "Maximum expansion depth of " ++ Json.natText limit ++ " exceeded"
  | .handler tag text => if tag.isEmpty then text else "Tag '" ++ tag ++ "' failed: " ++ text

/-- The name of the kind of an error; a broken convention names the violation. -/
def kind : TemplateError → String
  | .config _ => "Config"
  | .io _ => "Io"
  | .nesting _ _ => "Nesting"
  | .unresolved _ => "Unresolved"
  | .unknownTag _ => "UnknownTag"
  | .convention _ violation _ =>
    "Convention." ++ match violation with
      | .missingParam => "MissingParam"
      | .unexpectedParam => "UnexpectedParam"
      | .missingBody => "MissingBody"
      | .unexpectedBody => "UnexpectedBody"
      | .paramAndBody => "ParamAndBody"
      | .invalidBody _ _ => "InvalidBody"
  | .invalidConvention _ _ => "InvalidConvention"
  | .callStackMiss _ => "CallStackMiss"
  | .variableMissing _ => "VariableMissing"
  | .variableExists _ => "VariableExists"
  | .variableConflict _ _ => "VariableConflict"
  | .recursionLimit _ => "RecursionLimit"
  | .handler _ _ => "Handler"

/-- Names the tag of an error that a handler raised without one.  All other errors
stay as they are. -/
def attributedTo (name : String) : TemplateError → TemplateError
  | .handler tag text => .handler (if tag.isEmpty then name else tag) text
  | other => other

end TemplateError

end TagTemplate
