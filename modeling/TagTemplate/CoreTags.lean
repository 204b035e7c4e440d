import TagTemplate.Escaping
import TagTemplate.Registry

/-!
The core tags, which need nothing but the engine:

* `var:get` and `var:need` write the variable at the path of their parameter; a missing
  one is nothing for the first and an error for the second,
* `var:set` and `var:append` store their body and write nothing,
* `literal` writes its body unexpanded,
* `escape` writes its body with the tags escaped, `unescape` with escaped tags restored.

The `var` tags are found by their name and the first part of their parameter.
-/

namespace TagTemplate.CoreTags

/-- The convention of the tags that read a variable. -/
def reading : Convention := { param := .required, body := .forbidden }

/-- The convention of the tags that store a variable. -/
def storing : Convention := { param := .required, body := .required }

/-- The convention of the tags that take their body as it is written. -/
def quoting : Convention := { param := .forbidden, body := .required, rawBody := true }

/-- The convention of the tag that restores tags in its expanded body. -/
def restoring : Convention := { param := .forbidden, body := .required }

/-- The program that returns the result of a look-up as text. -/
def answer (result : Except TemplateError (Option Json.Value)) : Program :=
  match result with
  | .ok value => .done ((value.map Json.Value.display).getD "")
  | .error error => .fail error

/-- The program that stores a text at a path. -/
def store (path text : String) (mode : SetMode) : Program :=
  .act (.setVariable path (.string text) mode) fun
    | .ok () => .done ""
    | .error error => .fail error

/-- The path that the parameter of a call names. -/
def path (call : TagCall) : String :=
  Text.trim call.param.asText

/-- Writes a variable, or nothing. -/
def get (call : TagCall) : Program :=
  .inspect fun view => answer (view.vars.get? (path call))

/-- Writes a variable that must exist. -/
def need (call : TagCall) : Program :=
  .inspect fun view => answer ((view.vars.need (path call)).map some)

def set (call : TagCall) : Program :=
  store (path call) call.body.asText .replace

def append (call : TagCall) : Program :=
  store (path call) call.body.asText .append

def literal (call : TagCall) : Program :=
  .done call.body.asText

def escape (call : TagCall) : Program :=
  .inspect fun view => .done (view.settings.delimiters.escape call.body.asText)

/-- Writes the body with its escaped tags restored. -/
def unescape (call : TagCall) : Program :=
  .inspect fun view => .done (view.settings.delimiters.unescape call.body.asText)

/-- The names of the core tags with their handlers and conventions. -/
def table : List (String × Handler × Convention) :=
  [("var:get", get, reading), ("var:need", need, reading), ("var:set", set, storing),
    ("var:append", append, storing), ("literal", literal, quoting),
    ("escape", escape, quoting), ("unescape", unescape, restoring)]

def bindings : List (String × Binding) :=
  table.map fun (name, handler, convention) => (name, ⟨handler, convention, true⟩)

end TagTemplate.CoreTags
