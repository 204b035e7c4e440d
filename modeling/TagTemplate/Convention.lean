import TagTemplate.Error
import TagTemplate.Text.Blank
import TagTemplate.Text.Cut

/-!
Calling conventions: what a tag accepts and how it is called.

A convention says whether a parameter and a body are forbidden, optional or
required, whether the body is expanded before the handler sees it, and into which
shapes parameter and body are decoded.  It is written as a set of flags.
-/

namespace TagTemplate

/-- Whether a parameter or a body may or must be present. -/
inductive Arity where
  | forbidden
  | optional
  | required
deriving DecidableEq, Repr, Inhabited

/-- The shape into which a body is decoded. -/
inductive BodyShape where
  | text
  | keyValue
  | json
  | list
  | commaList
  | xml
deriving DecidableEq, Repr

/-- The name of a body shape in messages. -/
def BodyShape.label : BodyShape → String
  | .text => "text"
  | .keyValue => "key-value list"
  | .json => "JSON document"
  | .list => "list"
  | .commaList => "comma list"
  | .xml => "XML tree"

/-- The shape into which a parameter is decoded. -/
inductive ParamShape where
  | scalar
  /-- cut at the separator of tags -/
  | list
  /-- cut at commas -/
  | commaList
deriving DecidableEq, Repr

inductive Flag where
  | noParam
  | requireParam
  | noBody
  | requireBody
  | text
  | redo
  | oneParam
  | kvBody
  | jsonBody
  | listBody
  | csListBody
  | xmlBody
  | paramList
  | paramCsList
  | postprocess
deriving DecidableEq, Repr

namespace Flag

def all : List Flag :=
  [.noParam, .requireParam, .noBody, .requireBody, .text, .redo, .oneParam, .kvBody,
    .jsonBody, .listBody, .csListBody, .xmlBody, .paramList, .paramCsList, .postprocess]

def name : Flag → String
  | .noParam => "NO_PARAM"
  | .requireParam => "REQUIRE_PARAM"
  | .noBody => "NO_BODY"
  | .requireBody => "REQUIRE_BODY"
  | .text => "TEXT"
  | .redo => "REDO"
  | .oneParam => "ONE_PARAM"
  | .kvBody => "KV_BODY"
  | .jsonBody => "JSON_BODY"
  | .listBody => "LIST_BODY"
  | .csListBody => "CSLIST_BODY"
  | .xmlBody => "XML_BODY"
  | .paramList => "PARAM_LIST"
  | .paramCsList => "PARAM_CSLIST"
  | .postprocess => "POSTPROCESS"

end Flag

/-- A word with its ASCII letters in upper case. -/
def upperAscii (s : String) : String :=
  String.ofList (s.toList.map Char.toUpper)

/-- The error that a convention is not valid, before it is known for which tag. -/
def invalidFlags (message : String) : TemplateError :=
  .invalidConvention "" message

/-- The flag with a name, in any case and with white space around it. -/
def Flag.parse (s : String) : Except TemplateError Flag :=
  let wanted := Text.trim s
  match Flag.all.find? fun flag => flag.name == upperAscii wanted with
  | some flag => .ok flag
  | none => .error (invalidFlags ("unknown flag '" ++ wanted ++ "'"))

/-- What a tag accepts and how it is called. -/
structure Convention where
  param : Arity := .optional
  body : Arity := .optional
  /-- the body is passed as it is written, without expansion -/
  rawBody : Bool := false
  bodyShape : BodyShape := .text
  paramShape : ParamShape := .scalar
  /-- a blank parameter is taken from the body -/
  oneParam : Bool := false
  /-- what the handler returns is expanded again -/
  redo : Bool := false
  /-- the handler runs once the whole document is expanded -/
  deferred : Bool := false
deriving DecidableEq, Repr

namespace Convention

/-- The convention that accepts anything and expands bodies. -/
def default : Convention := {}

instance : Inhabited Convention := ⟨default⟩

/-- Refuses combinations that no call can satisfy. -/
def validate (c : Convention) : Except String Unit :=
  if c.body = .forbidden ∧ c.bodyShape ≠ .text then
    .error ("a " ++ c.bodyShape.label ++ " body shape needs a body")
  else if c.body = .forbidden ∧ c.rawBody then
    .error "raw text body mode needs a body"
  else if c.param = .forbidden ∧ c.paramShape ≠ .scalar then
    .error "parameter decoding needs a parameter"
  else if c.oneParam then
    if c.param = .forbidden ∨ c.body = .forbidden then
      .error "ONE_PARAM needs both a parameter and a body slot"
    else if c.body = .required then
      .error "ONE_PARAM takes the body as parameter; it cannot be required"
    else if c.bodyShape ≠ .text then
      .error "ONE_PARAM bodies cannot be decoded"
    else .ok ()
  else .ok ()

def flags (c : Convention) : List Flag :=
  (match c.param with
    | .forbidden => [.noParam]
    | .required => [.requireParam]
    | .optional => []) ++
  (match c.body with
    | .forbidden => [.noBody]
    | .required => [.requireBody]
    | .optional => []) ++
  (if c.rawBody then [.text] else []) ++
  (if c.redo then [.redo] else []) ++
  (if c.oneParam then [.oneParam] else []) ++
  (match c.bodyShape with
    | .text => []
    | .keyValue => [.kvBody]
    | .json => [.jsonBody]
    | .list => [.listBody]
    | .commaList => [.csListBody]
    | .xml => [.xmlBody]) ++
  (match c.paramShape with
    | .scalar => []
    | .list => [.paramList]
    | .commaList => [.paramCsList]) ++
  (if c.deferred then [.postprocess] else [])

def text (c : Convention) : String :=
  match c.flags with
  | [] => "DEFAULT"
  | flags => "|".intercalate (flags.map Flag.name)

/-- A convention that is being put together from flags.  An aspect is `none` until a
flag sets it. -/
structure Draft where
  param : Option Arity := none
  body : Option Arity := none
  rawBody : Bool := false
  bodyShape : Option BodyShape := none
  paramShape : Option ParamShape := none
  oneParam : Bool := false
  redo : Bool := false
  deferred : Bool := false
deriving DecidableEq, Repr

/-- Sets an aspect, unless it is set to something else. -/
def settle {α : Type} [DecidableEq α] (conflict : String) (value : α) (aspect : Option α) :
    Except TemplateError (Option α) :=
  if aspect.any (· ≠ value) then .error (invalidFlags conflict) else .ok (some value)

namespace Draft

def setParam (arity : Arity) (draft : Draft) : Except TemplateError Draft := do
  return { draft with
    param := ← settle "NO_PARAM and REQUIRE_PARAM are exclusive" arity draft.param }

def setBody (arity : Arity) (draft : Draft) : Except TemplateError Draft := do
  return { draft with
    body := ← settle "NO_BODY and REQUIRE_BODY are exclusive" arity draft.body }

def setBodyShape (shape : BodyShape) (draft : Draft) : Except TemplateError Draft := do
  return { draft with
    bodyShape := ← settle "only one body shape flag may be set" shape draft.bodyShape }

def setParamShape (shape : ParamShape) (draft : Draft) : Except TemplateError Draft := do
  return { draft with
    paramShape := ← settle "PARAM_LIST and PARAM_CSLIST are exclusive" shape draft.paramShape }

def addFlag (draft : Draft) : Flag → Except TemplateError Draft
  | .noParam => draft.setParam .forbidden
  | .requireParam => draft.setParam .required
  | .noBody => draft.setBody .forbidden
  | .requireBody => draft.setBody .required
  | .text => .ok { draft with rawBody := true }
  | .redo => .ok { draft with redo := true }
  | .oneParam => .ok { draft with oneParam := true }
  | .kvBody => draft.setBodyShape .keyValue
  | .jsonBody => draft.setBodyShape .json
  | .listBody => draft.setBodyShape .list
  | .csListBody => draft.setBodyShape .commaList
  | .xmlBody => draft.setBodyShape .xml
  | .paramList => draft.setParamShape .list
  | .paramCsList => draft.setParamShape .commaList
  | .postprocess => .ok { draft with deferred := true }

/-- The convention of a draft; what no flag has set stays at its default. -/
def finish (draft : Draft) : Convention where
  param := draft.param.getD .optional
  body := draft.body.getD .optional
  rawBody := draft.rawBody
  bodyShape := draft.bodyShape.getD .text
  paramShape := draft.paramShape.getD .scalar
  oneParam := draft.oneParam
  redo := draft.redo
  deferred := draft.deferred

end Draft

/-- The convention that a list of flags describes.  Flags that contradict each other
and combinations that no call can satisfy are errors. -/
def ofFlags (flags : List Flag) : Except TemplateError Convention := do
  let draft ← flags.foldlM Draft.addFlag {}
  let convention := draft.finish
  match convention.validate with
  | .ok () => return convention
  | .error message => throw (invalidFlags message)

/-- The parts of a flag text: between bars, trimmed, without empty parts and without
the word for no flags. -/
def flagWords (s : String) : List String :=
  ((Text.split "|" s).map Text.trim).filter fun word =>
    !word.isEmpty && upperAscii word != "DEFAULT"

/-- The convention that a text of flags between bars describes. -/
def parse (s : String) : Except TemplateError Convention := do
  ofFlags (← (flagWords s).mapM Flag.parse)

example : (parse " no_param | REQUIRE_BODY||default|TEXT").toOption.map text =
    some "NO_PARAM|REQUIRE_BODY|TEXT" := by decide

end Convention

end TagTemplate
