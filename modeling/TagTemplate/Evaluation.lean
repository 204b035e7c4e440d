import TagTemplate.Engine

/-!
Expanding documents.

A range of segments is evaluated on a level of its own, with a frame on the call
stack: literals are copied, and every open tag is called.  A call looks its tag up,
checks parameter and body against the convention, records itself on the call stack,
builds and decodes the body, and runs the handler, or queues it where the convention
is deferred.  After the main pass the queue is replayed over the whole output.

The number of levels that may still be opened bounds the recursion.  Replay alone has
no bound of its own, since a deferred handler may queue further calls without end; it
is given the number of batches it may run.
-/

namespace TagTemplate

/-- Computations on an engine.  An error does not undo what has been done before. -/
abbrev EngineT (m : Type → Type) : Type → Type := ExceptT TemplateError (StateT Engine m)

/-- Evaluation inside a level, which always ends. -/
abbrev Evaluation : Type → Type := EngineT Id

namespace EngineT

variable {m : Type → Type} [Monad m] {α : Type}

def step (f : Engine → Except TemplateError α × Engine) : EngineT m α :=
  ExceptT.mk fun engine => pure (f engine)

def change (f : Engine → Engine) : EngineT m Unit :=
  step fun engine => (.ok (), f engine)

/-- Runs a computation and hands its result on, be it an error or not. -/
def attempt (x : EngineT m α) : EngineT m (Except TemplateError α) :=
  ExceptT.mk (Except.ok <$> x.run)

/-- Fails if a result is an error. -/
def settle (result : Except TemplateError α) : EngineT m α :=
  ExceptT.mk (pure result)

/-- Runs `x` between two changes of the engine; the second one is made after an error
too. -/
def between (before after : Engine → Engine) (x : EngineT m α) : EngineT m α := do
  change before
  let result ← attempt x
  change after
  settle result

/-- An evaluation inside a level, as part of any computation. -/
def ofEvaluation (x : Evaluation α) : EngineT m α :=
  step fun engine => x.run engine

end EngineT

/-- How the requests of a handler that expand something are carried out. -/
structure Host (m : Type → Type) where
  expand : String → EngineT m String
  render : String → EngineT m String
  evaluate : EngineT m String

def Program.run {m : Type → Type} [Monad m] (host : Host m) : Program → EngineT m String
  | .done text => pure text
  | .fail error => throw error
  | .inspect next => do (next (← get).view).run host
  | .act action next => do
    let answer ← EngineT.step fun engine =>
      let (answer, engine) := action.perform engine
      (.ok answer, engine)
    (next answer).run host
  | .expand text next => do
    let answer ← EngineT.attempt (host.expand text)
    (next answer).run host
  | .render text next => do
    let answer ← EngineT.attempt (host.render text)
    (next answer).run host
  | .evaluate next => do
    let answer ← EngineT.attempt host.evaluate
    (next answer).run host
  | .register name handler convention next => do
    let answer ← EngineT.attempt
      (EngineT.step fun engine => engine.register name ⟨handler, convention, false⟩)
    (next answer).run host
  | .setAutoload autoload next => do
    EngineT.change fun engine => engine.setAutoload autoload
    next.run host
termination_by structural program => program

/-- Calls a handler, and notes the call in the journal. -/
def Binding.run {m : Type → Type} [Monad m] (host : Host m) (binding : Binding)
    (call : TagCall) : EngineT m String := do
  EngineT.change fun engine =>
    engine.record [.called call binding.builtIn engine.depth engine.callStack.depth]
  (binding.handler call).run host

/-- Calls a handler and names the tag of an error that it raised without one. -/
def Binding.runNamed {m : Type → Type} [Monad m] (host : Host m) (binding : Binding)
    (call : TagCall) : EngineT m String := do
  match ← EngineT.attempt (binding.run host call) with
  | .ok text => return text
  | .error error => throw (error.attributedTo call.name)

namespace Evaluation

/-- How a range of the segments of a document is evaluated. -/
abbrev Level := Document → Nat → Nat → Evaluation String

def whole (level : Level) (document : Document) : Evaluation String :=
  level document 0 document.size

def text (level : Level) (source : String) : Evaluation String := do
  let document ← EngineT.step fun engine => (engine.parse source, engine)
  whole level document

/-- The host of the handlers inside an evaluation: whatever they expand is evaluated on
the next level, and rendering a text does not load it. -/
def host (level : Level) : Host Id where
  expand source := text level source
  render source := text level source
  evaluate := do whole level (← get).document

/-- How many bytes of source around a tag are shown in the violation of a convention. -/
def excerptRadius : Nat := 24

/-- The error that a call breaks its convention. -/
def violated (d : Delimiters) (document : Document) (tag : Tag) (violation : Violation) :
    TemplateError :=
  .convention (tag.ref d) violation (Text.excerpt document.source tag.start excerptRadius)

/-- The rule that the presence of a parameter and a body breaks, if there is one. -/
def arityViolation (convention : Convention) (hasParam hasBody : Bool) : Option Violation :=
  if convention.param = .required ∧ !hasParam then some .missingParam
  else if convention.param = .forbidden ∧ hasParam then some .unexpectedParam
  else if convention.body = .required ∧ !hasBody then some .missingBody
  else if convention.body = .forbidden ∧ hasBody then some .unexpectedBody
  else none

/-- Whether a call takes its parameter from its body. -/
def bodyAsParam (convention : Convention) (param : String) (hasBody : Bool) : Bool :=
  convention.oneParam && Text.allBlank param && hasBody

/-- The rule that a call breaks before anything has happened, if there is one.  Where one
parameter is taken from either side, a call must not give both; a body that takes the
place of the parameter counts as one. -/
def callViolation (convention : Convention) (param : String) (hasBody : Bool) :
    Option Violation :=
  let hasParam := !Text.allBlank param
  if convention.oneParam && hasParam && hasBody then some .paramAndBody
  else if bodyAsParam convention param hasBody then arityViolation convention true false
  else arityViolation convention hasParam hasBody

/-- What is written for a tag that no binding handles. -/
def unknownTag (document : Document) (index : Nat) (tag : Tag) (closer : Option Nat) :
    Evaluation String := do
  let settings := (← get).settings
  let d := settings.delimiters
  match settings.unknownTag with
  | .abort => throw (.unknownTag (tag.ref d))
  | .ignore => return ""
  | .keep => return document.raw d index ((closer.getD index) + 1)
  | .debug =>
    let body := (closer.map fun closer => document.raw d (index + 1) closer).getD ""
    return "[unknown " ++ d.escape (d.wrap tag.name tag.param) ++ "]" ++ body ++
      "[/unknown " ++ tag.name ++ "]"

/-- The text of the body of a tag: as it is written where the convention asks for that,
else evaluated on the next level. -/
def bodyText (level : Level) (document : Document) (convention : Convention) (index : Nat) :
    Option Nat → Evaluation (Option String)
  | none => return none
  | some closer =>
    if convention.rawBody then
      return some (document.raw (← get).settings.delimiters (index + 1) closer)
    else
      return some (← level document (index + 1) closer)

/-- Decodes the parameter and the body of a call. -/
def decode (document : Document) (tag : Tag) (resolved : Resolved) (param : String)
    (body : Option String) : Evaluation TagCall := do
  let settings := (← get).settings
  let convention := resolved.binding.convention
  let decoded ← match body with
    | none => pure Body.none
    | some text =>
      match Shape.decodeBody settings.shapes convention.bodyShape text with
      | .ok body => pure body
      | .error fault =>
        throw (violated settings.delimiters document tag
          (.invalidBody convention.bodyShape.label fault.message))
  return {
    name := resolved.name
    tag := tag.name
    param := Shape.decodeParam convention.paramShape settings.delimiters.separator param
    body := decoded
    offset := tag.start
    document := none }

def reserveSlot : Evaluation Nat :=
  EngineT.step fun engine =>
    let (slot, deferred) := engine.deferred.reserve
    (.ok slot, { engine with deferred })

/-- Expands the output of a handler again where its convention asks for that. -/
def again (level : Level) (convention : Convention) (output : String) : Evaluation String :=
  if convention.redo then text level output else pure output

/-- Calls a tag that has been looked up. -/
def callResolved (level : Level) (document : Document) (index : Nat) (tag : Tag)
    (closer : Option Nat) (resolved : Resolved) : Evaluation String := do
  let convention := resolved.binding.convention
  match callViolation convention resolved.param closer.isSome with
  | some violation =>
    throw (violated (← get).settings.delimiters document tag violation)
  | none => pure ()
  EngineT.change fun engine => { engine with callStack := engine.callStack.record tag.name }
  let slot ← if convention.deferred then some <$> reserveSlot else pure none
  let body ← bodyText level document convention index closer
  let (param, body) :=
    if bodyAsParam convention resolved.param closer.isSome then (body.getD "", none)
    else (resolved.param, body)
  let call ← decode document tag resolved param body
  match slot with
  | some slot =>
    EngineT.change fun engine =>
      { engine with deferred := engine.deferred.fill slot ⟨resolved.binding, call⟩ }
    return ""
  | none => again level convention (← resolved.binding.runNamed (host level) call)

def callTag (level : Level) (document : Document) (index : Nat) (tag : Tag)
    (closer : Option Nat) : Evaluation String := do
  match ← EngineT.step fun engine => engine.resolve tag.name tag.param with
  | some resolved => callResolved level document index tag closer resolved
  | none => unknownTag document index tag closer

/-- The text of one item of a document. -/
def item (level : Level) (document : Document) : Item → Evaluation String
  | .text s => return s
  | .call index tag closer => callTag level document index tag closer
  | .dangling tag => do
    let settings := (← get).settings
    match settings.danglingEnd with
    | .keep => return settings.delimiters.wrap tag.name tag.param
    | .drop => return ""
  | .unresolved tag => do throw (.unresolved (tag.ref (← get).settings.delimiters))

def items (level : Level) (document : Document) : List Item → Evaluation String
  | [] => return ""
  | first :: rest => do
    let head ← item level document first
    let tail ← items level document rest
    return head ++ tail

/-- Opens a level: a frame on the call stack. -/
def enter (engine : Engine) : Engine :=
  { engine with depth := engine.depth + 1, callStack := engine.callStack.push }

def leave (engine : Engine) : Engine :=
  { engine with depth := engine.depth - 1, callStack := engine.callStack.pop }

/-- Evaluates a range of segments on a level of its own, while there are levels left. -/
def range : Nat → Level
  | 0, _, _, _ => do throw (.recursionLimit (← get).settings.maxDepth)
  | levels + 1, document, start, stop =>
    EngineT.between enter leave (items (range levels) document (document.outline start stop))

/-- Replays one deferred call over the output of the document. -/
def replayOne (level : Level) (output : String) (entry : DeferredCall) : Evaluation String := do
  let call := { entry.call with document := some output }
  again level entry.binding.convention (← entry.binding.runNamed (host level) call)

/-- Takes the queued calls out of the queue. -/
def drain : Evaluation (List DeferredCall) :=
  EngineT.step fun engine =>
    let (entries, deferred) := engine.deferred.drain
    (.ok entries, { engine with deferred })

end Evaluation

/-- An expansion from the outside, which may not end within a number of batches of
deferred calls. -/
abbrev Expansion : Type → Type := EngineT Option

namespace Expansion

open Evaluation (Level)

/-- Replays deferred calls until none is left.  Calls queued meanwhile form the next
batch. -/
def replay (level : Level) : Nat → String → Expansion String
  | batches, output => do
    let entries ← EngineT.ofEvaluation Evaluation.drain
    if entries.isEmpty then return output
    match batches with
    | 0 => ExceptT.mk fun _ => none
    | batches + 1 =>
      let output ← EngineT.ofEvaluation (entries.foldlM (Evaluation.replayOne level) output)
      replay level batches output

def begin (engine : Engine) : Engine :=
  { engine with callStack := .empty, deferred := .empty, depth := 0, evaluating := true }

/-- Ends an evaluation; deferred calls that an error left behind are forgotten. -/
def finish (engine : Engine) : Engine :=
  { engine with evaluating := false, deferred := .empty }

def document (batches : Nat) (document : Document) : Expansion String := do
  let level := Evaluation.range (← get).settings.maxDepth
  EngineT.between begin finish do
    let output ← EngineT.ofEvaluation (Evaluation.whole level document)
    replay level batches output

/-- Carries out `inside` with the levels left if an evaluation is running, and `outside`
if none is. -/
def joining (inside : Level → Evaluation String) (outside : Expansion String) :
    Expansion String := do
  let engine ← get
  if engine.evaluating then EngineT.ofEvaluation (inside (Evaluation.range engine.levelsLeft))
  else outside

def evaluate (batches : Nat) : Expansion String :=
  joining (fun level => do Evaluation.whole level (← get).document)
    (do document batches (← get).document)

/-- Expands a text; the loaded document stays. -/
def expand (batches : Nat) (source : String) : Expansion String :=
  joining (fun level => Evaluation.text level source)
    (do
      let parsed ← EngineT.step fun engine => (engine.parse source, engine)
      document batches parsed)

/-- Loads a text and expands it.  While an evaluation is running, the text is only
expanded. -/
def render (batches : Nat) (source : String) : Expansion String :=
  joining (fun level => Evaluation.text level source)
    (do
      EngineT.step fun engine => engine.load source
      evaluate batches)

/-- The host of a handler that is called from outside: whatever it expands is a complete
expansion. -/
def host (batches : Nat) : Host Option where
  expand := expand batches
  render := render batches
  evaluate := evaluate batches

/-- Calls a handler directly. -/
def call (batches : Nat) (binding : Binding) (call : TagCall) : Expansion String :=
  binding.run (host batches) call

end Expansion

end TagTemplate
