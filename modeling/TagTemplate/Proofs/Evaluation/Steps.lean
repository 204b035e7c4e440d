import TagTemplate.Evaluation

/-!
The steps of a call, and what each step of an evaluation does to an engine.

`Evaluation.on` applies an evaluation to an engine.  A call is cut into the check of its
convention, which changes nothing, the preparation of what the handler is given, and the
run of the handler or its deferral.
-/

namespace TagTemplate

/-- The text that a close tag without an open tag leaves. -/
def Settings.danglingText (settings : Settings) (tag : Tag) : String :=
  match settings.danglingEnd with
  | .keep => settings.delimiters.wrap tag.name tag.param
  | .drop => ""

namespace Evaluation

variable {α β : Type} {x : Evaluation α} {engine : Engine}

/-- What an evaluation returns on an engine, and the engine afterwards. -/
def on (x : Evaluation α) (engine : Engine) : Except TemplateError α × Engine :=
  x.run engine

/-- Goes on with the value of a result; an error ends it. -/
def proceed (outcome : Except TemplateError α × Engine) (next : α → Evaluation β) :
    Except TemplateError β × Engine :=
  match outcome with
  | (.ok a, engine) => (next a).on engine
  | (.error error, engine) => (.error error, engine)

@[simp] theorem proceed_ok (a : α) (next : α → Evaluation β) :
    proceed (.ok a, engine) next = (next a).on engine := rfl

@[simp] theorem proceed_error (error : TemplateError) (next : α → Evaluation β) :
    proceed (.error error, engine) next = (.error error, engine) := rfl

@[simp] theorem on_bind (x : Evaluation α) (f : α → Evaluation β) :
    Evaluation.on (x >>= f) engine = proceed (x.on engine) f := by
  change ExceptT.bindCont f (x engine).1 (x engine).2 = proceed (x engine) f
  rcases x engine with ⟨_ | _, after⟩ <;> rfl

@[simp] theorem on_pure (a : α) : Evaluation.on (pure a) engine = (.ok a, engine) := rfl

@[simp] theorem on_get : Evaluation.on get engine = (.ok engine, engine) := rfl

@[simp] theorem on_step (f : Engine → Except TemplateError α × Engine) :
    Evaluation.on (EngineT.step f) engine = f engine := rfl

@[simp] theorem on_change (f : Engine → Engine) :
    Evaluation.on (EngineT.change f) engine = (.ok (), f engine) := rfl

@[simp] theorem on_settle (result : Except TemplateError α) :
    Evaluation.on (EngineT.settle result) engine = (result, engine) := rfl

@[simp] theorem on_attempt (x : Evaluation α) :
    Evaluation.on (EngineT.attempt x) engine = (.ok (x.on engine).1, (x.on engine).2) := rfl

@[simp] theorem on_between (before behind : Engine → Engine) (x : Evaluation α) :
    Evaluation.on (EngineT.between before behind x) engine =
      ((x.on (before engine)).1, behind (x.on (before engine)).2) := rfl

@[simp] theorem leave_enter (engine : Engine) : leave (enter engine) = engine := rfl

theorem on_items_cons {level : Level} {document : Document} {first : Item} {head : String}
    {middle : Engine} (evaluated : (item level document first).on engine = (.ok head, middle))
    (rest : List Item) :
    (items level document (first :: rest)).on engine =
      (((items level document rest).on middle).1.map (head ++ ·),
        ((items level document rest).on middle).2) := by
  rw [items, on_bind, evaluated, proceed_ok, on_bind]
  rcases (items level document rest).on middle with ⟨_ | _, after⟩ <;> rfl

theorem on_runNamed (host : Host Id) (binding : Binding) (call : TagCall) (engine : Engine) :
    Evaluation.on (binding.runNamed host call) engine =
      ((Evaluation.on (binding.run host call) engine).1.mapError
        (TemplateError.attributedTo call.name),
        (Evaluation.on (binding.run host call) engine).2) := by
  simp only [Binding.runNamed, on_bind, on_attempt, proceed_ok]
  cases (Evaluation.on (binding.run host call) engine).1 <;> rfl

/-- The error of a call that breaks its convention. -/
def checked (settings : Settings) (document : Document) (tag : Tag) (resolved : Resolved)
    (hasBody : Bool) : Except TemplateError Unit :=
  match callViolation resolved.binding.convention resolved.param hasBody with
  | some violation => .error (violated settings.delimiters document tag violation)
  | none => .ok ()

/-- What is written for a tag that no binding handles. -/
def unknownText (settings : Settings) (document : Document) (index : Nat) (tag : Tag)
    (closer : Option Nat) : Except TemplateError String :=
  match settings.unknownTag with
  | .abort => .error (.unknownTag (tag.ref settings.delimiters))
  | .ignore => .ok ""
  | .keep => .ok (document.raw settings.delimiters index ((closer.getD index) + 1))
  | .debug => .ok ("[unknown " ++
      settings.delimiters.escape (settings.delimiters.wrap tag.name tag.param) ++ "]" ++
      (closer.map fun closer => document.raw settings.delimiters (index + 1) closer).getD "" ++
      "[/unknown " ++ tag.name ++ "]")

/-- Fails where a call breaks its convention. -/
def check (document : Document) (tag : Tag) (resolved : Resolved) (hasBody : Bool) :
    Evaluation Unit := do
  match callViolation resolved.binding.convention resolved.param hasBody with
  | some violation => throw (violated (← get).settings.delimiters document tag violation)
  | none => pure ()

/-- The parameter and the body that a call is made with, given the text of its body. -/
def sides (resolved : Resolved) (hasBody : Bool) (body : Option String) :
    String × Option String :=
  if bodyAsParam resolved.binding.convention resolved.param hasBody then (body.getD "", none)
  else (resolved.param, body)

/-- The decoded body of a call. -/
def decodedBody (settings : Settings) (document : Document) (tag : Tag) (shape : BodyShape) :
    Option String → Except TemplateError Body
  | none => .ok .none
  | some text =>
    (Shape.decodeBody settings.shapes shape text).mapError fun fault =>
      violated settings.delimiters document tag (.invalidBody shape.label fault.message)

/-- The call that a handler is given, decoded from the texts of its parameter and body. -/
def decoded (settings : Settings) (document : Document) (tag : Tag) (resolved : Resolved)
    (param : String) (body : Option String) : Except TemplateError TagCall :=
  (decodedBody settings document tag resolved.binding.convention.bodyShape body).map fun body => {
    name := resolved.name
    tag := tag.name
    param := Shape.decodeParam resolved.binding.convention.paramShape
      settings.delimiters.separator param
    body
    offset := tag.start
    document := none }

/-- Prepares what a handler is given. -/
def prepare (level : Level) (document : Document) (index : Nat) (tag : Tag)
    (closer : Option Nat) (resolved : Resolved) : Evaluation TagCall := do
  let body ← bodyText level document resolved.binding.convention index closer
  let (param, body) := sides resolved closer.isSome body
  EngineT.settle (decoded (← get).settings document tag resolved param body)

/-- Notes a call on the newest frame. -/
def recordCall (name : String) (engine : Engine) : Engine :=
  { engine with callStack := engine.callStack.record name }

/-- Fills a reserved slot. -/
def fillSlot (slot : Nat) (entry : DeferredCall) (engine : Engine) : Engine :=
  { engine with deferred := engine.deferred.fill slot entry }

variable {level : Level} {document : Document} {index : Nat} {tag : Tag}
  {closer : Option Nat} {resolved : Resolved}

theorem decode_eq (document : Document) (tag : Tag) (resolved : Resolved) (param : String)
    (body : Option String) :
    decode document tag resolved param body = (do
      EngineT.settle (decoded (← get).settings document tag resolved param body)) := by
  unfold decode decoded decodedBody
  congr 1
  funext engine
  cases body with
  | none => rfl
  | some text =>
      dsimp only
      cases Shape.decodeBody engine.settings.shapes resolved.binding.convention.bodyShape text with
      | ok body => rfl
      | error fault => rfl

/-- What is known of a decoded call. -/
theorem decoded_eq_ok_iff {settings : Settings} {param : String} {body : Option String}
    {call : TagCall} :
    decoded settings document tag resolved param body = .ok call ↔
      call.name = resolved.name ∧ call.tag = tag.name ∧
      call.param = Shape.decodeParam resolved.binding.convention.paramShape
        settings.delimiters.separator param ∧
      decodedBody settings document tag resolved.binding.convention.bodyShape body =
        .ok call.body ∧
      call.offset = tag.start ∧ call.document = none := by
  rw [decoded]
  cases decodedBody settings document tag resolved.binding.convention.bodyShape body with
  | error error => simp [Except.map]
  | ok body =>
      obtain ⟨name, tag, param, decoded, offset, whole⟩ := call
      simp only [Except.map, Except.ok.injEq, TagCall.mk.injEq]
      grind

theorem text_of_decodeBody {shapes : ShapeSyntax} {shape : BodyShape} {given text : String}
    (decoded : Shape.decodeBody shapes shape given = .ok (.text text)) : given = text := by
  cases shape with
  | text =>
      cases decoded
      rfl
  | keyValue =>
      simp only [Shape.decodeBody] at decoded
      cases read : Shape.keyValues shapes given <;> simp [read, Except.map] at decoded
  | json | xml =>
      simp only [Shape.decodeBody] at decoded
      split at decoded <;> simp at decoded
  | list | commaList => simp [Shape.decodeBody] at decoded

theorem text_of_decodedBody {settings : Settings} {shape : BodyShape} {body : Option String}
    {text : String} (decoded : decodedBody settings document tag shape body = .ok (.text text)) :
    body = some text := by
  cases body with
  | none => cases decoded
  | some given =>
      rw [decodedBody] at decoded
      cases read : Shape.decodeBody settings.shapes shape given with
      | error fault =>
          rw [read] at decoded
          cases decoded
      | ok body =>
          rw [read] at decoded
          cases decoded
          rw [text_of_decodeBody read]

theorem on_check (document : Document) (tag : Tag) (resolved : Resolved) (hasBody : Bool) :
    (check document tag resolved hasBody).on engine =
      (checked engine.settings document tag resolved hasBody, engine) := by
  unfold check checked
  cases callViolation resolved.binding.convention resolved.param hasBody <;> rfl

theorem on_unknownTag (document : Document) (index : Nat) (tag : Tag) (closer : Option Nat) :
    (unknownTag document index tag closer).on engine =
      (unknownText engine.settings document index tag closer, engine) := by
  simp only [unknownTag, unknownText, on_bind, on_get, proceed_ok]
  cases engine.settings.unknownTag <;> rfl

theorem on_dangling (level : Level) (document : Document) (tag : Tag) :
    (item level document (.dangling tag)).on engine =
      (.ok (engine.settings.danglingText tag), engine) := by
  simp only [item, Settings.danglingText, on_bind, on_get, proceed_ok]
  cases engine.settings.danglingEnd <;> rfl

/-- An engine whose queue has been taken out. -/
def drained (engine : Engine) : Engine :=
  { engine with deferred := .empty }

@[simp] theorem on_drain : drain.on engine = (.ok engine.deferred.entries, drained engine) := rfl

theorem callResolved_eq (level : Level) (document : Document) (index : Nat) (tag : Tag)
    (closer : Option Nat) (resolved : Resolved) :
    callResolved level document index tag closer resolved = (do
      check document tag resolved closer.isSome
      EngineT.change (recordCall tag.name)
      if resolved.binding.convention.deferred then
        let slot ← reserveSlot
        let call ← prepare level document index tag closer resolved
        EngineT.change (fillSlot slot ⟨resolved.binding, call⟩)
        return ""
      else
        let call ← prepare level document index tag closer resolved
        again level resolved.binding.convention
          (← resolved.binding.runNamed (host level) call)) := by
  unfold callResolved check prepare
  dsimp only
  cases callViolation resolved.binding.convention resolved.param closer.isSome with
  | some violation => rfl
  | none =>
      cases resolved.binding.convention.deferred with
      | false =>
          simp only [decode_eq, sides, pure_bind, bind_assoc, Bool.false_eq_true, if_false]
          rfl
      | true =>
          simp only [decode_eq, sides, pure_bind, bind_assoc, bind_map_left, if_true]
          rfl

end Evaluation

namespace Expansion

open Evaluation (Level range whole)

variable {α β : Type} {engine : Engine}

/-- Goes on with the value of a result; an error ends it. -/
def proceed (next : α → Expansion β) :
    Except TemplateError α × Engine → Option (Except TemplateError β × Engine)
  | (.ok a, engine) => (next a).run engine
  | (.error error, engine) => some (.error error, engine)

@[simp] theorem run_bind (x : Expansion α) (f : α → Expansion β) :
    ExceptT.run (x >>= f) engine = (x.run engine).bind (proceed f) := by
  change (x engine).bind (fun (a, after) => ExceptT.bindCont f a after) = (x engine).bind _
  congr 1
  funext ⟨outcome, after⟩
  cases outcome <;> rfl

@[simp] theorem run_pure (a : α) :
    (pure a : Expansion α).run engine = some (.ok a, engine) := rfl

@[simp] theorem run_get : (get : Expansion Engine).run engine = some (.ok engine, engine) := rfl

@[simp] theorem run_step (f : Engine → Except TemplateError α × Engine) :
    (EngineT.step f : Expansion α).run engine = some (f engine) := rfl

@[simp] theorem run_ofEvaluation (x : Evaluation α) :
    (EngineT.ofEvaluation x : Expansion α).run engine = some (x.on engine) := rfl

@[simp] theorem run_attempt (x : Expansion α) :
    (EngineT.attempt x).run engine =
      (x.run engine).map fun outcome => (.ok outcome.1, outcome.2) := by
  rw [Option.map_eq_bind]
  rfl

theorem run_between (before behind : Engine → Engine) (x : Expansion α) :
    (EngineT.between before behind x).run engine =
      (x.run (before engine)).map fun outcome => (outcome.1, behind outcome.2) := by
  rw [EngineT.between, EngineT.change, run_bind, run_step, Option.bind_some, proceed, run_bind,
    run_attempt]
  cases x.run (before engine) <;> rfl

theorem run_joining {inside : Level → Evaluation String} {outside : Expansion String}
    (idle : engine.evaluating = false) :
    (joining inside outside).run engine = outside.run engine := by
  simp [joining, proceed, idle]

theorem run_document (batches : Nat) (document : Document) (engine : Engine) :
    (Expansion.document batches document).run engine =
      (proceed (replay (range engine.settings.maxDepth) batches)
        ((whole (range engine.settings.maxDepth) document).on (begin engine))).map
          fun outcome => (outcome.1, finish outcome.2) := by
  simp only [Expansion.document, run_bind, run_get, Option.bind_some, proceed, run_between,
    run_ofEvaluation]

theorem run_replay_of_empty {level : Level} {batches : Nat} {output : String}
    (empty : engine.deferred.entries = []) :
    (replay level batches output).run engine = some (.ok output, Evaluation.drained engine) := by
  rw [replay, run_bind]
  simp [proceed, empty]

theorem run_replay_zero {level : Level} {output : String}
    (some : engine.deferred.entries ≠ []) :
    (replay level 0 output).run engine = none := by
  rw [replay, run_bind]
  simp [proceed, some]

theorem run_replay_succ {level : Level} {batches : Nat} {output : String}
    (some : engine.deferred.entries ≠ []) :
    (replay level (batches + 1) output).run engine =
      proceed (replay level batches)
        ((engine.deferred.entries.foldlM (Evaluation.replayOne level) output).on
          (Evaluation.drained engine)) := by
  rw [replay, run_bind]
  simp [proceed, some]

end Expansion

end TagTemplate
