import TagTemplate.Proofs.Evaluation.Steps

/-!
The call of a tag once it has been looked up, and what an item of a document begins with.
-/

namespace TagTemplate

/-- The call of a tag that has been looked up. -/
structure Invocation where
  document : Document
  index : Nat
  tag : Tag
  closer : Option Nat
  resolved : Resolved

namespace Invocation

def binding (invocation : Invocation) : Binding :=
  invocation.resolved.binding

def convention (invocation : Invocation) : Convention :=
  invocation.binding.convention

/-- Reserves a slot if the call is deferred. -/
def reserve (invocation : Invocation) (engine : Engine) : Option Nat × Engine :=
  if invocation.convention.deferred then
    let (slot, deferred) := engine.deferred.reserve
    (some slot, { engine with deferred })
  else (none, engine)

/-- What the handler is given, once the text of the body is known. -/
def call (invocation : Invocation) (settings : Settings) (body : Option String) :
    Except TemplateError TagCall :=
  let (param, body) := Evaluation.sides invocation.resolved invocation.closer.isSome body
  Evaluation.decoded settings invocation.document invocation.tag invocation.resolved param body

theorem call_eq (invocation : Invocation) (settings : Settings) (body : Option String) :
    let sides := Evaluation.sides invocation.resolved invocation.closer.isSome body
    invocation.call settings body = Evaluation.decoded settings invocation.document invocation.tag
      invocation.resolved sides.1 sides.2 :=
  rfl

theorem document_of_call {invocation : Invocation} {settings : Settings} {body : Option String}
    {call : TagCall} (given : invocation.call settings body = .ok call) : call.document = none :=
  (Evaluation.decoded_eq_ok_iff.mp given).2.2.2.2.2

theorem undocumented_of_call {invocation : Invocation} {settings : Settings}
    {body : Option String} {call : TagCall} (given : invocation.call settings body = .ok call) :
    { call with document := none } = call := by
  rw [← document_of_call given]

/-- The rest of a call, once the text of the body is known. -/
def conclude (level : Evaluation.Level) (invocation : Invocation) (slot : Option Nat)
    (body : Option String) : Evaluation String := do
  let call ← EngineT.settle (invocation.call (← get).settings body)
  match slot with
  | some slot =>
    EngineT.change (Evaluation.fillSlot slot ⟨invocation.binding, call⟩)
    return ""
  | none =>
    Evaluation.again level invocation.convention
      (← invocation.binding.runNamed (Evaluation.host level) call)

/-- The rest of a call, once it is recorded. -/
def run (level : Evaluation.Level) (invocation : Invocation) : Evaluation String := do
  let slot ← EngineT.step fun engine =>
    (.ok (invocation.reserve engine).1, (invocation.reserve engine).2)
  let body ← Evaluation.bodyText level invocation.document invocation.convention
    invocation.index invocation.closer
  invocation.conclude level slot body

end Invocation

/-- What the evaluation of an item begins with: it is written at once, or it calls a tag. -/
inductive Meeting where
  | written (text : String)
  | invoked (invocation : Invocation)

def Item.meet (document : Document) (engine : Engine) :
    Item → Except TemplateError Meeting × Engine
  | .text s => (.ok (.written s), engine)
  | .dangling tag => (.ok (.written (engine.settings.danglingText tag)), engine)
  | .unresolved tag => (.error (.unresolved (tag.ref engine.settings.delimiters)), engine)
  | .call index tag closer =>
    match engine.resolve tag.name tag.param with
    | (.error error, engine) => (.error error, engine)
    | (.ok none, engine) =>
      ((Evaluation.unknownText engine.settings document index tag closer).map .written, engine)
    | (.ok (some resolved), engine) =>
      ((Evaluation.checked engine.settings document tag resolved closer.isSome).map fun () =>
        .invoked ⟨document, index, tag, closer, resolved⟩, engine)

/-- A tag that is called has been looked up, and its convention permits the call. -/
theorem Item.found_of_meet {item : Item} {document : Document} {engine : Engine}
    {invocation : Invocation}
    (invoked : (item.meet document engine).1 = .ok (.invoked invocation)) :
    item = .call invocation.index invocation.tag invocation.closer ∧
      invocation.document = document ∧
      (engine.registry.resolve invocation.tag.name invocation.tag.param).1 =
        .ok (some invocation.resolved) ∧
      Evaluation.callViolation invocation.convention invocation.resolved.param
        invocation.closer.isSome = none := by
  cases item with
  | text | dangling | unresolved => cases invoked
  | call index tag closer =>
      have looked : (engine.registry.resolve tag.name tag.param).1 =
          (engine.resolve tag.name tag.param).1 := rfl
      simp only [Item.meet] at invoked
      generalize engine.resolve tag.name tag.param = found at invoked looked
      obtain ⟨error | _ | resolved, met⟩ := found
      · cases invoked
      · dsimp only at invoked
        generalize Evaluation.unknownText met.settings document index tag closer = text at invoked
        cases text <;> cases invoked
      · simp only [Evaluation.checked] at invoked
        cases permitted : Evaluation.callViolation resolved.binding.convention resolved.param
          closer.isSome <;> rw [permitted] at invoked <;> cases invoked
        exact ⟨rfl, rfl, looked, permitted⟩

/-- What an item begins with does nothing to the engine but look its tag up. -/
theorem Item.engine_of_meet (item : Item) (document : Document) (engine : Engine) :
    (item.meet document engine).2 = engine ∨
      ∃ tag : Tag, (item.meet document engine).2 =
        ((Action.resolve tag.name tag.param).perform engine).2 := by
  cases item with
  | text | dangling | unresolved => exact .inl rfl
  | call index tag closer =>
      refine .inr ⟨tag, ?_⟩
      simp only [Item.meet, Action.perform]
      rcases engine.resolve tag.name tag.param with ⟨error | _ | resolved, met⟩ <;> rfl

namespace Evaluation

/-- A call is checked and recorded before anything else is done. -/
theorem callResolved_eq_run (level : Level) (document : Document) (index : Nat) (tag : Tag)
    (closer : Option Nat) (resolved : Resolved) :
    callResolved level document index tag closer resolved = (do
      check document tag resolved closer.isSome
      EngineT.change (recordCall tag.name)
      Invocation.run level ⟨document, index, tag, closer, resolved⟩) := by
  rw [callResolved_eq]
  congr 1
  funext _
  congr 1
  funext _
  cases deferred : resolved.binding.convention.deferred <;>
    simp only [Invocation.run, Invocation.conclude, Invocation.reserve, Invocation.convention,
      Invocation.binding, Invocation.call, prepare, bind_assoc, deferred, if_true,
      Bool.false_eq_true, if_false] <;> rfl

theorem on_item (level : Level) (document : Document) (first : Item) (engine : Engine) :
    (item level document first).on engine =
      match first.meet document engine with
      | (.error error, engine) => (.error error, engine)
      | (.ok (.written s), engine) => (.ok s, engine)
      | (.ok (.invoked invocation), engine) =>
        (invocation.run level).on (recordCall invocation.tag.name engine) := by
  cases first with
  | text s => rfl
  | dangling tag => exact on_dangling level document tag
  | unresolved tag => rfl
  | call index tag closer =>
      simp only [item, callTag, on_bind, on_step, Item.meet]
      rcases engine.resolve tag.name tag.param with ⟨error | _ | resolved, met⟩
      · rfl
      · simp only [proceed_ok, on_unknownTag]
        cases unknownText met.settings document index tag closer <;> rfl
      · simp only [proceed_ok, callResolved_eq_run, on_bind, on_check]
        cases checked met.settings document tag resolved closer.isSome <;> rfl

end Evaluation

theorem Engine.parse_of_toOption {engine : Engine} {source : String} {document : Document}
    (parsed : (engine.parse source).toOption = some document) :
    engine.parse source = .ok document := by
  cases found : engine.parse source with
  | error error => simp [found, Except.toOption] at parsed
  | ok other =>
      rw [found] at parsed
      cases parsed
      rfl

end TagTemplate
