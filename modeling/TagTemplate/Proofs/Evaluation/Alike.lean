import Mathlib.Data.List.Forall2
import TagTemplate.Proofs.Evaluation.Balance

/-!
Two evaluations side by side.

One tag is bound in two ways: its body is expanded in its place, or its handler is given the
raw body and expands it late.  Everything else is alike on both sides, which is to say that
nothing differs but the convention of this tag, the positions of tags and the errors that come
out of expansions.  Handlers that treat what is alike alike are blind to these.
-/

namespace TagTemplate

/-- The body is expanded in its place and returned. -/
def Binding.inPlace : Binding where
  handler call := .done call.body.asText
  convention := { body := .required }
  builtIn := false

/-- The raw body is expanded by the handler, and the result is returned. -/
def Binding.late : Binding where
  handler call := .expand call.body.asText fun
    | .ok text => .done text
    | .error error => .fail error
  convention := { body := .required, rawBody := true }
  builtIn := false

/-- Both succeed, with related values, or both fail. -/
inductive SameSuccess {α β : Type} (related : α → β → Prop) :
    Except TemplateError α → Except TemplateError β → Prop where
  | ok {a : α} {b : β} (values : related a b) : SameSuccess related (.ok a) (.ok b)
  | error (error other : TemplateError) : SameSuccess related (.error error) (.error other)

theorem SameSuccess.mapError {α β : Type} {related : α → β → Prop}
    {result : Except TemplateError α} {other : Except TemplateError β}
    (same : SameSuccess related result other) (f g : TemplateError → TemplateError) :
    SameSuccess related (result.mapError f) (other.mapError g) := by
  cases same with
  | ok values => exact .ok values
  | error error other => exact .error _ _

/-- The same convention, or the conventions of the two bindings where these are found. -/
def Convention.Alike (here : Prop) (convention other : Convention) : Prop :=
  convention = other ∨
    here ∧ convention = Binding.inPlace.convention ∧ other = Binding.late.convention

/-- The same keys, with related values. -/
def Keyed.Alike {α β : Type} (related : String → α → β → Prop) : Keyed α → Keyed β → Prop :=
  List.Forall₂ fun entry other => entry.1 = other.1 ∧ related entry.1 entry.2 other.2

section Alike

variable (marked : String)

/-- What a handler sees, but for the convention of the marked tag. -/
structure View.Alike (view other : View) : Prop where
  settings : view.settings = other.settings
  document : view.document = other.document
  callStack : view.callStack = other.callStack
  vars : view.vars = other.vars
  conventions : Keyed.Alike (fun name => Convention.Alike (name = marked)) view.conventions
    other.conventions

/-- The same answer, but for the convention of the marked tag. -/
inductive Action.Alike : (action : Action) → Except TemplateError action.Answer →
    Except TemplateError action.Answer → Prop where
  | same {action : Action} (answer : Except TemplateError action.Answer) :
      Alike action answer answer
  | unregistered {name : String} {convention other : Convention}
      (alike : convention.Alike (name = marked) other) :
      Alike (.unregister name) (.ok (some convention)) (.ok (some other))
  | resolved {tag param name rest : String} {convention other : Convention}
      (alike : convention.Alike (name = marked ∨ marked = catchAll) other) :
      Alike (.resolve tag param) (.ok (some ⟨name, rest, convention⟩))
        (.ok (some ⟨name, rest, other⟩))

/-- The same call, maybe at another offset. -/
structure TagCall.Alike (call copy : TagCall) : Prop where
  name : call.name = copy.name
  tag : call.tag = copy.tag
  param : call.param = copy.param
  body : call.body = copy.body
  document : call.document = copy.document

/-- Programs that request the same as long as they are answered alike.  They may fail with
different errors, and install no autoload. -/
inductive Program.Alike : Program → Program → Prop where
  | done (text : String) : Alike (.done text) (.done text)
  | fail (error other : TemplateError) : Alike (.fail error) (.fail other)
  | inspect {next rest : View → Program}
      (behind : ∀ view other, view.Alike marked other → Alike (next view) (rest other)) :
      Alike (.inspect next) (.inspect rest)
  | act {action : Action} {next rest : Except TemplateError action.Answer → Program}
      (behind : ∀ answer other, action.Alike marked answer other →
        Alike (next answer) (rest other)) :
      Alike (.act action next) (.act action rest)
  | expand {text : String} {next rest : Except TemplateError String → Program}
      (behind : ∀ answer other, SameSuccess Eq answer other → Alike (next answer) (rest other)) :
      Alike (.expand text next) (.expand text rest)
  | render {text : String} {next rest : Except TemplateError String → Program}
      (behind : ∀ answer other, SameSuccess Eq answer other → Alike (next answer) (rest other)) :
      Alike (.render text next) (.render text rest)
  | evaluate {next rest : Except TemplateError String → Program}
      (behind : ∀ answer other, SameSuccess Eq answer other → Alike (next answer) (rest other)) :
      Alike (.evaluate next) (.evaluate rest)
  | register {name : String} {handler copy : TagCall → Program} {convention : Convention}
      {next rest : Except TemplateError Unit → Program}
      (handlers : ∀ call other, call.Alike other → Alike (handler call) (copy other))
      (behind : ∀ answer, Alike (next answer) (rest answer)) :
      Alike (.register name handler convention next) (.register name copy convention rest)

def Handler.Alike (handler copy : Handler) : Prop :=
  ∀ call other, call.Alike other → (handler call).Alike marked (copy other)

/-- Neither offsets nor errors of expansions nor the convention of the marked tag matter to a
handler. -/
def Handler.Blind (handler : Handler) : Prop :=
  handler.Alike marked handler

structure Binding.Alike (binding copy : Binding) : Prop where
  convention : binding.convention = copy.convention
  handler : binding.handler.Alike marked copy.handler

/-- Bindings that are alike, or the two bindings of the marked tag where these are found. -/
inductive Binding.Counterpart (here : Prop) : Binding → Binding → Prop where
  | alike {binding copy : Binding} (alike : binding.Alike marked copy) :
      Counterpart here binding copy
  | late (found : here) : Counterpart here .inPlace .late

structure Resolved.Alike (resolved other : Resolved) : Prop where
  binding : resolved.binding.Counterpart marked (resolved.name = marked ∨ marked = catchAll)
    other.binding
  name : resolved.name = other.name
  param : resolved.param = other.param

structure Bindings.Alike (bindings other : Bindings) : Prop where
  separator : bindings.separator = other.separator
  table : Keyed.Alike (fun name => Binding.Counterpart marked (name = marked)) bindings.table
    other.table

structure DeferredCall.Alike (entry other : DeferredCall) : Prop where
  binding : entry.binding.Alike marked other.binding
  call : entry.call.Alike other.call

/-- Engines inside an evaluation that nothing tells apart but the binding of the marked tag
and the positions of deferred tags. -/
structure Engine.Alike (common : Settings) (engine other : Engine) : Prop where
  settings : engine.settings = common
  sameSettings : other.settings = common
  bindings : engine.registry.bindings.Alike marked other.registry.bindings
  still : engine.registry.autoload = none
  sameStill : other.registry.autoload = none
  callStack : engine.callStack = other.callStack
  vars : engine.vars = other.vars
  document : engine.document = other.document
  parsed : engine.Parsed
  deferred : List.Forall₂ (Option.Rel (DeferredCall.Alike marked)) engine.deferred.slots
    other.deferred.slots

/-- Two runs end with related values or both with an error, on engines that are alike. -/
structure Evaluation.Ends (common : Settings) {α β : Type} (related : α → β → Prop)
    (outcome : Except TemplateError α × Engine) (other : Except TemplateError β × Engine) :
    Prop where
  result : SameSuccess related outcome.1 other.1
  engine : outcome.2.Alike marked common other.2

/-- Two evaluations that end alike on engines that are alike. -/
def Evaluation.Alike (common : Settings) {α β : Type} (related : α → β → Prop)
    (x : Evaluation α) (y : Evaluation β) : Prop :=
  ∀ engine other, engine.Alike marked common other →
    Ends marked common related (x.on engine) (y.on other)

/-- Hosts that carry out requests alike. -/
structure Host.Alike (common : Settings) (host other : Host Id) : Prop where
  expand : ∀ source, Evaluation.Alike marked common Eq (host.expand source) (other.expand source)
  render : ∀ source, Evaluation.Alike marked common Eq (host.render source) (other.render source)
  evaluate : Evaluation.Alike marked common Eq host.evaluate other.evaluate

end Alike

variable {marked : String}

/-- A handler that does not read the offset is blind if its programs are like themselves. -/
theorem Handler.blind_of_offset {handler : Handler}
    (unread : ∀ call offset, handler { call with offset } = handler call)
    (alike : ∀ call, (handler call).Alike marked (handler call)) : handler.Blind marked := by
  intro call copy calls
  have moved : handler copy = handler call := by
    rw [← unread call copy.offset, calls.name, calls.tag, calls.param, calls.body, calls.document]
  rw [moved]
  exact alike call

namespace Keyed.Alike

variable {α β : Type} {related : String → α → β → Prop} {entries : Keyed α} {others : Keyed β}

theorem find? (alike : Keyed.Alike related entries others) (key : String) :
    Option.Rel (related key) (Keyed.find? key entries) (Keyed.find? key others) := by
  induction alike with
  | nil => exact .none
  | @cons entry other rest more here behind ih =>
      obtain ⟨found, value⟩ := entry
      obtain ⟨place, copy⟩ := other
      obtain ⟨same, values⟩ := here
      cases (same : found = place)
      simp only [Keyed.find?]
      split
      · rename_i here
        exact .some (here ▸ values)
      · exact ih

theorem insert (alike : Keyed.Alike related entries others) {key : String} {value : α}
    {other : β} (values : related key value other) :
    Keyed.Alike related (Keyed.insert key value entries) (Keyed.insert key other others) := by
  induction alike with
  | nil => exact .cons ⟨rfl, values⟩ .nil
  | @cons entry copy rest more here behind ih =>
      obtain ⟨found, old⟩ := entry
      obtain ⟨place, oldCopy⟩ := copy
      obtain ⟨same, oldValues⟩ := here
      cases (same : found = place)
      simp only [Keyed.insert]
      split
      · exact .cons ⟨rfl, values⟩ (.cons ⟨rfl, oldValues⟩ behind)
      · split
        · exact .cons ⟨rfl, values⟩ behind
        · exact .cons ⟨rfl, oldValues⟩ ih

theorem erase (alike : Keyed.Alike related entries others) (key : String) :
    Keyed.Alike related (Keyed.erase key entries) (Keyed.erase key others) := by
  refine List.rel_filter ?_ alike
  rintro ⟨found, value⟩ ⟨place, other⟩ ⟨same, values⟩
  cases (same : found = place)
  rfl

end Keyed.Alike

namespace Binding.Counterpart

variable {here there : Prop} {binding copy : Binding}

theorem mono (counterpart : binding.Counterpart marked here copy) (sub : here → there) :
    binding.Counterpart marked there copy := by
  cases counterpart with
  | alike alike => exact .alike alike
  | late found => exact .late (sub found)

theorem convention (counterpart : binding.Counterpart marked here copy) :
    binding.convention.Alike here copy.convention := by
  cases counterpart with
  | alike alike => exact .inl alike.convention
  | late found => exact .inr ⟨found, rfl, rfl⟩

theorem validate_eq (counterpart : binding.Counterpart marked here copy) :
    binding.convention.validate = copy.convention.validate := by
  cases counterpart with
  | alike alike => rw [alike.convention]
  | late found => rfl

theorem callViolation_eq (counterpart : binding.Counterpart marked here copy) (param : String)
    (hasBody : Bool) :
    Evaluation.callViolation binding.convention param hasBody =
      Evaluation.callViolation copy.convention param hasBody := by
  cases counterpart with
  | alike alike => rw [alike.convention]
  | late found => rfl

end Binding.Counterpart

namespace Bindings.Alike

variable {bindings other : Bindings} {binding copy : Binding}

theorem get? (alike : bindings.Alike marked other) (name : String) :
    Option.Rel (Binding.Counterpart marked (name = marked)) (bindings.get? name)
      (other.get? name) :=
  alike.table.find? name

theorem lookup? (alike : bindings.Alike marked other) (name : String) :
    Option.Rel (Binding.Counterpart marked (name = marked ∨ marked = catchAll))
      (bindings.lookup? name) (other.lookup? name) := by
  have every := alike.get? catchAll
  have own := alike.get? name
  rw [Bindings.lookup?, Bindings.lookup?]
  generalize bindings.get? catchAll = first at every ⊢
  generalize other.get? catchAll = second at every ⊢
  cases every with
  | some counterpart => exact .some (counterpart.mono fun found => .inr found.symm)
  | none =>
      generalize bindings.get? name = first at own ⊢
      generalize other.get? name = second at own ⊢
      cases own with
      | some counterpart => exact .some (counterpart.mono .inl)
      | none => exact .none

theorem find? (alike : bindings.Alike marked other) (name param : String) :
    Option.Rel (Resolved.Alike marked) (bindings.find? name param) (other.find? name param) := by
  have looked := alike.lookup? name
  rw [Bindings.find?, Bindings.find?, ← alike.separator]
  generalize bindings.lookup? name = first at looked ⊢
  generalize other.lookup? name = second at looked ⊢
  cases looked with
  | some counterpart => exact .some ⟨counterpart, rfl, rfl⟩
  | none =>
      dsimp only
      split
      · exact .none
      · have sub := alike.get? (name ++ bindings.separator ++
          ((Text.splitOnce bindings.separator param).getD (param, "")).1)
        generalize bindings.get? _ = first at sub ⊢
        generalize other.get? _ = second at sub ⊢
        cases sub with
        | some counterpart => exact .some ⟨counterpart.mono .inl, rfl, rfl⟩
        | none => exact .none

theorem conventions (alike : bindings.Alike marked other) :
    Keyed.Alike (fun name => Convention.Alike (name = marked)) bindings.conventions
      other.conventions := by
  refine List.rel_map ?_ alike.table
  rintro ⟨name, binding⟩ ⟨place, copy⟩ ⟨same, counterpart⟩
  exact ⟨same, counterpart.convention⟩

theorem unregister (alike : bindings.Alike marked other) (name : String) :
    (bindings.unregister name).Alike marked (other.unregister name) :=
  ⟨alike.separator, alike.table.erase name⟩

end Bindings.Alike

theorem Registry.register_alike {registry other : Registry} {binding copy : Binding}
    (alike : registry.bindings.Alike marked other.bindings) {name : String}
    (counterpart : binding.Counterpart marked (name = marked) copy) :
    (registry.register name binding).1 = (other.register name copy).1 ∧
      (registry.register name binding).2.bindings.Alike marked
        (other.register name copy).2.bindings ∧
      (registry.register name binding).2.autoload = registry.autoload ∧
      (other.register name copy).2.autoload = other.autoload := by
  obtain ⟨⟨separator, table⟩, autoload⟩ := registry
  obtain ⟨⟨separatorToo, copied⟩, autoloadToo⟩ := other
  obtain ⟨same, tables⟩ := alike
  cases (same : separator = separatorToo)
  simp only [register, Bindings.register, ← counterpart.validate_eq]
  cases Bindings.isName separator name with
  | false => exact ⟨rfl, ⟨rfl, tables⟩, rfl, rfl⟩
  | true =>
      cases binding.convention.validate with
      | error message => exact ⟨rfl, ⟨rfl, tables⟩, rfl, rfl⟩
      | ok valid => exact ⟨rfl, ⟨rfl, tables.insert counterpart⟩, rfl, rfl⟩

namespace DeferredQueue

variable {α β : Type} {related : α → β → Prop} {queue : DeferredQueue α} {other : DeferredQueue β}

theorem fill_alike (alike : List.Forall₂ (Option.Rel related) queue.slots other.slots)
    (slot : Nat) {entry : α} {copy : β} (entries : related entry copy) :
    List.Forall₂ (Option.Rel related) (queue.fill slot entry).slots
      (other.fill slot copy).slots := by
  obtain ⟨slots⟩ := queue
  obtain ⟨copies⟩ := other
  simp only [fill] at alike ⊢
  induction alike generalizing slot with
  | nil => exact .nil
  | cons here behind ih =>
      cases slot with
      | zero => exact .cons (.some entries) behind
      | succ slot => exact .cons here (ih slot)

theorem entries_alike (alike : List.Forall₂ (Option.Rel related) queue.slots other.slots) :
    List.Forall₂ related queue.entries other.entries :=
  List.rel_filterMap (fun _ _ slots => slots) alike

theorem entries_eq_nil_iff
    (alike : List.Forall₂ (Option.Rel related) queue.slots other.slots) :
    queue.entries = [] ↔ other.entries = [] := by
  rw [← List.length_eq_zero_iff, (entries_alike alike).length_eq, List.length_eq_zero_iff]

end DeferredQueue

namespace Engine.Alike

variable {common : Settings} {engine other : Engine}

theorem view (alike : engine.Alike marked common other) :
    engine.view.Alike marked other.view where
  settings := alike.settings.trans alike.sameSettings.symm
  document := alike.document
  callStack := alike.callStack
  vars := alike.vars
  conventions := alike.bindings.conventions

theorem record (alike : engine.Alike marked common other) (events more : List Event) :
    (engine.record events).Alike marked common (other.record more) :=
  { alike with }

theorem parse_eq (alike : engine.Alike marked common other) (source : String) :
    other.parse source = engine.parse source := by
  rw [parse, parse, alike.settings, alike.sameSettings]

theorem register (alike : engine.Alike marked common other) {binding copy : Binding}
    {name : String} (counterpart : binding.Counterpart marked (name = marked) copy) :
    (engine.register name binding).1 = (other.register name copy).1 ∧
      (engine.register name binding).2.Alike marked common (other.register name copy).2 := by
  obtain ⟨same, bindings, autoload, autoloadOther⟩ :=
    Registry.register_alike alike.bindings counterpart
  exact ⟨same, { alike with
    bindings := bindings
    still := autoload.trans alike.still
    sameStill := autoloadOther.trans alike.sameStill }⟩

theorem resolve (alike : engine.Alike marked common other) (name param : String) :
    Evaluation.Ends marked common (Option.Rel (Resolved.Alike marked))
      (engine.resolve name param) (other.resolve name param) := by
  rw [Engine.resolve_of_still alike.still, Engine.resolve_of_still alike.sameStill]
  exact ⟨.ok (alike.bindings.find? name param), alike⟩

/-- Requests that expand nothing are answered alike. -/
theorem perform (alike : engine.Alike marked common other) (action : Action) :
    action.Alike marked (action.perform engine).1 (action.perform other).1 ∧
      (action.perform engine).2.Alike marked common (action.perform other).2 := by
  cases action with
  | load source =>
      simp only [Action.perform, load, alike.parse_eq]
      cases parsed : engine.parse source with
      | ok document =>
          exact ⟨.same _, { alike with document := rfl, parsed := .inr ⟨source, parsed⟩ }⟩
      | error error => exact ⟨.same _, alike⟩
  | setSlot name value =>
      simp only [Action.perform, setSlot, ← alike.callStack]
      cases engine.callStack.set name value with
      | ok callStack => exact ⟨.same _, { alike with callStack := rfl }⟩
      | error error => exact ⟨.same _, alike⟩
  | setVariable path value mode =>
      simp only [Action.perform, setVariable, ← alike.vars]
      exact ⟨.same _, { alike with vars := rfl }⟩
  | removeVariable path =>
      simp only [Action.perform, removeVariable, ← alike.vars]
      exact ⟨.same _, { alike with vars := rfl }⟩
  | clearVariables => exact ⟨.same _, { alike with vars := rfl }⟩
  | unregister name =>
      have removed := alike.bindings.get? name
      refine ⟨?_, { alike with bindings := alike.bindings.unregister name }⟩
      simp only [Action.perform, Registry.unregister]
      generalize engine.registry.bindings.get? name = first at removed ⊢
      generalize other.registry.bindings.get? name = second at removed ⊢
      cases removed with
      | some counterpart => exact .unregistered counterpart.convention
      | none => exact .same _
  | resolve name param =>
      have found := alike.bindings.find? name param
      simp only [Action.perform, Engine.resolve_of_still alike.still,
        Engine.resolve_of_still alike.sameStill]
      refine ⟨?_, alike⟩
      generalize engine.registry.bindings.find? name param = first at found ⊢
      generalize other.registry.bindings.find? name param = second at found ⊢
      cases found with
      | none => exact .same _
      | @some resolved copy alike =>
          obtain ⟨binding, name, param⟩ := resolved
          obtain ⟨copied, nameToo, paramToo⟩ := copy
          obtain ⟨counterpart, sameName, sameParam⟩ := alike
          cases (sameName : name = nameToo)
          cases (sameParam : param = paramToo)
          exact .resolved counterpart.convention

theorem enter (alike : engine.Alike marked common other) :
    (Evaluation.enter engine).Alike marked common (Evaluation.enter other) :=
  { alike with callStack := congrArg CallStack.push alike.callStack }

theorem leave (alike : engine.Alike marked common other) :
    (Evaluation.leave engine).Alike marked common (Evaluation.leave other) :=
  { alike with callStack := congrArg CallStack.pop alike.callStack }

theorem recordCall (alike : engine.Alike marked common other) (name : String) :
    (Evaluation.recordCall name engine).Alike marked common (Evaluation.recordCall name other) :=
  { alike with callStack := congrArg (CallStack.record name) alike.callStack }

theorem fillSlot (alike : engine.Alike marked common other) (slot : Nat)
    {entry copy : DeferredCall} (entries : entry.Alike marked copy) :
    (Evaluation.fillSlot slot entry engine).Alike marked common
      (Evaluation.fillSlot slot copy other) :=
  { alike with deferred := DeferredQueue.fill_alike alike.deferred slot entries }

end Engine.Alike

namespace Evaluation.Alike

variable {common : Settings} {α β γ δ : Type} {related : α → β → Prop} {relatedToo : γ → δ → Prop}

theorem bind {x : Evaluation α} {y : Evaluation β} {f : α → Evaluation γ}
    {g : β → Evaluation δ} (first : Alike marked common related x y)
    (rest : ∀ a b, related a b → Alike marked common relatedToo (f a) (g b)) :
    Alike marked common relatedToo (x >>= f) (y >>= g) := by
  intro engine other alike
  obtain ⟨result, engines⟩ := first engine other alike
  rw [on_bind, on_bind]
  generalize x.on engine = outcome at result engines ⊢
  generalize y.on other = outcomeOther at result engines ⊢
  obtain ⟨value, after⟩ := outcome
  obtain ⟨copy, afterOther⟩ := outcomeOther
  cases result with
  | ok values => exact rest _ _ values _ _ engines
  | error error other => exact ⟨.error error other, engines⟩

theorem pure {a : α} {b : β} (values : related a b) :
    Alike marked common related (Pure.pure a) (Pure.pure b) :=
  fun _ _ alike => ⟨.ok values, alike⟩

theorem throw (error other : TemplateError) :
    Alike marked common related (MonadExcept.throw error) (MonadExcept.throw other) :=
  fun _ _ alike => ⟨.error error other, alike⟩

theorem get : Alike marked common (Engine.Alike marked common) MonadState.get MonadState.get :=
  fun _ _ alike => ⟨.ok alike, alike⟩

theorem change {f g : Engine → Engine}
    (changes : ∀ engine other, engine.Alike marked common other →
      (f engine).Alike marked common (g other)) :
    Alike marked common Eq (EngineT.change f) (EngineT.change g) :=
  fun engine other alike => ⟨.ok rfl, changes engine other alike⟩

theorem attempt {x : Evaluation α} {y : Evaluation β} (alike : Alike marked common related x y) :
    Alike marked common (SameSuccess related) (EngineT.attempt x) (EngineT.attempt y) :=
  fun engine other engines =>
    ⟨.ok (alike engine other engines).result, (alike engine other engines).engine⟩

theorem settle {result : Except TemplateError α} {other : Except TemplateError β}
    (results : SameSuccess related result other) :
    Alike marked common related (EngineT.settle result) (EngineT.settle other) :=
  fun _ _ engines => ⟨results, engines⟩

end Evaluation.Alike

open Evaluation in
theorem Program.Alike.run {common : Settings} {program other : Program} {host copy : Host Id}
    (alike : program.Alike marked other) (hosts : host.Alike marked common copy) :
    Evaluation.Alike marked common Eq (program.run host) (other.run copy) := by
  -- every answer is alike, and so is what the programs do next
  induction alike with
  | done text => exact .pure rfl
  | fail error other => exact .throw error other
  | inspect behind ih => exact .bind .get fun _ _ engines => ih _ _ engines.view
  | @act action next rest behind ih =>
      refine .bind (?_ : Evaluation.Alike marked common (action.Alike marked) _ _) ih
      intro engine other engines
      obtain ⟨answers, after⟩ := engines.perform action
      exact ⟨.ok answers, after⟩
  | expand behind ih => exact .bind (hosts.expand _).attempt ih
  | render behind ih => exact .bind (hosts.render _).attempt ih
  | evaluate behind ih => exact .bind hosts.evaluate.attempt ih
  | @register name handler copy convention next rest handlers behind _ ih =>
      refine .bind (?_ : Evaluation.Alike marked common Eq _ _) fun answer _ same => same ▸ ih answer
      intro engine other engines
      let binding : Binding := ⟨handler, convention, false⟩
      let copied : Binding := ⟨copy, convention, false⟩
      have counterpart : binding.Counterpart marked (name = marked) copied :=
        .alike ⟨rfl, handlers⟩
      obtain ⟨same, after⟩ := engines.register counterpart
      exact ⟨.ok same, after⟩

theorem Binding.Alike.runNamed {common : Settings} {binding copied : Binding}
    {call copy : TagCall} {host other : Host Id} (alike : binding.Alike marked copied)
    (calls : call.Alike copy) (hosts : host.Alike marked common other) :
    Evaluation.Alike marked common Eq (binding.runNamed host call) (copied.runNamed other copy) := by
  intro engine other engines
  have noted := engines.record
    [.called call binding.builtIn engine.depth engine.callStack.depth]
    [.called copy copied.builtIn other.depth other.callStack.depth]
  obtain ⟨results, after⟩ := (alike.handler call copy calls).run hosts _ _ noted
  simp only [Evaluation.on_runNamed, Binding.run, Evaluation.on_bind, Evaluation.on_change,
    Evaluation.proceed_ok]
  exact ⟨results.mapError _ _, after⟩

end TagTemplate
