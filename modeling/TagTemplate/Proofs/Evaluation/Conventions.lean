import TagTemplate.Proofs.Evaluation.Enclosing
import TagTemplate.Proofs.Evaluation.Positions

/-!
Calls keep to conventions.

Only conventions that some call can satisfy get into a registry, whoever fills it.  Every call
that a handler is given, at once or in a replay, has a parameter and a body of the kind that
its convention declares.  The convention is the one that has been found with the handler, in a
registry that the evaluation has reached.
-/

namespace TagTemplate

/-- A binding that may be registered. -/
def Binding.Valid (binding : Binding) : Prop :=
  binding.convention.validate = .ok ()

namespace RegistryProgram

theorem registers_valid : (program : RegistryProgram) → program.Registers Binding.Valid
  | .done => .done
  | .fail error => .fail error
  | .inspect next => .inspect fun conventions => registers_valid (next conventions)
  | .register _ _ _ _ next => .register id fun answer => registers_valid (next answer)
  | .unregister _ next => .unregister fun answer => registers_valid (next answer)
  | .resolve _ _ next => .resolve fun answer => registers_valid (next answer)
  | .setAutoload autoload next =>
    .setAutoload (fun name => registers_valid (autoload name)) (registers_valid next)

end RegistryProgram

namespace Registry

/-- A registry that was empty and to which requests have been made. -/
inductive Filled : Registry → Prop where
  | empty (separator : String) : Filled (.empty separator)
  | run {registry} (filled : Filled registry) (program : RegistryProgram) :
      Filled (program.run registry).2.1

variable {registry : Registry}

theorem Filled.valid (filled : registry.Filled) : registry.All Binding.Valid := by
  induction filled with
  | empty separator => exact all_empty _ separator
  | run filled program ih => exact program.registers_valid.run ih

theorem keeps_filled : Registry.Keeps Registry.Filled :=
  keeps_of_runs fun program filled => filled.run program

end Registry

/-- The parameter has the shape that a convention declares. -/
def Param.HasShape : ParamShape → Param → Prop
  | .scalar, .text _ | .list, .list _ | .commaList, .list _ => True
  | _, _ => False

/-- The body has the shape that a convention declares. -/
def Body.HasShape : BodyShape → Body → Prop
  | .text, .text _ | .keyValue, .map _ | .json, .json _ | .list, .list _ | .commaList, .list _
  | .xml, .xml _ => True
  | _, _ => False

/-- A call has what the convention of its binding requires, and nothing that it forbids. -/
structure TagCall.Fits (settings : Settings) (invocation : Invocation) (call : TagCall) :
    Prop where
  forbiddenParam : invocation.convention.param = .forbidden →
    ∃ text, call.param = .text text ∧ Text.allBlank text = true
  /-- A required parameter stands in the tag, or the body is taken in its place. -/
  requiredParam : invocation.convention.param = .required →
    Text.allBlank invocation.resolved.param = false ∧
        call.param = Shape.decodeParam invocation.convention.paramShape
          settings.delimiters.separator invocation.resolved.param ∨
      invocation.convention.oneParam = true ∧ ∃ body : String,
        invocation.call settings (some body) = .ok { call with document := none } ∧
        call.param = Shape.decodeParam invocation.convention.paramShape
          settings.delimiters.separator body
  forbiddenBody : invocation.convention.body = .forbidden → call.body = .none
  requiredBody : invocation.convention.body = .required → call.body ≠ .none
  oneParam : invocation.convention.oneParam = true → call.body = .none
  param : call.param.HasShape invocation.convention.paramShape
  body : call.body = .none ∨ call.body.HasShape invocation.convention.bodyShape

theorem Shape.hasShape_decodeParam (shape : ParamShape) (separator text : String) :
    (decodeParam shape separator text).HasShape shape := by
  cases shape <;> trivial

theorem Shape.hasShape_of_decodeBody {shapes : ShapeSyntax} {shape : BodyShape} {text : String}
    {body : Body} (decoded : decodeBody shapes shape text = .ok body) : body.HasShape shape := by
  cases shape with
  | text | list | commaList =>
      cases decoded
      trivial
  | keyValue =>
      simp only [decodeBody] at decoded
      cases read : keyValues shapes text <;> rw [read] at decoded <;> cases decoded
      trivial
  | json | xml =>
      simp only [decodeBody] at decoded
      split at decoded <;> cases decoded
      trivial

theorem Body.HasShape.ne_none {shape : BodyShape} {body : Body} (shaped : body.HasShape shape) :
    body ≠ .none := by
  rintro rfl
  cases shape <;> exact shaped

theorem Convention.restricted_of_validate {convention : Convention}
    (valid : convention.validate = .ok ()) :
    (convention.param = .forbidden → convention.paramShape = .scalar) ∧
      (convention.oneParam = true → convention.param ≠ .forbidden ∧
        convention.body ≠ .forbidden ∧ convention.body ≠ .required) := by
  unfold validate at valid
  grind

/-- What the rules of a convention leave of the sides of a tag. -/
theorem Evaluation.sides_of_permitted {convention : Convention} {param : String} {hasBody : Bool}
    (valid : convention.validate = .ok ())
    (permitted : callViolation convention param hasBody = none) :
    (convention.param = .forbidden → Text.allBlank param = true) ∧
      (convention.param = .required → Text.allBlank param = false ∨
        bodyAsParam convention param hasBody = true) ∧
      (convention.body = .forbidden → hasBody = false) ∧
      (convention.body = .required → hasBody = true) ∧
      (convention.oneParam = true →
        hasBody = false ∨ bodyAsParam convention param hasBody = true) := by
  have restricted := Convention.restricted_of_validate valid
  unfold callViolation arityViolation at permitted
  unfold bodyAsParam at permitted ⊢
  grind

theorem Evaluation.hasShape_of_decodedBody {settings : Settings} {document : Document} {tag : Tag}
    {shape : BodyShape} {text : String} {body : Body}
    (decoded : decodedBody settings document tag shape (some text) = .ok body) :
    body.HasShape shape := by
  rw [decodedBody] at decoded
  cases read : Shape.decodeBody settings.shapes shape text <;> rw [read] at decoded <;>
    cases decoded
  exact Shape.hasShape_of_decodeBody read

/-- The call of a tag fits the convention that the tag was looked up with. -/
theorem Invocation.Makes.fits {settings : Settings} {invocation : Invocation} {call : TagCall}
    (valid : invocation.convention.validate = .ok ())
    (made : invocation.Makes settings { call with document := none }) :
    call.Fits settings invocation := by
  obtain ⟨permitted, body, present, given⟩ := made
  obtain ⟨forbiddenParam, requiredParam, forbiddenBody, requiredBody, oneParam⟩ :=
    Evaluation.sides_of_permitted valid permitted
  obtain ⟨scalar, exclusive⟩ := Convention.restricted_of_validate valid
  obtain ⟨-, -, param, decoded, -, -⟩ :=
    Evaluation.decoded_eq_ok_iff.mp ((invocation.call_eq settings body).symm.trans given)
  have shaped : call.param.HasShape invocation.convention.paramShape :=
    param ▸ Shape.hasShape_decodeParam _ _ _
  cases taken : Evaluation.bodyAsParam invocation.resolved.binding.convention
      invocation.resolved.param invocation.closer.isSome with
  | true =>
      -- The body stands in the place of the parameter.
      rw [Evaluation.sides, if_pos taken] at param decoded
      simp only [Evaluation.bodyAsParam, Bool.and_eq_true] at taken
      obtain ⟨⟨one, -⟩, hasBody⟩ := taken
      obtain ⟨text, rfl⟩ := Option.isSome_iff_exists.mp (present.trans hasBody)
      have none : call.body = .none := (Except.ok.inj decoded).symm
      obtain ⟨paramSlot, -, unrequired⟩ := exclusive one
      exact {
        forbiddenParam := fun forbidden => absurd forbidden paramSlot
        requiredParam := fun _ => .inr ⟨one, text, given, param⟩
        forbiddenBody := fun _ => none
        requiredBody := fun required => absurd required unrequired
        oneParam := fun _ => none
        param := shaped
        body := .inl none }
  | false =>
      rw [Evaluation.sides, if_neg (by simp [taken])] at param decoded
      have kept : Evaluation.bodyAsParam invocation.convention invocation.resolved.param
        invocation.closer.isSome = false := taken
      have absent : invocation.closer.isSome = false → call.body = .none := by
        intro none
        rw [Option.isNone_iff_eq_none.mp (Option.isSome_eq_false_iff.mp (present.trans none))]
          at decoded
        exact (Except.ok.inj decoded).symm
      have bodied : invocation.closer.isSome = true →
          call.body.HasShape invocation.convention.bodyShape := by
        intro some
        obtain ⟨text, rfl⟩ := Option.isSome_iff_exists.mp (present.trans some)
        exact Evaluation.hasShape_of_decodedBody decoded
      exact {
        forbiddenParam := fun forbidden => by
          have shape : invocation.resolved.binding.convention.paramShape = .scalar :=
            scalar forbidden
          rw [shape] at param
          exact ⟨_, param, forbiddenParam forbidden⟩
        requiredParam := fun required =>
          .inl ⟨by simpa [kept] using requiredParam required, param⟩
        forbiddenBody := fun forbidden => absent (forbiddenBody forbidden)
        requiredBody := fun required => (bodied (requiredBody required)).ne_none
        oneParam := fun one => absent (by simpa [kept] using oneParam one)
        param := shaped
        body := by
          cases has : invocation.closer.isSome with
          | false => exact .inl (absent has)
          | true => exact .inr (bodied has) }

/-- A call is made for a tag that has been found in a registry of which something holds. -/
structure TagCall.MadeFor (holds : Registry → Prop) (invocation : Invocation) (call : TagCall) :
    Prop where
  found : invocation.Found holds
  name : call.name = invocation.resolved.name
  tag : call.tag = invocation.tag.name
  offset : call.offset = invocation.tag.start

theorem Invocation.Makes.madeFor {holds : Registry → Prop} {settings : Settings}
    {invocation : Invocation} {call : TagCall} (found : invocation.Found holds)
    (made : invocation.Makes settings { call with document := none }) :
    call.MadeFor holds invocation := by
  obtain ⟨-, body, -, given⟩ := made
  obtain ⟨name, tag, -, -, offset, -⟩ := Evaluation.decoded_eq_ok_iff.mp given
  exact ⟨found, name, tag, offset⟩

section

variable (holds : Registry → Prop) (settings : Settings)

/-- A handler is called for a tag that was looked up, and the call fits the convention that was
found.  It knows the document if the tag is deferred. -/
def Event.FitsConvention : Event → Prop
  | .called call builtIn _ _ =>
    ∃ invocation : Invocation, call.MadeFor holds invocation ∧
      builtIn = invocation.binding.builtIn ∧
      invocation.convention.deferred = call.document.isSome ∧ call.Fits settings invocation
  | .lookup _ => True

/-- A binding waits to be called for a deferred tag for which it was found, and the call fits the
convention of the binding. -/
def DeferredCall.FitsConvention (entry : DeferredCall) : Prop :=
  ∃ invocation : Invocation, entry.call.MadeFor holds invocation ∧
    invocation.binding = entry.binding ∧ entry.binding.convention.deferred = true ∧
    entry.call.Fits settings invocation

end

section

variable {holds : Registry → Prop} {settings : Settings}

theorem Event.ComesFromTag.fits {event : Event}
    (origin : event.ComesFromTag (fun registry => holds registry ∧ registry.Filled) settings) :
    event.FitsConvention holds settings := by
  cases event with
  | lookup event => trivial
  | called call builtIn depth frames =>
      obtain ⟨invocation, found, same, deferred, made⟩ := origin
      obtain ⟨registry, ⟨-, filled⟩, looked⟩ := id found
      exact ⟨invocation, made.madeFor (found.mono fun _ held => held.1), same, deferred,
        made.fits (filled.valid.of_resolve looked)⟩

theorem DeferredCall.ComesFromTag.fits {entry : DeferredCall}
    (origin : entry.ComesFromTag (fun registry => holds registry ∧ registry.Filled) settings) :
    entry.FitsConvention holds settings := by
  obtain ⟨invocation, found, deferred, same, made⟩ := origin
  obtain ⟨registry, ⟨-, filled⟩, looked⟩ := id found
  rw [← made.undocumented] at made
  exact ⟨invocation, made.madeFor (found.mono fun _ held => held.1), same, same ▸ deferred,
    made.fits (filled.valid.of_resolve looked)⟩

end

namespace Engine

open Evaluation (range whole)
open Moment (Leads mainPass)

/-- Every call of a handler that a complete evaluation makes, in its main pass or in a replay
that may not end, is made for a tag that was looked up, and fits the convention that was
found.  It was found in a registry of which all is known that look-ups and handlers keep, and on
every walk, of which the main pass is one, it is the convention of the very binding whose handler
is running; a binding that waits for a replay waits with such a call. -/
theorem calls_fit_conventions {engine : Engine} (filled : engine.registry.Filled)
    (document : Document) (batches : Nat) :
    let level := range engine.settings.maxDepth
    let main := (whole level document).on (Expansion.begin engine)
    let underway := (Evaluation.underway level batches document).on (Expansion.begin engine)
    (mainPass engine document).Leads ⟨engine.settings.maxDepth, .result main.1, [], main.2⟩ ∧
    (∀ (opened : Engine) levels task, opened.settings = engine.settings → opened.Parsed →
      opened.registry.Filled → task.Begins engine.settings.delimiters →
      ∀ moment, Leads ⟨levels, task, [], opened⟩ moment →
      ∀ invocation call, .handling invocation call ∈ moment.waiters →
        call.Fits engine.settings invocation) ∧
    (∀ holds, Registry.Keeps holds → holds engine.registry →
      (∃ events : List Event, underway.2.journal = engine.journal ++ events.toArray ∧
        ∀ event ∈ events, event.FitsConvention holds engine.settings) ∧
      ∀ entry ∈ underway.2.deferred.entries, entry.FitsConvention holds engine.settings) ∧
    underway.2.registry.Filled ∧
    ∀ result after, (Expansion.document batches document).run engine = some (result, after) →
      result = underway.1 ∧ after = Expansion.finish underway.2 := by
  intro level main underway
  have reached : ∀ holds, Registry.Keeps holds → holds engine.registry →
      underway.2.registry.Filled ∧
      (∃ events : List Event, underway.2.journal = engine.journal ++ events.toArray ∧
        ∀ event ∈ events, event.FitsConvention holds engine.settings) ∧
      ∀ entry ∈ underway.2.deferred.entries, entry.FitsConvention holds engine.settings := by
    intro holds kept held
    have both := kept.and Registry.keeps_filled
    have ready : (Expansion.begin engine).Ready
        (fun registry => holds registry ∧ registry.Filled) engine.settings := ⟨rfl, held, filled⟩
    obtain ⟨ended, ⟨events, noted, found⟩, queued⟩ :=
      (Evaluation.attributesLevel_range both _).underway both batches document ready rfl
    exact ⟨ended.holds.2, ⟨events, noted, fun event member => (found event member).fits⟩,
      fun entry member => (queued entry member).fits⟩
  refine ⟨Evaluation.realises_range _ document 0 document.size [] _, ?_,
    fun holds kept held => (reached holds kept held).2, (reached _ Registry.keeps_filled filled).1,
    fun _ _ ran => Evaluation.underway_of_run ran⟩
  intro opened levels task same parsed filled begins moment led invocation call running
  rw [← same] at begins ⊢
  have laid := Moment.laid_of_leads (fun program filled => filled.run program) filled parsed begins
    led
  obtain ⟨⟨registry, filled, looked⟩, made⟩ := laid.makes running
  exact made.fits (filled.valid.of_resolve looked)

/-- An engine with a tag whose parameter may stand in its body, and with a deferred tag without
a parameter. -/
def noting : Engine :=
  shallow ((RegistryProgram.register "note" (fun call => .done call.param.asText)
    { param := .required, oneParam := true } false fun _ =>
    .register "sign" (fun call => .done (call.document.getD "" ++ "!"))
      { param := .forbidden, deferred := true } false fun _ => .done).run (.empty ":")).2.1

theorem returnsTexts_noting : noting.registry.ReturnsTexts :=
  RegistryProgram.Registers.run
    (.register (fun _ _ => ⟨_, rfl⟩) fun _ => .register (fun _ _ => ⟨_, rfl⟩) fun _ => .done)
    (Registry.all_empty _ _)

/-- The registry stays what it is. -/
theorem keeps_noting : Registry.Keeps (· = noting.registry) :=
  returnsTexts_noting.keeps_eq rfl

/-- The body is given as the parameter, and the deferred tag is called with the document. -/
theorem calls_fit_conventions_noting :
    noting.registry.Filled ∧ ∃ document,
      noting.parse "\x7bsign:\x7d\x7bnote:\x7dx\x7b:note\x7d" = .ok document ∧
      let underway := (Evaluation.underway (range noting.settings.maxDepth) 1 document).on
        (Expansion.begin noting)
      underway.2.calls.map (fun call => (call.param, call.body.isNone, call.document)) =
        [(.text "x", true, none), (.text "", true, some "x")] ∧
      ∃ events : List Event, underway.2.journal = noting.journal ++ events.toArray ∧
        ∀ event ∈ events, event.FitsConvention (· = noting.registry) noting.settings := by
  have filled : noting.registry.Filled := .run (.empty ":") _
  have observed : ((noting.parse "\x7bsign:\x7d\x7bnote:\x7dx\x7b:note\x7d").toOption.map
      fun document => ((Evaluation.underway (range noting.settings.maxDepth) 1 document).on
        (Expansion.begin noting)).2.calls.map
          fun call => (call.param, call.body.isNone, call.document)) =
        some [(.text "x", true, none), (.text "", true, some "x")] := by decide +kernel
  obtain ⟨document, parsed, calls⟩ := Option.map_eq_some_iff.mp observed
  obtain ⟨-, -, found, -⟩ := calls_fit_conventions filled document 1
  exact ⟨filled, document, parse_of_toOption parsed, calls, (found _ keeps_noting rfl).1⟩

end Engine

end TagTemplate
