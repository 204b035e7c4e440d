import TagTemplate.Proofs.Evaluation.Conventions
import TagTemplate.Proofs.Evaluation.Quiet

/-!
What a convention asks of the parameter and the body of a tag.

Whether they are there is looked at before anything else is done, so that a call that breaks
its convention leaves no trace.  The text of the body is not known by then.  A required
parameter that stands in the tag is therefore never blank, but one that is taken from the body
is whatever the body has become.
-/

namespace TagTemplate

/-- The violation is that a parameter or a body is missing, or is one too many. -/
def Violation.OfArity : Violation → Prop
  | .invalidBody _ _ => False
  | _ => True

namespace Convention

variable {convention : Convention} {param : String} {hasBody : Bool} {violation : Violation}

/-- The body takes the place of a blank parameter. -/
def Trades (convention : Convention) (param : String) (hasBody : Bool) : Prop :=
  convention.oneParam = true ∧ Text.allBlank param = true ∧ hasBody = true

/-- There is a parameter, once a body has taken the place of a blank one. -/
def GivesParam (convention : Convention) (param : String) (hasBody : Bool) : Prop :=
  Text.allBlank param = false ∨ convention.Trades param hasBody

/-- There is still a body, once it might have taken the place of the parameter. -/
def GivesBody (convention : Convention) (param : String) (hasBody : Bool) : Prop :=
  hasBody = true ∧ ¬ convention.Trades param hasBody

/-- The rules that the parameter and the body of a tag break. -/
inductive Broken (convention : Convention) (param : String) (hasBody : Bool) : Violation → Prop
  where
  | missingParam (required : convention.param = .required)
      (absent : ¬ convention.GivesParam param hasBody) :
      Broken convention param hasBody .missingParam
  | unexpectedParam (forbidden : convention.param = .forbidden)
      (present : convention.GivesParam param hasBody) :
      Broken convention param hasBody .unexpectedParam
  | missingBody (required : convention.body = .required)
      (absent : ¬ convention.GivesBody param hasBody) :
      Broken convention param hasBody .missingBody
  | unexpectedBody (forbidden : convention.body = .forbidden)
      (present : convention.GivesBody param hasBody) :
      Broken convention param hasBody .unexpectedBody
  | paramAndBody (one : convention.oneParam = true) (present : Text.allBlank param = false)
      (bodied : hasBody = true) : Broken convention param hasBody .paramAndBody

theorem Broken.ofArity (broken : convention.Broken param hasBody violation) :
    violation.OfArity := by
  cases broken <;> trivial

open Evaluation (callViolation arityViolation bodyAsParam)

theorem bodyAsParam_iff : bodyAsParam convention param hasBody = true ↔
    convention.Trades param hasBody := by
  simp [bodyAsParam, Trades, and_assoc]

theorem givesParam_iff : (bodyAsParam convention param hasBody || !Text.allBlank param) = true ↔
    convention.GivesParam param hasBody := by
  rw [GivesParam, ← bodyAsParam_iff, Bool.or_eq_true, Bool.not_eq_true', or_comm]

theorem givesBody_iff : (hasBody && !bodyAsParam convention param hasBody) = true ↔
    convention.GivesBody param hasBody := by
  rw [GivesBody, ← bodyAsParam_iff, Bool.and_eq_true, Bool.not_eq_true', Bool.not_eq_true]

theorem callViolation_eq (convention : Convention) (param : String) (hasBody : Bool) :
    callViolation convention param hasBody =
      if convention.oneParam && !Text.allBlank param && hasBody then some .paramAndBody
      else arityViolation convention (bodyAsParam convention param hasBody || !Text.allBlank param)
        (hasBody && !bodyAsParam convention param hasBody) := by
  cases traded : bodyAsParam convention param hasBody <;> simp [callViolation, traded]

theorem broken_of_arityViolation {given kept : Bool}
    (param_iff : given = true ↔ convention.GivesParam param hasBody)
    (body_iff : kept = true ↔ convention.GivesBody param hasBody)
    (found : arityViolation convention given kept = some violation) :
    convention.Broken param hasBody violation := by
  unfold arityViolation at found
  split_ifs at found with missing unexpected missingBody unexpectedBody <;> cases found
  · exact .missingParam missing.1 (by simpa [← param_iff] using missing.2)
  · exact .unexpectedParam unexpected.1 (param_iff.mp unexpected.2)
  · exact .missingBody missingBody.1 (by simpa [← body_iff] using missingBody.2)
  · exact .unexpectedBody unexpectedBody.1 (body_iff.mp unexpectedBody.2)

theorem broken_of_callViolation (found : callViolation convention param hasBody = some violation) :
    convention.Broken param hasBody violation := by
  rw [callViolation_eq] at found
  split at found
  · rename_i both
    simp only [Bool.and_eq_true, Bool.not_eq_true'] at both
    cases found
    exact .paramAndBody both.1.1 both.1.2 both.2
  · exact broken_of_arityViolation givesParam_iff givesBody_iff found

theorem not_broken_of_permitted (permitted : callViolation convention param hasBody = none) :
    ¬ convention.Broken param hasBody violation := by
  rw [callViolation_eq] at permitted
  split at permitted
  · cases permitted
  · rename_i either
    unfold arityViolation at permitted
    split_ifs at permitted with missing unexpected missingBody unexpectedBody
    rw [givesParam_iff] at unexpected
    rw [givesBody_iff] at unexpectedBody
    simp only [Bool.not_eq_true', ← Bool.not_eq_true, givesParam_iff] at missing
    simp only [Bool.not_eq_true', ← Bool.not_eq_true, givesBody_iff] at missingBody
    intro broken
    cases broken with
    | missingParam required absent => exact missing ⟨required, absent⟩
    | unexpectedParam forbidden present => exact unexpected ⟨forbidden, present⟩
    | missingBody required absent => exact missingBody ⟨required, absent⟩
    | unexpectedBody forbidden present => exact unexpectedBody ⟨forbidden, present⟩
    | paramAndBody one present bodied => simp [one, present, bodied] at either

theorem callViolation_of_missingParam (required : convention.param = .required)
    (absent : ¬ convention.GivesParam param hasBody) :
    callViolation convention param hasBody = some .missingParam := by
  have missing := givesParam_iff.not.mpr absent
  simp only [Bool.or_eq_true, Bool.not_eq_true', not_or, Bool.not_eq_false, Bool.not_eq_true]
    at missing
  simp [callViolation_eq, arityViolation, required, missing]

end Convention

open Evaluation (range callTag violated recordCall)

variable {engine : Engine} {document : Document} {index : Nat} {tag : Tag}
  {closer : Option Nat} {resolved : Resolved}

namespace Engine

/-- The call of a tag fails for the parameter or the body that it gives, and is not recorded. -/
structure Refused (engine : Engine) (document : Document) (tag : Tag) (violation : Violation)
    (outcome : Except TemplateError String × Engine) : Prop where
  arity : violation.OfArity
  failed : outcome.1 = .error (violated engine.settings.delimiters document tag violation)
  unrecorded : outcome.2.callStack.names = engine.callStack.names

theorem Refused.unique {outcome : Except TemplateError String × Engine} {first second : Violation}
    (refused : engine.Refused document tag first outcome)
    (again : engine.Refused document tag second outcome) : first = second := by
  have same := refused.failed.symm.trans again.failed
  exact (TemplateError.convention.inj (Except.error.inj same)).2.1

end Engine

theorem CallStack.names_record_ne (name : String) (stack : CallStack) :
    (stack.record name).names ≠ stack.names := by
  obtain ⟨frames⟩ := stack
  cases frames <;> simp [record, names]

namespace Evaluation

theorem on_callTag {met : Engine}
    (looked : engine.resolve tag.name tag.param = (.ok (some resolved), met)) (level : Level)
    (document : Document) (index : Nat) (closer : Option Nat) :
    (callTag level document index tag closer).on engine =
      match callViolation resolved.binding.convention resolved.param closer.isSome with
      | some violation => (.error (violated met.settings.delimiters document tag violation), met)
      | none => (Invocation.run level ⟨document, index, tag, closer, resolved⟩).on
          (recordCall tag.name met) := by
  simp only [callTag, on_bind, on_step, looked, proceed_ok, callResolved_eq_run, on_check, checked]
  cases callViolation resolved.binding.convention resolved.param closer.isSome <;> rfl

end Evaluation

namespace Engine

/-- A call that breaks its convention is refused before anything happens: the engine is the
same, its journal and call stack included.  It is refused in no other case, and any other call
is recorded first. -/
theorem arity_checked_first
    (found : engine.registry.bindings.find? tag.name tag.param = some resolved) (levels : Nat)
    (document : Document) (index : Nat) (closer : Option Nat) :
    let invoked := (callTag (range levels) document index tag closer).on engine
    let broken := resolved.binding.convention.Broken resolved.param closer.isSome
    (∀ violation, engine.Refused document tag violation invoked →
      invoked.2 = engine ∧ broken violation) ∧
    ((∃ violation, engine.Refused document tag violation invoked) ↔
      ∃ violation, broken violation) ∧
    ((∀ violation, ¬ broken violation) →
      invoked = (Invocation.run (range levels) ⟨document, index, tag, closer, resolved⟩).on
        (recordCall tag.name engine) ∧
      invoked.2.callStack.names = (engine.callStack.record tag.name).names) := by
  intro invoked broken
  have called : invoked = _ :=
    Evaluation.on_callTag (resolve_of_found found) (range levels) document index closer
  cases checked : Evaluation.callViolation resolved.binding.convention resolved.param
      closer.isSome with
  | some violation =>
      rw [checked] at called
      have breaks : broken violation := Convention.broken_of_callViolation checked
      have refused : engine.Refused document tag violation invoked :=
        ⟨breaks.ofArity, by rw [called], by rw [called]⟩
      refine ⟨fun other again => ?_,
        ⟨fun _ => ⟨violation, breaks⟩, fun _ => ⟨violation, refused⟩⟩,
        fun none => absurd breaks (none violation)⟩
      cases again.unique refused
      exact ⟨by rw [called], breaks⟩
  | none =>
      rw [checked] at called
      have permitted : ∀ violation, ¬ broken violation := fun violation =>
        Convention.not_broken_of_permitted checked
      -- Whatever the call goes on to do, its own record stays on the frame.
      have names : invoked.2.callStack.names = (engine.callStack.record tag.name).names := by
        rw [called]
        exact ((Evaluation.hasEffect_range levels).run _ _ _ _ rfl).names_eq
      have recorded : ∀ violation, ¬ engine.Refused document tag violation invoked :=
        fun violation refused =>
          CallStack.names_record_ne _ _ (names.symm.trans refused.unrecorded)
      exact ⟨fun violation refused => absurd refused (recorded violation),
        ⟨fun ⟨violation, refused⟩ => absurd refused (recorded violation),
          fun ⟨violation, breaks⟩ => absurd breaks (permitted violation)⟩,
        fun _ => ⟨called, names⟩⟩

/-- Neither the tag nor the tag in its body is called, since both sides are given. -/
theorem arity_checked_first_both :
    ∃ document resolved,
      noting.parse "\x7bnote:x\x7d\x7bsign:\x7d\x7b:note\x7d" = .ok document ∧
      .call 1 ⟨"note", "x", 0, 8⟩ (some 5) ∈ document.outline 0 document.size ∧
      noting.registry.bindings.find? "note" "x" = some resolved ∧
      let invoked := (callTag (range 8) document 1 ⟨"note", "x", 0, 8⟩ (some 5)).on
        (Evaluation.enter noting)
      invoked.2 = Evaluation.enter noting ∧
        ∃ violation, (Evaluation.enter noting).Refused document ⟨"note", "x", 0, 8⟩ violation
          invoked := by
  have outlined : ((noting.parse "\x7bnote:x\x7d\x7bsign:\x7d\x7b:note\x7d").toOption.map
      fun document => decide (.call 1 ⟨"note", "x", 0, 8⟩ (some 5) ∈
        document.outline 0 document.size)) = some true := by
    decide +kernel
  have bound : (noting.registry.bindings.find? "note" "x").map
      (fun resolved => (resolved.binding.convention, resolved.param)) =
        some ({ param := .required, oneParam := true }, "x") := by
    decide +kernel
  obtain ⟨document, parsed, member⟩ := Option.map_eq_some_iff.mp outlined
  obtain ⟨resolved, found, same⟩ := Option.map_eq_some_iff.mp bound
  obtain ⟨convention, param⟩ := Prod.mk.inj same
  let tag : Tag := ⟨"note", "x", 0, 8⟩
  have inside : (Evaluation.enter noting).registry.bindings.find? tag.name tag.param =
      some resolved := found
  obtain ⟨untouched, refused, -⟩ := arity_checked_first inside 8 document 1 (some 5)
  obtain ⟨violation, refusal⟩ := refused.mpr
    ⟨.paramAndBody, .paramAndBody (by rw [convention]) (by rw [param]; decide) rfl⟩
  exact ⟨document, resolved, parse_of_toOption parsed, of_decide_eq_true member, found,
    (untouched violation refusal).1, violation, refusal⟩

end Engine

/-- A required plain parameter is that of the tag, which is not blank, or the text of the body
that has taken its place. -/
def TagCall.HasRequiredParam (settings : Settings) (invocation : Invocation) (call : TagCall) :
    Prop :=
  invocation.convention.param = .required → invocation.convention.paramShape = .scalar →
    ∃ text, call.param = .text text ∧
      (text = invocation.resolved.param ∧ Text.allBlank text = false ∨
        invocation.convention.Trades invocation.resolved.param invocation.closer.isSome ∧
          invocation.call settings (some text) = .ok { call with document := none })

/-- A handler is called for a tag that was looked up, with the parameter that it requires. -/
def Event.GivesRequiredParam (holds : Registry → Prop) (settings : Settings) : Event → Prop
  | .called call builtIn _ _ =>
    ∃ invocation : Invocation, call.MadeFor holds invocation ∧
      builtIn = invocation.binding.builtIn ∧ call.HasRequiredParam settings invocation
  | .lookup _ => True

/-- A binding waits to be called for a tag for which it was found, with the parameter that it
requires. -/
def DeferredCall.GivesRequiredParam (holds : Registry → Prop) (settings : Settings)
    (entry : DeferredCall) : Prop :=
  ∃ invocation : Invocation, entry.call.MadeFor holds invocation ∧
    invocation.binding = entry.binding ∧ entry.call.HasRequiredParam settings invocation

theorem Invocation.Makes.hasRequiredParam {settings : Settings} {invocation : Invocation}
    {call : TagCall} (made : invocation.Makes settings { call with document := none }) :
    call.HasRequiredParam settings invocation := by
  intro required scalar
  obtain ⟨permitted, body, present, given⟩ := made
  obtain ⟨-, -, param, -⟩ :=
    Evaluation.decoded_eq_ok_iff.mp ((invocation.call_eq settings body).symm.trans given)
  have shape : invocation.resolved.binding.convention.paramShape = .scalar := scalar
  rw [shape, Shape.decodeParam, Evaluation.sides] at param
  have gives : invocation.convention.GivesParam invocation.resolved.param
      invocation.closer.isSome := by
    apply Classical.not_not.mp
    intro absent
    exact Convention.not_broken_of_permitted permitted (.missingParam required absent)
  rcases gives with written | trades
  · have kept : Evaluation.bodyAsParam invocation.resolved.binding.convention
        invocation.resolved.param invocation.closer.isSome = false := by
      simp [Evaluation.bodyAsParam, written]
    rw [kept] at param
    exact ⟨_, param, .inl ⟨rfl, written⟩⟩
  · -- The check has not looked at the text, so nothing is known of it.
    have taken : Evaluation.bodyAsParam invocation.resolved.binding.convention
        invocation.resolved.param invocation.closer.isSome = true :=
      Convention.bodyAsParam_iff.mpr trades
    rw [taken] at param
    obtain ⟨text, rfl⟩ := Option.isSome_iff_exists.mp (present.trans trades.2.2)
    exact ⟨text, param, .inr ⟨trades, given⟩⟩

section

variable {holds : Registry → Prop} {settings : Settings}

theorem Event.ComesFromTag.givesRequiredParam {event : Event}
    (origin : event.ComesFromTag holds settings) : event.GivesRequiredParam holds settings := by
  cases event with
  | lookup event => trivial
  | called call builtIn depth frames =>
      obtain ⟨invocation, found, same, -, made⟩ := origin
      exact ⟨invocation, made.madeFor found, same, made.hasRequiredParam⟩

theorem DeferredCall.ComesFromTag.givesRequiredParam {entry : DeferredCall}
    (origin : entry.ComesFromTag holds settings) : entry.GivesRequiredParam holds settings := by
  obtain ⟨invocation, found, -, same, made⟩ := origin
  rw [← made.undocumented] at made
  exact ⟨invocation, made.madeFor found, same, made.hasRequiredParam⟩

end

namespace Engine

open Evaluation (whole)
open Moment (Leads mainPass)

/-- In a complete evaluation a handler that requires a plain parameter is given one that is not
blank, except where the body of its tag takes the place of the parameter: then it is given the
text of the body, blank or not.  A tag that gives neither is refused.  On every walk, of which the
main pass is one, this is said of the tag and of the binding whose handler is running, and it is
said of every binding that waits for a replay. -/
theorem required_param_given (engine : Engine) (document : Document) (batches : Nat) :
    let level := range engine.settings.maxDepth
    let main := (whole level document).on (Expansion.begin engine)
    let underway := (Evaluation.underway level batches document).on (Expansion.begin engine)
    (mainPass engine document).Leads ⟨engine.settings.maxDepth, .result main.1, [], main.2⟩ ∧
    (∀ (opened : Engine) levels task, opened.settings = engine.settings → opened.Parsed →
      task.Begins engine.settings.delimiters →
      ∀ moment, Leads ⟨levels, task, [], opened⟩ moment →
      ∀ invocation call, .handling invocation call ∈ moment.waiters →
        call.HasRequiredParam engine.settings invocation) ∧
    (∀ holds, Registry.Keeps holds → holds engine.registry →
      (∃ events : List Event, underway.2.journal = engine.journal ++ events.toArray ∧
        ∀ event ∈ events, event.GivesRequiredParam holds engine.settings) ∧
      ∀ entry ∈ underway.2.deferred.entries, entry.GivesRequiredParam holds engine.settings) ∧
    (∀ result after, (Expansion.document batches document).run engine = some (result, after) →
      result = underway.1 ∧ after = Expansion.finish underway.2) ∧
    ∀ (reached met : Engine) (level : Evaluation.Level) (page : Document) (index : Nat)
        (tag : Tag) (closer : Option Nat) (resolved : Resolved),
      reached.resolve tag.name tag.param = (.ok (some resolved), met) →
      resolved.binding.convention.param = .required →
      ¬ resolved.binding.convention.GivesParam resolved.param closer.isSome →
      (callTag level page index tag closer).on reached =
        (.error (violated met.settings.delimiters page tag .missingParam), met) := by
  intro level main underway
  refine ⟨Evaluation.realises_range _ document 0 document.size [] _, ?_, ?_,
    fun _ _ ran => Evaluation.underway_of_run ran, ?_⟩
  · intro opened levels task same parsed begins moment led invocation call running
    rw [← same] at begins ⊢
    have laid : moment.Laid (fun _ => True) opened :=
      Moment.laid_of_leads (fun _ _ => trivial) trivial parsed begins led
    exact (laid.makes running).2.hasRequiredParam
  · intro holds kept held
    have ready : (Expansion.begin engine).Ready holds engine.settings := ⟨rfl, held⟩
    obtain ⟨-, ⟨events, noted, found⟩, queued⟩ :=
      (Evaluation.attributesLevel_range kept _).underway kept batches document ready rfl
    exact ⟨⟨events, noted, fun event member => (found event member).givesRequiredParam⟩,
      fun entry member => (queued entry member).givesRequiredParam⟩
  · intro reached met level page index tag closer resolved looked required absent
    rw [Evaluation.on_callTag looked, Convention.callViolation_of_missingParam required absent]

/-- One parameter stands in the tag, and one in its body. -/
theorem required_param_given_noting :
    noting.registry.Filled ∧ ∃ document,
      noting.parse "\x7bnote: x\x7d\x7bnote:\x7dy\x7b:note\x7d" = .ok document ∧
      let underway := (Evaluation.underway (range noting.settings.maxDepth) 1 document).on
        (Expansion.begin noting)
      underway.2.calls.map (fun call => (call.param, call.body.isNone)) =
        [(.text " x", true), (.text "y", true)] ∧
      ∃ events : List Event, underway.2.journal = noting.journal ++ events.toArray ∧
        ∀ event ∈ events, event.GivesRequiredParam (· = noting.registry) noting.settings := by
  have filled : noting.registry.Filled := .run (.empty ":") _
  have observed : ((noting.parse "\x7bnote: x\x7d\x7bnote:\x7dy\x7b:note\x7d").toOption.map
      fun document => ((Evaluation.underway (range noting.settings.maxDepth) 1 document).on
        (Expansion.begin noting)).2.calls.map fun call => (call.param, call.body.isNone)) =
      some [(.text " x", true), (.text "y", true)] := by
    decide +kernel
  obtain ⟨document, parsed, calls⟩ := Option.map_eq_some_iff.mp observed
  obtain ⟨-, -, found, -⟩ := required_param_given noting document 1
  exact ⟨filled, document, parse_of_toOption parsed, calls, (found _ keeps_noting rfl).1⟩

/-- A handler that requires a parameter is given a blank one, which its tag has for a body. -/
theorem required_param_blank :
    noting.registry.Filled ∧
      (noting.registry.bindings.find? "note" "").map (fun resolved =>
        (resolved.binding.convention.param, resolved.binding.convention.paramShape)) =
          some (.required, .scalar) ∧
      ∃ document, noting.parse "\x7bnote:\x7d \x7b:note\x7d" = .ok document ∧
        let underway := (Evaluation.underway (range noting.settings.maxDepth) 1 document).on
          (Expansion.begin noting)
        underway.1.toOption = some " " ∧
          underway.2.calls.map (fun call => (call.tag, call.param)) = [("note", .text " ")] ∧
          Text.allBlank " " = true := by
  have observed : ((noting.parse "\x7bnote:\x7d \x7b:note\x7d").toOption.map fun document =>
      let underway := (Evaluation.underway (range noting.settings.maxDepth) 1 document).on
        (Expansion.begin noting)
      (underway.1.toOption, underway.2.calls.map fun call => (call.tag, call.param))) =
      some (some " ", [("note", .text " ")]) := by
    decide +kernel
  obtain ⟨document, parsed, same⟩ := Option.map_eq_some_iff.mp observed
  obtain ⟨written, calls⟩ := Prod.mk.inj same
  exact ⟨.run (.empty ":") _, by decide +kernel, document, parse_of_toOption parsed, written,
    calls, by decide⟩

end Engine

end TagTemplate
