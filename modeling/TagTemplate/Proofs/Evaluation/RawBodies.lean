import TagTemplate.Proofs.Evaluation.Enclosing
import TagTemplate.Proofs.Evaluation.Positions

/-!
Bodies that are passed as they are written.

The body is the slice of the source between the two tags.  It is read off the document when the
tag is called, and the level goes on behind the close tag, so that nothing that stands in the
body is looked up, recorded, queued or called.
-/

namespace TagTemplate

open TagTemplate.Text (IsSlice)

/-- The body reaches the handler as a text, without expansion. -/
structure Convention.TakesSource (convention : Convention) : Prop where
  raw : convention.rawBody = true
  shape : convention.bodyShape = .text
  separate : convention.oneParam = false

/-- The text between two tags of a document. -/
def Document.HasBetween (document : Document) (tag : Tag) (closer : Nat) (text : String) : Prop :=
  ∃ closeTag, document.tag? closer = some closeTag ∧
    IsSlice document.source tag.stop closeTag.start text

/-- The segments of a body are written as the source has them between the tags of the pair. -/
theorem Document.IsParsed.hasBetween_raw {document : Document} {d : Delimiters} {index closer : Nat}
    {tag : Tag} (parsed : document.IsParsed d) (delimiting : d.Delimiting)
    (found : document.tag? index = some tag)
    (role : document.role? index = some (.closedAt closer)) :
    document.HasBetween tag closer (document.raw d (index + 1) closer) := by
  rcases parsed with rfl | ⟨source, parsed⟩
  · cases role
  obtain ⟨rfl, segments, accepted⟩ := parse_eq_ok_iff.mp parsed
  obtain ⟨before, openTag, closeTag, openFound, closeFound, -⟩ :=
    (Pairing.nested_of_pairTags accepted).matched (role?_eq_some_iff.mp role)
  have same : openTag = tag := by
    rw [Array.getElem?_toList] at openFound
    rw [tag?, openFound] at found
    exact Option.some.inj found
  subst same
  refine ⟨closeTag, ?_, ?_⟩
  · rw [tag?, ← Array.getElem?_toList, closeFound]
    rfl
  · have listed : document.segments.toList = d.tokenize document.source := by rw [segments]
    rw [listed] at openFound closeFound
    have tokens := d.tokenize_tokens document.source
    have slice := d.isSlice_range (d.tokenize document.source) before
    rw [delimiting.detokenize_tokenize, ← Nat.zero_add (d.detokenize _).utf8ByteSize,
      ← (tokens.span openFound).2, ← Nat.zero_add (d.detokenize _).utf8ByteSize,
      ← (tokens.span closeFound).1] at slice
    rwa [raw, range, listed]

/-- The call of a tag that takes its body from the source. -/
def Invocation.textCall (invocation : Invocation) (settings : Settings) (text : String) :
    TagCall where
  name := invocation.resolved.name
  tag := invocation.tag.name
  param := Shape.decodeParam invocation.convention.paramShape settings.delimiters.separator
    invocation.resolved.param
  body := .text text
  offset := invocation.tag.start
  document := none

theorem Invocation.call_of_takesSource {invocation : Invocation}
    (takes : invocation.convention.TakesSource) (settings : Settings) (text : String) :
    invocation.call settings (some text) = .ok (invocation.textCall settings text) := by
  have separate : invocation.resolved.binding.convention.oneParam = false := takes.separate
  have shape : invocation.resolved.binding.convention.bodyShape = .text := takes.shape
  simp only [call_eq, Evaluation.sides, Evaluation.bodyAsParam, separate, Bool.false_and,
    Bool.false_eq_true, if_false, Evaluation.decoded, shape]
  rfl

namespace Moment

/-- The call of a tag goes on: the tag has been looked up and recorded, and nothing else has
happened. -/
def calling (moment : Moment) (level : OpenLevel) (rest : List Item) (invocation : Invocation)
    (met : Engine) : Moment :=
  { moment with engine := Evaluation.recordCall invocation.tag.name met }.await
    (.calling { level with rest } invocation.tag)

def enqueue (moment : Moment) (entry : DeferredCall) : Moment :=
  { moment with
    engine := moment.engine.queueing ⟨moment.engine.deferred.slots ++ [some entry]⟩ }

section

variable {moment : Moment} {level : OpenLevel} {rest : List Item} {invocation : Invocation}
  {met : Engine}

/-- A tag comes next on a level, and a look-up finds what handles it. -/
structure Meets (moment : Moment) (level : OpenLevel) (rest : List Item)
    (invocation : Invocation) (met : Engine) : Prop where
  opened : moment.task = .items level
  document : invocation.document = level.document
  left : level.rest = .call invocation.index invocation.tag invocation.closer :: rest
  looked : moment.engine.resolve invocation.tag.name invocation.tag.param =
    (.ok (some invocation.resolved), met)

theorem Meets.next_of_refused (meets : moment.Meets level rest invocation met)
    {violation : Violation}
    (broken : Evaluation.callViolation invocation.convention invocation.resolved.param
      invocation.closer.isSome = some violation) :
    moment.next = some ({ moment with engine := met }.leave (.error
      (Evaluation.violated met.settings.delimiters invocation.document invocation.tag
        violation))) := by
  rw [Invocation.convention, Invocation.binding] at broken
  simp only [next, meets.opened, items, meets.left, Item.meet, meets.looked, Evaluation.checked,
    broken, Except.map, meets.document]

theorem Meets.next_of_permitted (meets : moment.Meets level rest invocation met)
    (permitted : Evaluation.callViolation invocation.convention invocation.resolved.param
      invocation.closer.isSome = none) :
    moment.next =
      some { moment.calling level rest invocation met with task := .invoke invocation } := by
  have same : Invocation.mk level.document invocation.index invocation.tag invocation.closer
      invocation.resolved = invocation := by rw [← meets.document]
  rw [Invocation.convention, Invocation.binding] at permitted
  simp only [next, meets.opened, items, meets.left, Item.meet, meets.looked, Evaluation.checked,
    permitted, Except.map, same]
  rfl

theorem Meets.settings_eq (meets : moment.Meets level rest invocation met) :
    met.settings = moment.engine.settings :=
  (congrArg (fun outcome => outcome.2.settings) meets.looked).symm

/-- The raw body of a tag is read off its document, and the handler is called with it or waits. -/
theorem later_of_invoke (moment : Moment) {closer : Nat}
    (closed : invocation.closer = some closer) (takes : invocation.convention.TakesSource) :
    let settings := moment.engine.settings
    let call := invocation.textCall settings
      (invocation.document.raw settings.delimiters (invocation.index + 1) closer)
    later 2 { moment with task := .invoke invocation } = some (
      if invocation.convention.deferred then
        (moment.enqueue ⟨invocation.binding, call⟩).give (.ok "")
      else (moment.await (.handling invocation call)).handle invocation.binding call) := by
  intro settings call
  have given : invocation.call settings
      (some (invocation.document.raw settings.delimiters (invocation.index + 1) closer)) =
        .ok call := Invocation.call_of_takesSource takes settings _
  cases deferred : invocation.convention.deferred with
  | false =>
      have reserved : invocation.reserve moment.engine = (none, moment.engine) := by
        simp [Invocation.reserve, deferred]
      simp only [later, next, invoke, reserved, closed, takes.raw, if_true, Option.bind_some,
        deliver]
      rw [given]
      rfl
  | true =>
      have reserved : invocation.reserve moment.engine = (some moment.engine.deferred.reserve.1,
          moment.engine.queueing moment.engine.deferred.reserve.2) := by
        simp [Invocation.reserve, deferred, Engine.queueing]
      simp only [later, next, invoke, reserved, closed, takes.raw, if_true, Option.bind_some,
        deliver]
      rw [Engine.queueing, given]
      simp only [Evaluation.fillSlot, DeferredQueue.fill_reserve]
      rfl

/-- How a tag with a raw body is called that comes next on a level. -/
structure PassesBody (moment : Moment) (level : OpenLevel) (rest : List Item)
    (invocation : Invocation) (closer : Nat) (met : Engine) (text : String) : Prop where
  source : invocation.document.HasBetween invocation.tag closer text
  /-- The level goes on behind the close tag. -/
  behind : ∃ start stop, invocation.document.Region start stop ∧ start ≤ invocation.index ∧
    closer < stop ∧ rest = invocation.document.outline (closer + 1) stop
  refused : ∀ violation,
    Evaluation.callViolation invocation.convention invocation.resolved.param true =
      some violation →
    moment.next = some ({ moment with engine := met }.leave (.error
      (Evaluation.violated met.settings.delimiters invocation.document invocation.tag violation)))
  /-- Looking the tag up and recording it is all that happens before its handler is called, or
  before the call is queued. -/
  permitted :
    Evaluation.callViolation invocation.convention invocation.resolved.param true = none →
    let call := invocation.textCall moment.engine.settings text
    let waiting := moment.calling level rest invocation met
    later 3 moment = some (
      if invocation.convention.deferred then
        (waiting.enqueue ⟨invocation.binding, call⟩).give (.ok "")
      else (waiting.await (.handling invocation call)).handle invocation.binding call)

theorem Laid.passesBody {holds : Registry → Prop} {origin : Engine} {closer : Nat}
    (laid : moment.Laid holds origin)
    (delimiting : origin.settings.delimiters.Delimiting)
    (meets : moment.Meets level rest invocation met) (closed : invocation.closer = some closer)
    (takes : invocation.convention.TakesSource) :
    moment.PassesBody level rest invocation closer met
      (invocation.document.raw origin.settings.delimiters (invocation.index + 1) closer) := by
  have placed : level.Laid origin.settings := by
    have task := laid.task
    rwa [meets.opened] at task
  have left := meets.left
  rw [closed] at left
  obtain ⟨start, stop, next, region, -, stands, behind⟩ := placed.stands left
  have same := meets.document
  -- an outline gives a close tag only to a tag that is paired with it
  cases stands with
  | loose _ uncalled => exact absurd rfl (uncalled _ _ _)
  | pair first last found role =>
      rw [← same] at found role region behind
      obtain ⟨whole, -, -⟩ := region.closed (same ▸ placed.parsed.nested)
      refine ⟨(same ▸ placed.parsed).hasBetween_raw delimiting found role,
        ⟨start, stop, region, first, ((whole _ closer role).mp ⟨first, last⟩).2, behind⟩,
        fun violation broken => meets.next_of_refused (by rw [closed]; exact broken),
        fun permitted => ?_⟩
      have passed := later_of_invoke (moment.calling level rest invocation met) closed takes
      have recorded : (moment.calling level rest invocation met).engine.settings =
          origin.settings := meets.settings_eq.trans laid.engine.same
      rw [recorded] at passed
      rw [later, meets.next_of_permitted (by rw [closed]; exact permitted), Option.bind_some,
        laid.engine.same]
      exact passed

end

end Moment

/-- A handler is called for a tag that stands in a document and has been looked up there, and with
the text between its two tags where the body takes the source. -/
def Event.LeavesBody (holds : Registry → Prop) (settings : Settings) : Event → Prop
  | .called call builtIn _ _ =>
    ∃ invocation : Invocation, invocation.Located holds settings ∧
      builtIn = invocation.binding.builtIn ∧ call.name = invocation.resolved.name ∧
      call.tag = invocation.tag.name ∧ call.offset = invocation.tag.start ∧
      ∀ closer, invocation.closer = some closer → invocation.convention.TakesSource →
        ∃ text, invocation.document.HasBetween invocation.tag closer text ∧
          { call with document := none } = invocation.textCall settings text
  | .lookup _ => True

theorem Event.Located.leavesBody {holds : Registry → Prop} {settings : Settings} {event : Event}
    (located : event.Located holds settings) (delimiting : settings.delimiters.Delimiting) :
    event.LeavesBody holds settings := by
  cases event with
  | lookup event => trivial
  | called call builtIn depth frames =>
      obtain ⟨binding, rfl, invocation, stands, rfl, body, carries, given⟩ := located
      obtain ⟨name, tag, -, -, offset, -⟩ :=
        Evaluation.decoded_eq_ok_iff.mp ((invocation.call_eq settings body).symm.trans given)
      refine ⟨invocation, stands, rfl, name, tag, offset, fun closer closed takes => ?_⟩
      have role := stands.role
      rw [closed] at role
      refine ⟨_, stands.parsed.hasBetween_raw delimiting stands.found role, ?_⟩
      have raw := carries.raw takes.raw
      rw [closed] at raw
      rw [raw] at given
      exact Except.ok.inj (given.symm.trans (Invocation.call_of_takesSource takes settings _))

namespace Engine

open Evaluation (range whole)
open Moment (Leads mainPass)

/-- A body that takes the source is the slice of the source between its two tags, in every call
that an evaluation makes or notes.  Whatever stands in the body, the tag around it is the only
one that is looked up and recorded before its handler is called, or its own slot in the queue is
filled, and the level goes on behind its close tag.  So it is on every walk, of which the main
pass is one. -/
theorem text_bodies_left_alone {engine : Engine} (valid : engine.settings.validate = .ok ())
    (loaded : engine.Parsed) :
    (∀ (opened : Engine) levels task, opened.settings = engine.settings → opened.Parsed →
      task.Begins engine.settings.delimiters →
      ∀ moment, Leads ⟨levels, task, [], opened⟩ moment →
      ∀ level rest invocation closer met, moment.Meets level rest invocation met →
        invocation.closer = some closer → invocation.convention.TakesSource →
        ∃ text, moment.PassesBody level rest invocation closer met text) ∧
    ∀ batches document, document.IsParsed engine.settings.delimiters →
      let level := range engine.settings.maxDepth
      let main := (whole level document).on (Expansion.begin engine)
      let underway := (Evaluation.underway level batches document).on (Expansion.begin engine)
      (mainPass engine document).Leads ⟨engine.settings.maxDepth, .result main.1, [], main.2⟩ ∧
      underway.2.settings = engine.settings ∧ underway.2.Parsed ∧
      (∀ holds, Registry.Keeps holds → holds engine.registry →
        ∃ events : List Event, underway.2.journal = engine.journal ++ events.toArray ∧
          ∀ event ∈ events, event.LeavesBody holds engine.settings) ∧
      ∀ result after, (Expansion.document batches document).run engine = some (result, after) →
        result = underway.1 ∧ after = Expansion.finish underway.2 := by
  have delimiting := Settings.delimiting_of_validate valid
  refine ⟨?_, ?_⟩
  · intro opened levels task same parsed begins moment led level rest invocation closer met meets
      closed takes
    rw [← same] at begins delimiting
    have laid : moment.Laid (fun _ => True) opened :=
      Moment.laid_of_leads (fun _ _ => trivial) trivial parsed begins led
    exact ⟨_, laid.passesBody delimiting meets closed takes⟩
  · intro batches document parsed level main underway
    have located : ∀ holds, Registry.Keeps holds → holds engine.registry →
        underway.2.LocatedSince holds (Expansion.begin engine) :=
      fun _ kept held => Evaluation.underway_located kept batches parsed loaded held rfl
    have anyhow := located (fun _ => True) (Registry.keeps_of_runs fun _ _ => trivial) trivial
    have parsedNow : underway.2.Parsed := by
      have loadedNow := anyhow.loaded
      rw [← anyhow.same] at loadedNow
      exact loadedNow
    refine ⟨Evaluation.realises_range _ document 0 document.size [] _, anyhow.same, parsedNow,
      fun holds kept held => ?_, fun _ _ ran => Evaluation.underway_of_run ran⟩
    obtain ⟨events, noted, stand⟩ := (located holds kept held).noted
    exact ⟨events, noted, fun event member => (stand event member).leavesBody delimiting⟩

/-- A tag that takes its body from the source, a deferred tag, a tag that requires a parameter, and
an autoload callback that registers a handler for any name. -/
def sheltering : Engine :=
  shallow ⟨⟨":", [("later", ⟨fun _ => .done "", { deferred := true }, false⟩),
    ("need", ⟨fun _ => .done "", { param := .required }, false⟩),
    ("raw", ⟨fun call => .done call.body.asText, { rawBody := true }, false⟩)]⟩,
    some (RegistryProgram.callback fun name =>
      .register name (fun _ => .done "") .default false fun _ => .done)⟩

theorem returnsTexts_sheltering : sheltering.registry.ReturnsTexts where
  bindings := by
    intro name binding member
    simp only [sheltering, shallow, List.mem_cons, Prod.mk.injEq, List.not_mem_nil, or_false]
      at member
    rcases member with ⟨-, rfl⟩ | ⟨-, rfl⟩ | ⟨-, rfl⟩ <;> exact fun _ => ⟨_, rfl⟩
  autoload := by
    rintro _ ⟨⟩
    exact RegistryProgram.Registers.callback fun name =>
      .register (fun _ _ => ⟨"", rfl⟩) fun _ => .done

/-- The tags in the body are neither looked up nor called, and the body is passed as it is. -/
theorem text_bodies_left_alone_sheltering :
    sheltering.settings.validate = .ok () ∧ sheltering.Parsed ∧ ∃ document,
      sheltering.parse "\x7braw:\x7d\x7blater:\x7d\x7bneed:\x7d\x7bmore:\x7d\x7b:raw\x7d" =
        .ok document ∧
      (∃ moment level rest invocation closer met text, (mainPass sheltering document).Leads moment ∧
        moment.Meets level rest invocation met ∧ invocation.closer = some closer ∧
        invocation.convention.TakesSource ∧
        moment.PassesBody level rest invocation closer met text) ∧
      let underway := (Evaluation.underway (range sheltering.settings.maxDepth) 1 document).on
        (Expansion.begin sheltering)
      underway.2.calls.map (fun call => (call.name, call.body.asText)) =
        [("raw", "\x7blater:\x7d\x7bneed:\x7d\x7bmore:\x7d")] ∧
      underway.2.journal.size = 1 ∧
      ∃ events : List Event, underway.2.journal = sheltering.journal ++ events.toArray ∧
        ∀ event ∈ events, event.LeavesBody Registry.ReturnsTexts sheltering.settings := by
  have valid : sheltering.settings.validate = .ok () := by decide
  have loaded : sheltering.Parsed := .inl rfl
  let raw : Tag := ⟨"raw", "", 0, 6⟩
  let document : Document :=
    ⟨"\x7braw:\x7d\x7blater:\x7d\x7bneed:\x7d\x7bmore:\x7d\x7b:raw\x7d",
      #[.literal "", .tag raw, .literal "", .tag ⟨"later", "", 6, 14⟩, .literal "",
        .tag ⟨"need", "", 14, 21⟩, .literal "", .tag ⟨"more", "", 21, 28⟩, .literal "",
        .tag ⟨"", "raw", 28, 34⟩, .literal ""],
      #[none, some (.closedAt 9), none, some .selfClosed, none, some .selfClosed, none,
        some .selfClosed, none, some (.closes 1), none]⟩
  have parsed : sheltering.parse document.source = .ok document := by decide +kernel
  obtain ⟨passes, whole⟩ := text_bodies_left_alone valid loaded
  obtain ⟨-, -, -, noted, -⟩ := whole 1 document (.inr ⟨_, parsed⟩)
  let moment : Moment := ⟨2, .items ⟨document, [], "" ++ "", [.call 1 raw (some 9), .text ""]⟩, [],
    Evaluation.enter (Expansion.begin sheltering)⟩
  have reached : Moment.later 2 (mainPass sheltering document) = some moment := rfl
  have led := Moment.leads_of_later reached
  let resolved : Resolved :=
    ⟨⟨fun call => .done call.body.asText, { rawBody := true }, false⟩, "raw", ""⟩
  have found : moment.engine.registry.bindings.find? "raw" "" = some resolved := rfl
  let invocation : Invocation := ⟨document, 1, raw, some 9, resolved⟩
  have meets : moment.Meets ⟨document, [], "" ++ "", [.call 1 raw (some 9), .text ""]⟩ [.text ""]
      invocation moment.engine := ⟨rfl, rfl, rfl, resolve_of_found found⟩
  have takes : invocation.convention.TakesSource := ⟨rfl, rfl, rfl⟩
  have begins : Task.Begins sheltering.settings.delimiters (.range document 0 document.size) :=
    ⟨.inr ⟨_, parsed⟩, .whole⟩
  obtain ⟨text, passed⟩ :=
    passes (Expansion.begin sheltering) _ _ rfl loaded begins moment led _ _ _ 9 _ meets rfl takes
  exact ⟨valid, loaded, document, parsed,
    ⟨moment, _, _, invocation, 9, _, text, led, meets, rfl, takes, passed⟩, by decide +kernel,
    by decide +kernel, noted _ Registry.keeps_returnsTexts returnsTexts_sheltering⟩

end Engine

end TagTemplate
