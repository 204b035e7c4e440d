import TagTemplate.Proofs.Evaluation.Alike
import TagTemplate.Proofs.Forest

/-!
Expanding a body late.

The raw body of a pair is parsed to the forest that the pair encloses, and a handler that
expands it does so on the level, and over the frames, that its body would be evaluated on.  So
evaluations of forests that are alike end alike on engines that are alike, one with a tag whose
body is expanded in its place and one with a handler that expands it late.
-/

namespace TagTemplate

namespace Document

variable {d : Delimiters} {document : Document}

/-- Two places at which tags are called with bodies that are alike. -/
inductive SameSite (d : Delimiters) (document copy : Document) (index place : Nat) :
    Option Nat → Option Nat → Prop where
  | single (written : document.raw d index (index + 1) = copy.raw d place (place + 1)) :
      SameSite d document copy index place none none
  | pair {closer closing : Nat} {inner innerCopy : Forest}
      (written : document.raw d index (closer + 1) = copy.raw d place (closing + 1))
      (forms : document.Forms (index + 1) closer inner)
      (copied : copy.Forms (place + 1) closing innerCopy) (alike : inner.Alike innerCopy)
      (paired : copy.role? place = some (.closedAt closing)) :
      SameSite d document copy index place (some closer) (some closing)

namespace SameSite

variable {copy : Document} {index place : Nat} {closer closing : Option Nat}

theorem isSome_eq (site : SameSite d document copy index place closer closing) :
    closing.isSome = closer.isSome := by
  cases site <;> rfl

theorem written (site : SameSite d document copy index place closer closing) :
    document.raw d index (closer.getD index + 1) =
      copy.raw d place (closing.getD place + 1) := by
  cases site with
  | single written => exact written
  | pair written => exact written

theorem body_eq (site : SameSite d document copy index place closer closing) :
    closer.map (fun closer => document.raw d (index + 1) closer) =
      closing.map (fun closing => copy.raw d (place + 1) closing) := by
  cases site with
  | single written => rfl
  | pair written forms copied alike paired =>
      exact congrArg some (forms.raw_eq_raw copied alike d)

end SameSite

end Document

variable {marked : String} {common : Settings}

theorem Engine.Alike.isParsed {engine other : Engine}
    (alike : engine.Alike marked common other) :
    engine.document.IsParsed common.delimiters := by
  rw [← alike.settings]
  exact alike.parsed

namespace Evaluation

/-- A call with a text for its body is noted. -/
def noted (tag : Tag) (name param text : String) (engine : Engine) : Engine :=
  let call : TagCall := ⟨name, tag.name, .text param, .text text, tag.start, none⟩
  engine.record [.called call false engine.depth engine.callStack.depth]

theorem on_callResolved_inPlace (level : Level) (document : Document) (index closer : Nat)
    (tag : Tag) (name param : String) (engine : Engine) :
    (callResolved level document index tag (some closer) ⟨.inPlace, name, param⟩).on engine =
      proceed ((level document (index + 1) closer).on (recordCall tag.name engine)) fun text => do
        EngineT.change (noted tag name param text)
        return text := by
  have accepted : callViolation Binding.inPlace.convention param true = none := rfl
  have immediate : Binding.inPlace.convention.deferred = false := rfl
  have body : bodyText level document Binding.inPlace.convention index (some closer) =
      some <$> level document (index + 1) closer := rfl
  simp only [callResolved_eq, on_bind, on_check, checked, Option.isSome_some, accepted, proceed_ok,
    on_change, immediate, Bool.false_eq_true, if_false, prepare, body, map_eq_pure_bind]
  rcases (level document (index + 1) closer).on (recordCall tag.name engine) with
    ⟨_ | text, after⟩ <;> rfl

theorem on_run_late (level : Level) (call : TagCall) (engine : Engine) :
    Evaluation.on (Binding.late.run (host level) call) engine =
      (text level call.body.asText).on
        (engine.record [.called call false engine.depth engine.callStack.depth]) := by
  simp only [Binding.run, on_bind, on_change, proceed_ok, Binding.late, Program.run, on_attempt,
    host]
  rcases (text level call.body.asText).on _ with ⟨_ | _, after⟩ <;> rfl

theorem on_callResolved_late (level : Level) (document : Document) (index closer : Nat)
    (tag : Tag) (name param : String) (engine : Engine) :
    let raw := document.raw engine.settings.delimiters (index + 1) closer
    let outcome := (text level raw).on (noted tag name param raw (recordCall tag.name engine))
    (callResolved level document index tag (some closer) ⟨.late, name, param⟩).on engine =
      (outcome.1.mapError (TemplateError.attributedTo name), outcome.2) := by
  intro raw outcome
  have accepted : callViolation Binding.late.convention param true = none := rfl
  have immediate : Binding.late.convention.deferred = false := rfl
  have prepared : (prepare level document index tag (some closer) ⟨.late, name, param⟩).on
      (recordCall tag.name engine) =
      (.ok ⟨name, tag.name, .text param, .text raw, tag.start, none⟩,
        recordCall tag.name engine) := rfl
  simp only [callResolved_eq, on_bind, on_check, checked, Option.isSome_some, accepted, proceed_ok,
    on_change, immediate, Bool.false_eq_true, if_false, prepared, on_runNamed, on_run_late]
  change proceed (outcome.1.mapError _, outcome.2) _ = _
  rcases outcome with ⟨_ | text, after⟩ <;> rfl

/-- Evaluating what is alike on a level ends alike. -/
def LevelAlike (marked : String) (common : Settings) (level : Level) : Prop :=
  ∀ {document copy : Document} {start stop first last : Nat} {forest other : Forest},
    document.Forms start stop forest → copy.Forms first last other → forest.Alike other →
    copy.IsParsed common.delimiters →
    Alike marked common Eq (level document start stop) (level copy first last)

namespace LevelAlike

variable {level : Level} {document copy : Document} {index place : Nat} {tag tagCopy : Tag}
  {closer closing : Option Nat} {resolved other : Resolved}

theorem whole (levels : LevelAlike marked common level)
    (parsed : document.IsParsed common.delimiters) :
    Alike marked common Eq (whole level document) (whole level document) := by
  obtain ⟨forest, forms⟩ := parsed.exists_forest
  exact levels forms forms (.refl forest) parsed

theorem text (levels : LevelAlike marked common level) (source : String) :
    Alike marked common Eq (text level source) (text level source) := by
  let same (document copy : Document) : Prop :=
    document = copy ∧ document.IsParsed common.delimiters
  refine .bind (?_ : Alike marked common same _ _) ?_
  · intro engine other engines
    rw [on_step, on_step, engines.parse_eq]
    refine ⟨?_, engines⟩
    cases parsed : engine.parse source with
    | error error => exact .error error error
    | ok document =>
        refine .ok ⟨rfl, .inr ⟨source, ?_⟩⟩
        rw [← engines.settings]
        exact parsed
  · rintro document _ ⟨rfl, parsed⟩
    exact levels.whole parsed

theorem host (levels : LevelAlike marked common level) :
    (Evaluation.host level).Alike marked common (Evaluation.host level) where
  expand := levels.text
  render := levels.text
  evaluate := .bind .get fun engine other engines => by
    rw [← engines.document]
    exact levels.whole engines.isParsed

theorem again (levels : LevelAlike marked common level) (convention : Convention)
    (output : String) :
    Alike marked common Eq (again level convention output) (again level convention output) := by
  rw [Evaluation.again]
  split
  · exact levels.text output
  · exact .pure rfl

theorem unknownTag (site : document.SameSite common.delimiters copy index place closer closing)
    (same : tag.SameText tagCopy) :
    Alike marked common Eq (unknownTag document index tag closer)
      (unknownTag copy place tagCopy closing) := by
  refine .bind .get fun engine other engines => ?_
  simp only [engines.settings, engines.sameSettings]
  cases common.unknownTag with
  | abort => exact .throw _ _
  | ignore => exact .pure rfl
  | keep => exact .pure site.written
  | debug =>
      refine .pure ?_
      rw [site.body_eq, same.name, same.param]

theorem bodyText (levels : LevelAlike marked common level)
    (site : document.SameSite common.delimiters copy index place closer closing)
    (parsed : copy.IsParsed common.delimiters) (convention : Convention) :
    Alike marked common Eq (bodyText level document convention index closer)
      (bodyText level copy convention place closing) := by
  cases site with
  | single written => exact .pure rfl
  | pair written forms copied alike paired =>
      simp only [Evaluation.bodyText]
      cases convention.rawBody with
      | true =>
          refine .bind .get fun engine other engines => .pure ?_
          rw [engines.settings, engines.sameSettings, forms.raw_eq_raw copied alike]
      | false =>
          exact .bind (levels forms copied alike parsed) fun text other same =>
            .pure (congrArg some same)

theorem decoded_alike (same : tag.SameText tagCopy) (name : resolved.name = other.name)
    (convention : resolved.binding.convention = other.binding.convention) (param : String)
    (body : Option String) :
    SameSuccess TagCall.Alike (decoded common document tag resolved param body)
      (decoded common copy tagCopy other param body) := by
  unfold decoded
  rw [← convention]
  cases body with
  | none => exact .ok ⟨name, same.name, rfl, rfl, rfl⟩
  | some text =>
      simp only [decodedBody]
      cases Shape.decodeBody common.shapes resolved.binding.convention.bodyShape text with
      | error fault => exact .error _ _
      | ok body => exact .ok ⟨name, same.name, rfl, rfl, rfl⟩

theorem prepare (levels : LevelAlike marked common level)
    (site : document.SameSite common.delimiters copy index place closer closing)
    (parsed : copy.IsParsed common.delimiters) (same : tag.SameText tagCopy)
    (alike : resolved.Alike marked other)
    (convention : resolved.binding.convention = other.binding.convention) :
    Alike marked common TagCall.Alike (prepare level document index tag closer resolved)
      (prepare level copy place tagCopy closing other) := by
  unfold Evaluation.prepare sides
  rw [← convention, ← alike.param, site.isSome_eq]
  refine .bind (levels.bodyText site parsed _) ?_
  rintro body _ rfl
  refine .bind .get fun engine other engines => ?_
  rw [engines.settings, engines.sameSettings]
  exact .settle (decoded_alike same alike.name convention _ _)

theorem check (found : resolved.Alike marked other) (hasBody : Bool) :
    Alike marked common Eq (check document tag resolved hasBody)
      (check copy tagCopy other hasBody) := by
  unfold Evaluation.check
  rw [← found.param, ← found.binding.callViolation_eq]
  cases callViolation resolved.binding.convention resolved.param hasBody with
  | none => exact .pure rfl
  | some violation => exact .bind .get fun _ _ _ => .throw _ _

theorem reserveSlot : Alike marked common Eq reserveSlot reserveSlot := by
  intro engine other engines
  refine ⟨.ok engines.deferred.length_eq, ?_⟩
  exact { engines with deferred := List.rel_append engines.deferred (.cons .none .nil) }

theorem recordCall (same : tag.SameText tagCopy) :
    Alike marked common Eq (EngineT.change (recordCall tag.name))
      (EngineT.change (recordCall tagCopy.name)) :=
  .change fun _ _ engines => same.name ▸ engines.recordCall tag.name

/-- Bindings that are alike are called alike. -/
theorem callResolved (levels : LevelAlike marked common level)
    (site : document.SameSite common.delimiters copy index place closer closing)
    (parsed : copy.IsParsed common.delimiters) (same : tag.SameText tagCopy)
    (found : resolved.Alike marked other)
    (alike : resolved.binding.Alike marked other.binding) :
    Alike marked common Eq (callResolved level document index tag closer resolved)
      (callResolved level copy place tagCopy closing other) := by
  rw [callResolved_eq, callResolved_eq, ← alike.convention, site.isSome_eq]
  refine .bind (check found _) fun _ _ _ => .bind (recordCall same) fun _ _ _ => ?_
  have prepared := levels.prepare site parsed same found alike.convention
  cases resolved.binding.convention.deferred with
  | true =>
      refine .bind reserveSlot ?_
      rintro slot _ rfl
      refine .bind prepared fun call callCopy calls => ?_
      refine .bind (.change fun _ _ engines => engines.fillSlot slot ⟨alike, calls⟩) fun _ _ _ =>
        .pure rfl
  | false =>
      refine .bind prepared fun call callCopy calls => ?_
      refine .bind (alike.runNamed calls levels.host) ?_
      rintro output _ rfl
      exact levels.again _ output

/-- A body that is expanded in its place, and the raw body expanded late. -/
theorem callResolved_late (levels : LevelAlike marked common level)
    (delimiting : common.delimiters.Delimiting)
    (site : document.SameSite common.delimiters copy index place closer closing)
    (parsed : copy.IsParsed common.delimiters) (same : tag.SameText tagCopy)
    (name param : String) :
    Alike marked common Eq
      (Evaluation.callResolved level document index tag closer ⟨.inPlace, name, param⟩)
      (Evaluation.callResolved level copy place tagCopy closing ⟨.late, name, param⟩) := by
  intro engine other engines
  cases site with
  | single written =>
      have refused : callViolation Binding.inPlace.convention param false =
          some .missingBody := rfl
      have refusedToo : callViolation Binding.late.convention param false =
          some .missingBody := rfl
      simp only [callResolved_eq, on_bind, on_check, checked, Option.isSome_none, refused, refusedToo,
        proceed_error]
      exact ⟨.error _ _, engines⟩
  | @pair closer closing inner innerCopy written forms copied alike paired =>
      -- the raw body is a document of its own, whose whole range is like the body in its place
      obtain ⟨body, forest, parsedBody, bodyForms, bodyAlike⟩ :=
        parsed.parse_raw delimiting paired copied
      rw [on_callResolved_inPlace, on_callResolved_late]
      have reread : ∀ after : Engine, after.settings = common →
          (Evaluation.text level (copy.raw other.settings.delimiters (place + 1) closing)).on
            after = (Evaluation.whole level body).on after := by
        intro after settings
        simp only [Evaluation.text, on_bind, on_step, Engine.parse, settings,
          engines.sameSettings, parsedBody, proceed_ok]
      have entered : (Evaluation.recordCall tag.name engine).Alike marked common
          (noted tagCopy name param (copy.raw other.settings.delimiters (place + 1) closing)
            (Evaluation.recordCall tagCopy.name other)) := by
        rw [← same.name]
        exact { engines.recordCall tag.name with }
      have ended := levels forms bodyForms (alike.trans bodyAlike) (.inr ⟨_, parsedBody⟩) _ _ entered
      rw [reread _ entered.sameSettings, Evaluation.whole]
      obtain ⟨results, after⟩ := ended
      generalize (level document (index + 1) closer).on _ = outcome at results after ⊢
      generalize (level body 0 body.size).on _ = outcomeCopy at results after ⊢
      obtain ⟨result, settled⟩ := outcome
      obtain ⟨resultCopy, settledCopy⟩ := outcomeCopy
      cases results with
      | error error other => exact ⟨.error _ _, after⟩
      | ok values => exact ⟨.ok values, { after with }⟩

theorem callTag (levels : LevelAlike marked common level)
    (delimiting : common.delimiters.Delimiting)
    (site : document.SameSite common.delimiters copy index place closer closing)
    (parsed : copy.IsParsed common.delimiters) (same : tag.SameText tagCopy) :
    Alike marked common Eq (callTag level document index tag closer)
      (callTag level copy place tagCopy closing) := by
  have looked : Alike marked common (Option.Rel (Resolved.Alike marked))
      (EngineT.step fun engine => engine.resolve tag.name tag.param)
      (EngineT.step fun engine => engine.resolve tagCopy.name tagCopy.param) := by
    rw [same.name, same.param]
    exact fun _ _ engines => engines.resolve _ _
  refine .bind looked ?_
  intro found foundCopy resolved
  cases resolved with
  | none => exact unknownTag site same
  | @some resolved other alike =>
      obtain ⟨binding, name, param⟩ := resolved
      obtain ⟨copied, nameToo, paramToo⟩ := other
      have counterpart := alike.binding
      cases (alike.name : name = nameToo)
      cases (alike.param : param = paramToo)
      cases (counterpart : binding.Counterpart marked _ copied) with
      | alike bindings => exact levels.callResolved site parsed same alike bindings
      | late found => exact levels.callResolved_late delimiting site parsed same name param

theorem items_cons {first firstCopy : Item} {rest restCopy : List Item}
    (head : Alike marked common Eq (item level document first) (item level copy firstCopy))
    (tail : Alike marked common Eq (items level document rest) (items level copy restCopy)) :
    Alike marked common Eq (items level document (first :: rest))
      (items level copy (firstCopy :: restCopy)) := by
  refine .bind head ?_
  rintro text _ rfl
  refine .bind tail ?_
  rintro behind _ rfl
  exact .pure rfl

theorem items (levels : LevelAlike marked common level)
    (delimiting : common.delimiters.Delimiting) {start stop first last : Nat}
    {forest forestCopy : Forest} (forms : document.Forms start stop forest)
    (copied : copy.Forms first last forestCopy) (alike : forest.Alike forestCopy)
    (parsed : copy.IsParsed common.delimiters) :
    Alike marked common Eq (items level document forest.items)
      (items level copy forestCopy.items) := by
  -- the forests decide what is evaluated; their places in the two documents are unrelated
  induction alike generalizing start first with
  | nil => exact .pure rfl
  | text s behind ih =>
      cases forms with
      | text found forms =>
          cases copied with
          | text foundCopy copied => exact items_cons (.pure rfl) (ih forms copied)
  | @dangling tag tagCopy rest other same behind ih =>
      cases forms with
      | dangling found unnamed role forms =>
          cases copied with
          | dangling foundCopy unnamedCopy roleCopy copied =>
              refine items_cons (.bind .get fun engine other engines => ?_) (ih forms copied)
              simp only [engines.settings, engines.sameSettings, same.name, same.param]
              cases common.danglingEnd with
              | keep | drop => exact .pure rfl
  | @single index place tag tagCopy rest other same behind ih =>
      cases forms with
      | single found named role forms =>
          cases copied with
          | single foundCopy namedCopy roleCopy copied =>
              have written := Document.Forms.raw_eq_raw (.single found named role (.nil _))
                (.single foundCopy namedCopy roleCopy (.nil _)) (.single same .nil)
                common.delimiters
              exact items_cons (levels.callTag delimiting (.single written) parsed same)
                (ih forms copied)
  | @pair index place closer closing tag tagCopy closeTag closeCopy inner innerCopy rest other same
      inside closeSame behind _ ih =>
      cases forms with
      | pair found named role within closeFound unnamed forms =>
          cases copied with
          | pair foundCopy namedCopy roleCopy withinCopy closeFoundCopy unnamedCopy copied =>
              have written := Document.Forms.raw_eq_raw
                (.pair found named role within closeFound unnamed (.nil _))
                (.pair foundCopy namedCopy roleCopy withinCopy closeFoundCopy unnamedCopy (.nil _))
                (.pair same inside closeSame .nil) common.delimiters
              exact items_cons (levels.callTag delimiting
                (.pair written within withinCopy inside roleCopy) parsed same) (ih forms copied)

end LevelAlike

theorem levelAlike_range (delimiting : common.delimiters.Delimiting) (levels : Nat) :
    LevelAlike marked common (range levels) := by
  induction levels with
  | zero =>
      intro document copy start stop first last forest other forms copied alike parsed
      exact .bind .get fun _ _ _ => .throw _ _
  | succ levels ih =>
      intro document copy start stop first last forest _ forms copied alike parsed engine other
        engines
      simp only [range, on_between, forms.outline_eq, copied.outline_eq]
      have ended := ih.items delimiting forms copied alike parsed _ _ engines.enter
      exact ⟨ended.result, ended.engine.leave⟩

theorem LevelAlike.replayOne {level : Level} (levels : LevelAlike marked common level)
    {entry copy : DeferredCall} (entries : entry.Alike marked copy) (output : String) :
    Alike marked common Eq (replayOne level output entry) (replayOne level output copy) := by
  have calls : TagCall.Alike { entry.call with document := some output }
      { copy.call with document := some output } := { entries.call with document := rfl }
  have called := entries.binding.runNamed calls levels.host
  refine .bind called ?_
  rintro text _ rfl
  rw [entries.binding.convention]
  exact levels.again _ text

theorem LevelAlike.foldlM_replayOne {level : Level} (levels : LevelAlike marked common level)
    {entries copies : List DeferredCall}
    (alike : List.Forall₂ (DeferredCall.Alike marked) entries copies) (output : String) :
    Alike marked common Eq (entries.foldlM (Evaluation.replayOne level) output)
      (copies.foldlM (Evaluation.replayOne level) output) := by
  induction alike generalizing output with
  | nil => exact .pure rfl
  | cons here behind ih =>
      rw [List.foldlM_cons, List.foldlM_cons]
      refine .bind (levels.replayOne here output) ?_
      rintro text _ rfl
      exact ih text

end Evaluation

namespace Expansion

open Evaluation (Ends LevelAlike)

variable {engine other : Engine}

theorem replay_alike_of_empty {level : Evaluation.Level} (batches : Nat) (output : String)
    (engines : engine.Alike marked common other) (none : engine.deferred.entries = [])
    (noneOther : other.deferred.entries = []) :
    Option.Rel (Ends marked common Eq) ((replay level batches output).run engine)
      ((replay level batches output).run other) := by
  rw [run_replay_of_empty none, run_replay_of_empty noneOther]
  exact .some ⟨.ok rfl, { engines with deferred := .nil }⟩

theorem replay_alike {level : Evaluation.Level} (levels : LevelAlike marked common level)
    (batches : Nat) (output : String) (engines : engine.Alike marked common other) :
    Option.Rel (Ends marked common Eq) ((replay level batches output).run engine)
      ((replay level batches output).run other) := by
  induction batches generalizing output engine other with
  | zero =>
      have empty := DeferredQueue.entries_eq_nil_iff engines.deferred
      by_cases none : engine.deferred.entries = []
      · exact replay_alike_of_empty 0 output engines none (empty.mp none)
      · rw [run_replay_zero none, run_replay_zero (mt empty.mpr none)]
        exact .none
  | succ batches ih =>
      -- the calls that a batch defers are alike again
      have empty := DeferredQueue.entries_eq_nil_iff engines.deferred
      by_cases none : engine.deferred.entries = []
      · exact replay_alike_of_empty (batches + 1) output engines none (empty.mp none)
      · rw [run_replay_succ none, run_replay_succ (mt empty.mpr none)]
        have drained : (Evaluation.drained engine).Alike marked common
            (Evaluation.drained other) := { engines with deferred := .nil }
        obtain ⟨results, after⟩ := levels.foldlM_replayOne
          (DeferredQueue.entries_alike engines.deferred) output _ _ drained
        generalize Evaluation.on (engine.deferred.entries.foldlM _ output) _ = outcome
          at results after ⊢
        generalize Evaluation.on (other.deferred.entries.foldlM _ output) _ = outcomeOther
          at results after ⊢
        obtain ⟨result, settled⟩ := outcome
        obtain ⟨resultOther, settledOther⟩ := outcomeOther
        cases results with
        | error error other => exact .some ⟨.error _ _, after⟩
        | @ok text _ same =>
            cases same
            exact ih text after

theorem document_alike (delimiting : common.delimiters.Delimiting) (batches : Nat)
    {document : Document} (parsed : document.IsParsed common.delimiters)
    (engines : engine.Alike marked common other) :
    Option.Rel (Ends marked common Eq) ((Expansion.document batches document).run engine)
      ((Expansion.document batches document).run other) := by
  have levels : LevelAlike marked common (Evaluation.range common.maxDepth) :=
    Evaluation.levelAlike_range delimiting common.maxDepth
  have begun : (begin engine).Alike marked common (begin other) :=
    { engines with callStack := rfl, deferred := .nil }
  rw [run_document, run_document, engines.settings, engines.sameSettings]
  obtain ⟨results, after⟩ := levels.whole parsed _ _ begun
  generalize (Evaluation.whole _ document).on (begin engine) = outcome at results after ⊢
  generalize (Evaluation.whole _ document).on (begin other) = outcomeOther at results after ⊢
  obtain ⟨result, settled⟩ := outcome
  obtain ⟨resultOther, settledOther⟩ := outcomeOther
  cases results with
  | error error other => exact .some ⟨.error _ _, { after with deferred := .nil }⟩
  | @ok output _ same =>
      cases same
      have replayed := replay_alike levels batches output after
      simp only [proceed]
      generalize (replay _ batches output).run settled = ended at replayed ⊢
      generalize (replay _ batches output).run settledOther = endedOther at replayed ⊢
      cases replayed with
      | none => exact .none
      | some ends => exact .some ⟨ends.result, { ends.engine with deferred := .nil }⟩

theorem answer_alike (delimiting : common.delimiters.Delimiting) (batches : Nat)
    (request : Request) (engines : engine.Alike marked common other)
    (idle : engine.evaluating = false) (idleOther : other.evaluating = false) :
    Option.Rel (Ends marked common Eq) (((host batches).answer request).run engine)
      (((host batches).answer request).run other) := by
  rw [run_answer batches request idle, run_answer batches request idleOther]
  have isParsed : ∀ {source document}, engine.parse source = .ok document →
      document.IsParsed common.delimiters := by
    intro source document parsed
    rw [← engines.settings]
    exact .inr ⟨source, parsed⟩
  cases request with
  | evaluate =>
      simp only [Request.target, ← engines.document]
      exact document_alike delimiting batches engines.isParsed engines
  | expand source =>
      simp only [Request.target, engines.parse_eq]
      cases parsed : engine.parse source with
      | error error => exact .some ⟨.error _ _, engines⟩
      | ok document => exact document_alike delimiting batches (isParsed parsed) engines
  | render source =>
      simp only [Request.target, engines.parse_eq]
      cases parsed : engine.parse source with
      | error error => exact .some ⟨.error _ _, engines⟩
      | ok document =>
          exact document_alike delimiting batches (isParsed parsed)
            { engines with document := rfl, parsed := .inr ⟨source, parsed⟩ }

end Expansion

namespace Engine

variable {engine : Engine}

/-- An engine in which a name has this binding, whatever it was bound to before. -/
def rebind (name : String) (binding : Binding) (engine : Engine) : Engine :=
  (((Action.unregister name).perform engine).2.register name binding).2

/-- With the two bindings of the marked tag an engine is like itself, if its other handlers are
blind. -/
theorem rebind_alike (atRest : engine.AtRest) (still : engine.registry.autoload = none)
    (blind : ∀ entry ∈ engine.registry.bindings.table, entry.1 ≠ marked →
      entry.2.handler.Blind marked) :
    (engine.rebind marked .inPlace).Alike marked engine.settings
      (engine.rebind marked .late) := by
  have others : Keyed.Alike (fun name => Binding.Counterpart marked (name = marked))
      (Keyed.erase marked engine.registry.bindings.table)
      (Keyed.erase marked engine.registry.bindings.table) := by
    refine List.forall₂_same.mpr fun entry member => ?_
    obtain ⟨listed, different⟩ := List.mem_filter.mp member
    exact ⟨rfl, .alike ⟨rfl, blind entry listed (of_decide_eq_true different)⟩⟩
  have unbound : ((Action.unregister marked).perform engine).2.Alike marked engine.settings
      ((Action.unregister marked).perform engine).2 :=
    { settings := rfl
      sameSettings := rfl
      bindings := ⟨rfl, others⟩
      still := still
      sameStill := still
      callStack := rfl
      vars := rfl
      document := rfl
      parsed := atRest.parsed
      deferred := atRest.idle.deferred ▸ .nil }
  exact (unbound.register (.late rfl)).2

/-- Expanding a body late is the same as expanding it in its place: bind a tag in either way in
an engine without autoload whose other handlers are blind to the positions of tags, to the
errors of expansions and to the convention of this tag.  Then a request from outside succeeds
with the one binding exactly if it does so with the other, with the same output and the same
variables. -/
theorem expand_late_eq_in_place {name : String} (reachable : engine.Reachable)
    (still : engine.registry.autoload = none)
    (blind : ∀ entry ∈ engine.registry.bindings.table, entry.1 ≠ name →
      entry.2.handler.Blind name) (batches : Nat) (request : Request) :
    let inPlace := ((Expansion.host batches).answer request).run (engine.rebind name .inPlace)
    let late := ((Expansion.host batches).answer request).run (engine.rebind name .late)
    inPlace.isSome = late.isSome ∧ ∀ text vars,
      (∃ after, inPlace = some (.ok text, after) ∧ after.vars = vars) ↔
        ∃ after, late = some (.ok text, after) ∧ after.vars = vars := by
  have atRest := reachable.atRest
  have ends := Expansion.answer_alike (Settings.delimiting_of_validate atRest.valid) batches
    request (rebind_alike atRest still blind) atRest.idle.evaluating atRest.idle.evaluating
  intro inPlace late
  change Option.Rel _ inPlace late at ends
  generalize inPlace = outcome at ends ⊢
  generalize late = outcomeToo at ends ⊢
  cases ends with
  | none => exact ⟨rfl, by simp⟩
  | @some first second ends =>
      obtain ⟨results, after⟩ := ends
      obtain ⟨result, settled⟩ := first
      obtain ⟨resultToo, settledToo⟩ := second
      refine ⟨rfl, fun text vars => ?_⟩
      cases results with
      | error error other =>
          constructor <;>
          · rintro ⟨_, same, _⟩
            cases same
      | ok same =>
          cases same
          have vars : settled.vars = settledToo.vars := after.vars
          simp [vars]

end Engine

/-- A registry with a tag that clears the variables, a deferred one, and one that expands its
raw body whatever comes of it. -/
def Registry.mixed : Registry :=
  ⟨⟨":", [("c", ⟨fun _ => .act .clearVariables fun _ => .done "", .default, false⟩),
    ("p", ⟨fun call => .done (call.document.getD "" ++ "<" ++ call.param.asText ++ ">"),
      { deferred := true }, false⟩),
    ("w", ⟨fun call => .expand call.body.asText fun
      | .ok text => .done text
      | .error _ => .done "!", { rawBody := true }, false⟩)]⟩, none⟩

theorem Registry.blind_mixed {entry : String × Binding} (member : entry ∈ mixed.bindings.table) :
    entry.2.handler.Blind "t" := by
  simp only [mixed, List.mem_cons, List.not_mem_nil, or_false] at member
  rcases member with rfl | rfl | rfl
  · exact Handler.blind_of_offset (fun _ _ => rfl) fun _ => .act fun _ _ _ => .done ""
  · exact Handler.blind_of_offset (fun _ _ => rfl) fun _ => .done _
  · refine Handler.blind_of_offset (fun _ _ => rfl) fun _ => .expand ?_
    intro answer other same
    cases same with
    | ok values => exact values ▸ .done _
    | error error other => exact .done "!"

/-- The tags of `Registry.mixed` in the body of a further tag `t`, which also lies without a
body in that of `w`. -/
def Document.mixed : Document :=
  ⟨"\x7bt:\x7d\x7bc:\x7d\x7bp:1\x7d\x7bw:\x7d\x7bt:\x7d\x7b:w\x7d\x7b:t\x7d",
    #[.literal "", .tag ⟨"t", "", 0, 4⟩, .literal "", .tag ⟨"c", "", 4, 8⟩, .literal "",
      .tag ⟨"p", "1", 8, 13⟩, .literal "", .tag ⟨"w", "", 13, 17⟩, .literal "",
      .tag ⟨"t", "", 17, 21⟩, .literal "", .tag ⟨"", "w", 21, 25⟩, .literal "",
      .tag ⟨"", "t", 25, 29⟩, .literal ""],
    #[none, some (.closedAt 13), none, some .selfClosed, none, some .selfClosed, none,
      some (.closedAt 11), none, some .selfClosed, none, some (.closes 7), none,
      some (.closes 1), none]⟩

def Engine.mixed : Engine :=
  { shallow .mixed with vars := ⟨[("x", .null)]⟩, document := .mixed }

theorem Engine.reachable_mixed : mixed.Reachable := by
  have parsed : Document.parse .default Document.mixed.source = .ok .mixed := by decide +kernel
  have stored : Reachable { shallow .mixed with vars := ⟨[("x", .null)]⟩ } :=
    .stored (reachable_shallow _) _
  have loaded : ((Action.load Document.mixed.source).perform
      { shallow .mixed with vars := ⟨[("x", .null)]⟩ }).2 = mixed := by
    simp only [Action.perform, load, parse, shallow, parsed]
    rfl
  exact loaded ▸ .acted stored _

theorem Engine.expand_late_eq_in_place_mixed :
    mixed.Reachable ∧ mixed.registry.autoload = none ∧
    (∀ entry ∈ mixed.registry.bindings.table, entry.1 ≠ "t" → entry.2.handler.Blind "t") ∧
    ∃ inPlace late,
      ((Expansion.host 1).answer .evaluate).run (mixed.rebind "t" .inPlace) =
        some (.ok "!<1>", inPlace) ∧
      ((Expansion.host 1).answer .evaluate).run (mixed.rebind "t" .late) =
        some (.ok "!<1>", late) ∧
      inPlace.vars = .empty ∧ late.vars = .empty := by
  have blind : ∀ entry ∈ mixed.registry.bindings.table, entry.1 ≠ "t" →
      entry.2.handler.Blind "t" := fun entry member _ => Registry.blind_mixed member
  have observed :
      (((Expansion.host 1).answer .evaluate).run (mixed.rebind "t" .inPlace)).map
        (fun outcome => (outcome.1, outcome.2.vars.isEmpty)) = some (.ok "!<1>", true) := by
    decide +kernel
  obtain ⟨⟨result, inPlace⟩, ran, same⟩ := Option.map_eq_some_iff.mp observed
  obtain ⟨rfl, cleared⟩ := Prod.mk.inj same
  have vars : inPlace.vars = .empty := by
    cases stored : inPlace.vars
    simpa [stored, Variables.isEmpty, Variables.empty] using cleared
  obtain ⟨_, succeeds⟩ := expand_late_eq_in_place reachable_mixed rfl blind 1 .evaluate
  obtain ⟨late, ranLate, varsLate⟩ := (succeeds _ _).mp ⟨inPlace, ran, vars⟩
  exact ⟨reachable_mixed, rfl, blind, inPlace, late, ran, ranLate, vars, varsLate⟩

end TagTemplate
