import TagTemplate.Proofs.Evaluation.Effect
import TagTemplate.Proofs.Lexing.TagMatch

/-!
Levels, frames and the depth of an engine go together.

Whatever a handler does and however it ends, a nested expansion leaves the scope of the
engine as it was, every handler is called with as many frames as levels are open, and an
expansion from outside leaves the engine idle.
-/

namespace TagTemplate

/-- A handler is called with as many frames as levels are open, within the limit. -/
def Event.Balanced (limit : Nat) : Event → Prop
  | .called _ _ depth frames => depth = frames ∧ depth ≤ limit
  | _ => True

namespace Settings

variable {settings : Settings}

theorem maxDepth_pos_of_validate (valid : settings.validate = .ok ()) : 0 < settings.maxDepth := by
  unfold validate at valid
  split at valid
  · cases valid
  · omega

theorem delimiting_of_validate (valid : settings.validate = .ok ()) :
    settings.delimiters.Delimiting := by
  unfold validate at valid
  split at valid
  · cases valid
  · cases checked : settings.delimiters.validate with
    | error error =>
        rw [checked] at valid
        cases valid
    | ok accepted => exact .of_validate checked

end Settings

namespace Engine

open Evaluation (enter leave range)

/-- What a nested expansion leaves as it was. -/
structure SameScope (before after : Engine) : Prop where
  depth : after.depth = before.depth
  evaluating : after.evaluating = before.evaluating
  frames : after.callStack.depth = before.callStack.depth
  names : after.callStack.names = before.callStack.names

/-- The calls that one engine has noted since another were balanced. -/
def BalancedSince (before after : Engine) : Prop :=
  ∃ events : List Event, after.journal = before.journal ++ events.toArray ∧
    ∀ event ∈ events, event.Balanced before.settings.maxDepth

/-- `levels` levels may be opened, and every open level has a frame. -/
structure Balanced (levels : Nat) (engine : Engine) : Prop where
  levels : engine.depth + levels = engine.settings.maxDepth
  frames : engine.callStack.depth = engine.depth

/-- Nothing is being expanded. -/
structure Idle (engine : Engine) : Prop where
  depth : engine.depth = 0
  evaluating : engine.evaluating = false
  callStack : engine.callStack = .empty
  deferred : engine.deferred = .empty

variable {inside : Bool} {levels : Nat} {engine middle after : Engine}
  {top : List String} {below : List (List String)}

namespace Effect

theorem scope_eq (effect : Effect inside levels engine after) :
    after.settings = engine.settings ∧ after.depth = engine.depth ∧
      after.evaluating = engine.evaluating := by
  induction effect with
  | trans first second ihFirst ihSecond =>
      obtain ⟨settings, depth, evaluating⟩ := ihSecond
      exact ⟨settings.trans ihFirst.1, depth.trans ihFirst.2.1, evaluating.trans ihFirst.2.2⟩
  | level inner ih =>
      obtain ⟨settings, depth, evaluating⟩ := ih
      refine ⟨settings, ?_, evaluating⟩
      simp only [leave, depth, enter]
      omega
  | @act _ _ engine action =>
      have acted := acted action engine
      exact ⟨acted.settings, acted.depth, acted.evaluating⟩
  | _ => exact ⟨rfl, rfl, rfl⟩

/-- Below the newest frame no name is recorded and none is lost. -/
theorem names_below (effect : Effect inside levels engine after)
    (opened : engine.callStack.names = top :: below) :
    ∃ changed, after.callStack.names = changed :: below := by
  induction effect generalizing top below with
  | trans first second ihFirst ihSecond =>
      obtain ⟨changed, found⟩ := ihFirst opened
      exact ihSecond found
  | @level _ _ engine after inner ih =>
      have entered : (enter engine).callStack.names = [] :: top :: below := by
        simp [enter, opened]
      obtain ⟨changed, found⟩ := ih entered
      exact ⟨top, by simp [leave, found]⟩
  | act action => exact ⟨top, by rw [(acted action _).names, opened]⟩
  | recorded name => exact ⟨_, CallStack.names_record name opened⟩
  | _ => exact ⟨top, opened⟩

/-- Outside a level no name is recorded at all. -/
theorem names_eq (effect : Effect false levels engine after) :
    after.callStack.names = engine.callStack.names := by
  generalize outside : false = inside at effect
  induction effect with
  | trans first second ihFirst ihSecond => rw [ihSecond outside, ihFirst outside]
  | @level _ _ engine after inner ih =>
      have entered : (enter engine).callStack.names = [] :: engine.callStack.names := rfl
      obtain ⟨changed, found⟩ := inner.names_below entered
      simp [leave, found]
  | act action => exact (acted action _).names
  | recorded name => cases outside
  | _ => rfl

theorem frames_eq (effect : Effect inside levels engine after)
    (opened : inside = true → 0 < engine.callStack.depth) :
    after.callStack.depth = engine.callStack.depth := by
  rw [← CallStack.length_names, ← CallStack.length_names]
  cases inside with
  | false => rw [effect.names_eq]
  | true =>
      cases found : engine.callStack.names with
      | nil =>
          have positive := opened rfl
          rw [← CallStack.length_names, found] at positive
          contradiction
      | cons top below =>
          obtain ⟨changed, after⟩ := effect.names_below found
          rw [after]
          rfl

theorem sameScope (effect : Effect false levels engine after) : SameScope engine after where
  depth := effect.scope_eq.2.1
  evaluating := effect.scope_eq.2.2
  frames := effect.frames_eq (by simp)
  names := effect.names_eq

end Effect

theorem BalancedSince.refl (engine : Engine) : BalancedSince engine engine :=
  ⟨[], by simp⟩

theorem BalancedSince.trans (first : BalancedSince engine middle)
    (second : BalancedSince middle after) (settings : middle.settings = engine.settings) :
    BalancedSince engine after := by
  obtain ⟨earlier, reached, balancedEarlier⟩ := first
  obtain ⟨later, ended, balancedLater⟩ := second
  refine ⟨earlier ++ later, by simp [ended, reached], ?_⟩
  intro event member
  rcases List.mem_append.mp member with early | late
  · exact balancedEarlier event early
  · exact settings ▸ balancedLater event late

namespace Balanced

/-- What an effect preserves, with a level open wherever calls are recorded. -/
theorem effect (balanced : Balanced levels engine) (opened : inside = true → 0 < engine.depth)
    (effect : Effect inside levels engine after) : Balanced levels after := by
  obtain ⟨settings, depth, _⟩ := effect.scope_eq
  refine ⟨by rw [depth, settings, balanced.levels], ?_⟩
  rw [effect.frames_eq (fun within => balanced.frames ▸ opened within), depth, balanced.frames]

theorem enter (balanced : Balanced (levels + 1) engine) : Balanced levels (enter engine) where
  levels := by
    have counted := balanced.levels
    simp only [Evaluation.enter]
    omega
  frames := by simp [Evaluation.enter, CallStack.depth, CallStack.push, ← balanced.frames]

theorem since (balanced : Balanced levels engine) (opened : inside = true → 0 < engine.depth)
    (effect : Effect inside levels engine after) : BalancedSince engine after := by
  induction effect with
  | refl engine => exact .refl engine
  | trans first second ihFirst ihSecond =>
      have settled := balanced.effect opened first
      obtain ⟨settings, depth, _⟩ := first.scope_eq
      exact (ihFirst balanced opened).trans (ihSecond settled (by rwa [depth])) settings
  | @act _ _ engine action =>
      obtain ⟨lookups, noted⟩ := (acted action engine).journal
      refine ⟨_, noted, ?_⟩
      intro event member
      obtain ⟨lookup, _, rfl⟩ := List.mem_map.mp member
      trivial
  | called call builtIn =>
      refine ⟨_, rfl, ?_⟩
      intro event member
      cases List.mem_singleton.mp member
      exact ⟨balanced.frames.symm, balanced.levels ▸ Nat.le_add_right _ _⟩
  | level inner ih => exact ih balanced.enter fun _ => Nat.succ_pos _
  | registry | queue | recorded => exact ⟨[], by simp⟩

end Balanced

/-- The loaded document was parsed by the engine, or nothing has been loaded yet. -/
def Parsed (engine : Engine) : Prop :=
  engine.document = .empty ∨ ∃ source, engine.parse source = .ok engine.document

theorem Parsed.effect (parsed : engine.Parsed) (effect : Effect inside levels engine after) :
    after.Parsed := by
  induction effect with
  | trans first second ihFirst ihSecond => exact ihSecond (ihFirst parsed)
  | @act _ _ engine action =>
      have acted := acted action engine
      rcases acted.document with same | ⟨source, loaded⟩
      · simp only [Parsed, parse, same, acted.settings]
        exact parsed
      · refine .inr ⟨source, ?_⟩
        rw [parse, acted.settings]
        exact loaded
  | level inner ih => exact ih parsed
  | _ => exact parsed

end Engine

/-- A request to expand something. -/
inductive Request where
  | evaluate
  | expand (source : String)
  | render (source : String)

/-- How a host carries a request out. -/
def Host.answer {m : Type → Type} (host : Host m) : Request → EngineT m String
  | .evaluate => host.evaluate
  | .expand source => host.expand source
  | .render source => host.render source

/-- The document that a request from outside expands, and the engine it is expanded on. -/
def Request.target (engine : Engine) : Request → Except TemplateError (Document × Engine)
  | .evaluate => .ok (engine.document, engine)
  | .expand source => (engine.parse source).map fun document => (document, engine)
  | .render source =>
    (engine.parse source).map fun document => (document, { engine with document })

namespace Expansion

open Engine (Effect)

variable {engine after : Engine} {result : Except TemplateError String}

theorem run_answer (batches : Nat) (request : Request) (idle : engine.evaluating = false) :
    ((host batches).answer request).run engine =
      match request.target engine with
      | .ok (document, engine) => (Expansion.document batches document).run engine
      | .error error => some (.error error, engine) := by
  cases request with
  | evaluate =>
      simp only [Host.answer, host, evaluate, run_joining idle, run_bind, run_get,
        Option.bind_some, proceed, Request.target]
  | expand source =>
      simp only [Host.answer, host, expand, run_joining idle, run_bind, run_step,
        Option.bind_some, Request.target]
      cases engine.parse source <;> rfl
  | render source =>
      simp only [Host.answer, host, render, run_joining idle, run_bind, run_step,
        Option.bind_some, Request.target, Engine.load]
      cases engine.parse source with
      | error error => rfl
      | ok document =>
          have loaded : ({ engine with document } : Engine).evaluating = false := idle
          simp only [proceed, evaluate, run_joining loaded, run_bind, run_get, Option.bind_some,
            Except.map]

end Expansion

namespace Engine

/-- What holds of an engine between two requests from outside. -/
structure AtRest (engine : Engine) : Prop where
  idle : engine.Idle
  valid : engine.settings.validate = .ok ()
  parsed : engine.Parsed

/-- The engines that requests from outside lead to. -/
inductive Reachable : Engine → Prop where
  | created {settings engine} (created : Engine.create settings = .ok engine) :
      Reachable engine
  | acted {engine} (reachable : Reachable engine) (action : Action) :
      Reachable (action.perform engine).2
  | read {engine} (reachable : Reachable engine) (bytes : ByteArray) :
      Reachable (engine.loadBytes bytes).2
  | registered {engine} (reachable : Reachable engine) (registry : Registry) :
      Reachable { engine with registry }
  | stored {engine} (reachable : Reachable engine) (vars : Variables) :
      Reachable { engine with vars }
  | expanded {engine after result} (reachable : Reachable engine) (batches : Nat)
      (request : Request)
      (ran : ((Expansion.host batches).answer request).run engine = some (result, after)) :
      Reachable after
  | called {engine after result} (reachable : Reachable engine) (batches : Nat)
      (binding : Binding) (call : TagCall)
      (ran : (Expansion.call batches binding call).run engine = some (result, after)) :
      Reachable after

variable {engine after : Engine} {levels : Nat}

theorem balanced_begin (engine : Engine) :
    Balanced engine.settings.maxDepth (Expansion.begin engine) :=
  ⟨Nat.zero_add _, rfl⟩

theorem idle_finish {final : Engine}
    (effect : Effect false levels (Expansion.begin engine) final) :
    (Expansion.finish final).Idle where
  depth := effect.scope_eq.2.1
  evaluating := rfl
  callStack := by
    have frames : final.callStack.depth = 0 := effect.sameScope.frames
    have none : final.callStack.frames = [] := List.length_eq_zero_iff.mp frames
    simp [Expansion.finish, CallStack.empty, ← none]
  deferred := rfl

namespace AtRest

theorem create {settings : Settings} (created : Engine.create settings = .ok engine) :
    engine.AtRest := by
  rw [Engine.create] at created
  cases valid : settings.validate with
  | error error =>
      rw [valid] at created
      cases created
  | ok _ =>
      rw [valid] at created
      cases created
      exact ⟨⟨rfl, rfl, rfl, rfl⟩, valid, .inl rfl⟩

theorem update (atRest : engine.AtRest) (registry : Registry) (vars : Variables)
    (journal : Array Event) : AtRest { engine with registry, vars, journal } :=
  ⟨⟨atRest.idle.depth, atRest.idle.evaluating, atRest.idle.callStack, atRest.idle.deferred⟩,
    atRest.valid, atRest.parsed⟩

theorem perform (atRest : engine.AtRest) (action : Action) :
    (action.perform engine).2.AtRest := by
  have acted := acted action engine
  obtain ⟨⟨depth, evaluating, callStack, deferred⟩, valid, parsed⟩ := atRest
  refine ⟨⟨acted.depth.trans depth, acted.evaluating.trans evaluating, ?_,
    acted.deferred.trans deferred⟩, acted.settings ▸ valid, ?_⟩
  · have names := acted.names
    rw [callStack] at names
    have none : (action.perform engine).2.callStack.frames = [] := List.map_eq_nil_iff.mp names
    simp [CallStack.empty, ← none]
  · have effect : Effect false 0 engine (action.perform engine).2 := .act action
    exact parsed.effect effect

theorem finish {final : Engine} (atRest : engine.AtRest)
    (effect : Effect false levels (Expansion.begin engine) final) :
    (Expansion.finish final).AtRest where
  idle := idle_finish effect
  valid := effect.scope_eq.1 ▸ atRest.valid
  parsed := by
    have begun : (Expansion.begin engine).Parsed := atRest.parsed
    have reached : final.Parsed := begun.effect effect
    exact reached

/-- What a request from outside expands is expanded on an engine at rest, which has noted
no call yet. -/
theorem target {request : Request} {document : Document} (atRest : engine.AtRest)
    (found : request.target engine = .ok (document, after)) :
    after.AtRest ∧ after.settings = engine.settings ∧ after.journal = engine.journal := by
  cases request with
  | evaluate =>
      cases found
      exact ⟨atRest, rfl, rfl⟩
  | expand source =>
      simp only [Request.target] at found
      cases parsed : engine.parse source with
      | error error => simp [parsed, Except.map] at found
      | ok document =>
          rw [parsed] at found
          cases found
          exact ⟨atRest, rfl, rfl⟩
  | render source =>
      simp only [Request.target] at found
      cases parsed : engine.parse source with
      | error error => simp [parsed, Except.map] at found
      | ok document =>
          rw [parsed] at found
          cases found
          exact ⟨⟨⟨atRest.idle.depth, atRest.idle.evaluating, atRest.idle.callStack,
            atRest.idle.deferred⟩, atRest.valid, .inr ⟨source, parsed⟩⟩, rfl, rfl⟩

/-- However a request from outside ends, it leaves the engine at rest. -/
theorem answer {batches : Nat} {request : Request} {result : Except TemplateError String}
    (atRest : engine.AtRest)
    (ran : ((Expansion.host batches).answer request).run engine = some (result, after)) :
    after.AtRest ∧ engine.BalancedSince after := by
  rw [Expansion.run_answer batches request atRest.idle.evaluating] at ran
  cases found : request.target engine with
  | error error =>
      rw [found] at ran
      cases ran
      exact ⟨atRest, .refl engine⟩
  | ok target =>
      obtain ⟨document, opened⟩ := target
      rw [found] at ran
      obtain ⟨settled, settings, journal⟩ := atRest.target found
      obtain ⟨final, effect, rfl⟩ := Expansion.effect_of_run ran
      have since := opened.balanced_begin.since (by simp) effect
      refine ⟨settled.finish effect, ?_⟩
      rw [BalancedSince, ← journal, ← settings]
      exact since

end AtRest

/-- What is at rest stays at rest. -/
def KeepsRest (before after : Engine) : Prop :=
  before.AtRest → after.AtRest

instance : Program.Follows KeepsRest where
  refl _ := id
  trans _ _ _ first second := second ∘ first
  act action _ atRest := atRest.perform action
  registry registry engine atRest := atRest.update registry engine.vars engine.journal

theorem call_along (batches : Nat) (binding : Binding) (call : TagCall) :
    (Expansion.call batches binding call).Along KeepsRest := by
  have answered : ∀ request, ((Expansion.host batches).answer request).Along KeepsRest :=
    fun request engine after result ran atRest => (atRest.answer ran).1
  refine .bind (.change fun engine atRest => atRest.update _ _ _) fun _ => ?_
  exact Program.run_along (fun source => answered (.expand source))
    (fun source => answered (.render source)) (answered .evaluate) _

theorem Reachable.atRest (reachable : engine.Reachable) : engine.AtRest := by
  induction reachable with
  | created created => exact .create created
  | acted reachable action ih => exact ih.perform action
  | @read engine reachable bytes ih =>
      simp only [loadBytes]
      split
      · rename_i source decoded
        exact ih.perform (.load source)
      · exact ih
  | registered reachable registry ih => exact ih.update registry _ _
  | stored reachable vars ih => exact ih.update _ vars _
  | expanded reachable batches request ran ih => exact (ih.answer ran).1
  | called reachable batches binding call ran ih =>
      exact call_along batches binding call _ _ _ ran ih

end Engine

namespace Evaluation

open Engine (Effect)

variable {levels : Nat}

/-- The first batches of a replay, whether or not deferred calls are left behind them. -/
def replayed (level : Level) : Nat → String → Evaluation String
  | 0, output => return output
  | batches + 1, output => do
    let entries ← drain
    replayed level batches (← entries.foldlM (replayOne level) output)

/-- The main pass over a document and the first batches of its deferred calls. -/
def underway (level : Level) (batches : Nat) (document : Document) : Evaluation String := do
  replayed level batches (← whole level document)

theorem replayed_along (levels batches : Nat) (output : String) :
    (replayed (range levels) batches output).Along (Effect false levels) := by
  have effect := hasEffect_range levels
  induction batches generalizing output with
  | zero => exact .pure output
  | succ batches ih =>
      exact .bind (.step fun engine => .queue _) fun entries =>
        .bind (.foldlM (fun entry _ output => effect.replayOne output entry) output) ih

theorem underway_along (levels batches : Nat) (document : Document) :
    (underway (range levels) batches document).Along (Effect false levels) :=
  .bind ((hasEffect_range levels).whole document) fun output => replayed_along levels batches output

section

variable (holds : Engine → Prop) {level : Level}
  (batch : ∀ {engine} (output : String), holds engine →
    holds ((engine.deferred.entries.foldlM (replayOne level) output).on (drained engine)).2)

include batch

/-- What every batch keeps is kept by a replay. -/
theorem replayed_keeps (batches : Nat) (output : String) {engine : Engine} (held : holds engine) :
    holds ((replayed level batches output).on engine).2 := by
  induction batches generalizing output engine with
  | zero => exact held
  | succ batches ih =>
      have replayed := batch output held
      rw [Evaluation.replayed, on_bind, on_drain, proceed_ok, on_bind]
      generalize (engine.deferred.entries.foldlM (replayOne level) output).on (drained engine) =
        outcome at replayed ⊢
      obtain ⟨error | text, middle⟩ := outcome
      · exact replayed
      · exact ih text replayed

theorem underway_keeps (batches : Nat) {document : Document} {engine : Engine}
    (main : holds ((whole level document).on engine).2) :
    holds ((underway level batches document).on engine).2 := by
  rw [underway, on_bind]
  generalize (whole level document).on engine = outcome at main ⊢
  obtain ⟨error | text, middle⟩ := outcome
  · exact main
  · exact replayed_keeps holds batch batches text main

end

theorem replayed_drained (level : Level) (batches : Nat) (output : String) (engine : Engine) :
    (replayed level batches output).on (drained engine) = (.ok output, drained engine) := by
  induction batches with
  | zero => rfl
  | succ batches ih => exact ih

/-- A replay that ends has gone through its first batches. -/
theorem replayed_of_replay {level : Level} {batches : Nat} {output : String}
    {engine after : Engine} {result : Except TemplateError String}
    (ran : (Expansion.replay level batches output).run engine = some (result, after)) :
    ∃ reached, (replayed level batches output).on engine = (result, reached) ∧
      Expansion.finish reached = Expansion.finish after := by
  induction batches generalizing output engine with
  | zero =>
      by_cases empty : engine.deferred.entries = []
      · rw [Expansion.run_replay_of_empty empty] at ran
        cases ran
        exact ⟨engine, rfl, rfl⟩
      · rw [Expansion.run_replay_zero empty] at ran
        cases ran
  | succ batches ih =>
      rw [replayed, on_bind, on_drain, proceed_ok, on_bind]
      by_cases empty : engine.deferred.entries = []
      · rw [Expansion.run_replay_of_empty empty] at ran
        cases ran
        rw [empty]
        exact ⟨_, replayed_drained level batches output engine, rfl⟩
      · rw [Expansion.run_replay_succ empty] at ran
        cases folded : (engine.deferred.entries.foldlM (replayOne level) output).on
          (drained engine) with
        | mk outcome middle =>
            rw [folded] at ran
            cases outcome with
            | ok text => exact ih ran
            | error error =>
                cases ran
                exact ⟨_, rfl, rfl⟩

/-- An evaluation that ends within a number of batches has done what these do. -/
theorem underway_of_run {batches : Nat} {document : Document} {engine after : Engine}
    {result : Except TemplateError String}
    (ran : (Expansion.document batches document).run engine = some (result, after)) :
    let ended := (underway (range engine.settings.maxDepth) batches document).on
      (Expansion.begin engine)
    result = ended.1 ∧ after = Expansion.finish ended.2 := by
  rw [Expansion.run_document] at ran
  obtain ⟨⟨outcome, final⟩, inner, ended⟩ := Option.map_eq_some_iff.mp ran
  cases ended
  rw [underway, on_bind]
  cases main : (whole (range engine.settings.maxDepth) document).on (Expansion.begin engine) with
  | mk first middle =>
      rw [main] at inner
      cases first with
      | ok output =>
          obtain ⟨reached, same, finished⟩ := replayed_of_replay inner
          rw [proceed_ok, same]
          exact ⟨rfl, finished.symm⟩
      | error error =>
          cases inner
          exact ⟨rfl, rfl⟩

theorem answer_along (levels : Nat) (request : Request) :
    ((host (range levels)).answer request).Along (Effect false levels) := by
  have effect := hasEffect_range levels
  cases request with
  | evaluate => exact effect.evaluate
  | expand source => exact effect.text source
  | render source => exact effect.text source

end Evaluation

namespace Expansion

/-- Inside an evaluation a request is carried out with the levels that are left. -/
theorem run_answer_nested {engine : Engine} (batches : Nat) (request : Request)
    (running : engine.evaluating = true) :
    ((host batches).answer request).run engine =
      some (Evaluation.on ((Evaluation.host (Evaluation.range engine.levelsLeft)).answer request)
        engine) := by
  cases request <;>
    simp [Host.answer, host, Evaluation.host, evaluate, expand, render, joining, proceed, running]

end Expansion

namespace Engine

variable {engine : Engine}

/-- The state of an evaluation is balanced on every path: after a request from outside the
engine is idle, whether or not the request failed; every handler is called with as many
frames as levels are open, and within the limit, also in a replay that never ends; and a
request inside an evaluation leaves its scope as it was. -/
theorem evaluation_balanced (reachable : engine.Reachable) :
    (∀ batches request result after,
      ((Expansion.host batches).answer request).run engine = some (result, after) →
      after.Idle ∧ engine.BalancedSince after) ∧
    (∀ batches document,
      let underway := (Evaluation.underway (Evaluation.range engine.settings.maxDepth) batches
        document).on (Expansion.begin engine)
      engine.BalancedSince underway.2 ∧ ∀ result after,
        (Expansion.document batches document).run engine = some (result, after) →
        result = underway.1 ∧ after = Expansion.finish underway.2) ∧
    (∀ levels request inner, SameScope inner
      (Evaluation.on ((Evaluation.host (Evaluation.range levels)).answer request) inner).2) ∧
    ∀ batches request inner, inner.evaluating = true → ∃ result after,
      ((Expansion.host batches).answer request).run inner = some (result, after) ∧
        SameScope inner after := by
  refine ⟨?_, ?_, ?_, ?_⟩
  · intro batches request result after ran
    obtain ⟨settled, since⟩ := reachable.atRest.answer ran
    exact ⟨settled.idle, since⟩
  · intro batches document
    have effect := Evaluation.underway_along engine.settings.maxDepth batches document
      (Expansion.begin engine) _ _ rfl
    refine ⟨engine.balanced_begin.since (by simp) effect, ?_⟩
    intro result after ran
    exact Evaluation.underway_of_run ran
  · intro levels request inner
    exact (Evaluation.answer_along levels request inner _ _ rfl).sameScope
  · intro batches request inner running
    rw [Expansion.run_answer_nested batches request running]
    exact ⟨_, _, rfl, (Evaluation.answer_along _ request inner _ _ rfl).sameScope⟩

/-- An engine that opens three levels at most. -/
def shallow (registry : Registry) : Engine where
  settings := { maxDepth := 3 }
  registry
  callStack := .empty
  vars := .empty
  deferred := .empty
  document := .empty
  depth := 0
  evaluating := false
  journal := #[]

theorem reachable_shallow (registry : Registry) : (shallow registry).Reachable := by
  have created : Engine.create { maxDepth := 3 } = .ok (shallow (.empty ":")) := rfl
  exact .registered (.created created) registry

/-- An engine with one tag, whose handler evaluates the document that the tag is in. -/
def selfEvaluating : Engine :=
  shallow ⟨⟨":", [("again", ⟨fun _ => .evaluate fun
    | .ok text => .done text
    | .error error => .fail error, .default, false⟩)]⟩, none⟩

/-- A handler that evaluates the document it is in is stopped by the limit. -/
theorem evaluation_balanced_recursive :
    selfEvaluating.Reachable ∧ ∃ after,
      ((Expansion.host 0).answer (.render "\x7bagain:\x7d")).run selfEvaluating =
        some (.error (.recursionLimit 3), after) ∧
      after.journal.size = 3 ∧ after.Idle ∧ selfEvaluating.BalancedSince after := by
  have reachable : selfEvaluating.Reachable := reachable_shallow _
  refine ⟨reachable, ?_⟩
  have observed :
      (((Expansion.host 0).answer (.render "\x7bagain:\x7d")).run selfEvaluating).map
        (fun outcome => (outcome.1, outcome.2.journal.size)) =
          some (.error (.recursionLimit 3), 3) := by decide +kernel
  obtain ⟨⟨result, after⟩, ran, same⟩ := Option.map_eq_some_iff.mp observed
  obtain ⟨rfl, size⟩ := Prod.mk.inj same
  obtain ⟨idle, since⟩ :=
    (evaluation_balanced reachable).1 0 (.render "\x7bagain:\x7d") _ _ ran
  exact ⟨after, ran, size, idle, since⟩

end Engine

end TagTemplate
