import TagTemplate.CoreTags
import TagTemplate.Proofs.Evaluation.Balance
import TagTemplate.Proofs.Forest

/-!
Calls of the core tags.

`Returns` says what a computation returns with the core tags and what it leaves of the variables.
It has a rule for each step on the way from the text of a template to the handler of a core tag,
so that a rendering is described from the inside out.
-/

namespace TagTemplate

/-- The registry that holds the core tags and nothing else. -/
def CoreTags.registry : Registry :=
  (Registry.registerAll bindings (.empty Delimiters.default.separator)).2

/-- The default settings, the core tags and these variables. -/
structure Engine.HasCoreTags (vars : Variables) (engine : Engine) : Prop where
  settings : engine.settings = .default
  bindings : engine.registry.bindings = CoreTags.registry.bindings
  vars : engine.vars = vars

def Engine.withCoreTags : Engine where
  settings := .default
  registry := CoreTags.registry
  callStack := .empty
  vars := .empty
  deferred := .empty
  document := .empty
  depth := 0
  evaluating := false
  journal := #[]

theorem Engine.hasCoreTags_withCoreTags : Engine.withCoreTags.HasCoreTags .empty :=
  ⟨rfl, rfl, rfl⟩

/-- No call is waiting either. -/
structure Engine.ServesCoreTags (vars : Variables) (engine : Engine) : Prop
    extends engine.HasCoreTags vars where
  deferred : engine.deferred = .empty

theorem Engine.ServesCoreTags.congr {engine other : Engine} {vars : Variables}
    (ready : engine.ServesCoreTags vars) (settings : other.settings = engine.settings)
    (registry : other.registry = engine.registry) (same : other.vars = engine.vars)
    (deferred : other.deferred = engine.deferred) : other.ServesCoreTags vars where
  settings := settings.trans ready.settings
  bindings := by rw [registry, ready.bindings]
  vars := same.trans ready.vars
  deferred := deferred.trans ready.deferred

/-- A convention that leaves a call as it is written and makes it at once. -/
structure Convention.Direct (convention : Convention) : Prop where
  text : convention.bodyShape = .text
  scalar : convention.paramShape = .scalar
  given : convention.oneParam = false
  once : convention.redo = false
  inPlace : convention.deferred = false

namespace Evaluation

variable {α β : Type} {vars middle left : Variables} {document : Document} {levels : Nat}
  {level : Level}

def Returns (x : Evaluation α) (vars : Variables) (a : α) (left : Variables) : Prop :=
  ∀ engine : Engine, engine.ServesCoreTags vars →
    ∃ after, after.ServesCoreTags left ∧ x.on engine = (.ok a, after)

namespace Returns

variable {x : Evaluation α} {f : α → Evaluation β} {a : α} {b : β}

theorem pure (a : α) : Returns (Pure.pure a) vars a vars :=
  fun engine ready => ⟨engine, ready, rfl⟩

theorem bind (first : Returns x vars a middle) (rest : Returns (f a) middle b left) :
    Returns (x >>= f) vars b left := by
  intro engine ready
  obtain ⟨between, reached, ran⟩ := first engine ready
  rw [on_bind, ran]
  exact rest between reached

theorem get {f : Engine → Evaluation β}
    (rest : ∀ engine, engine.ServesCoreTags vars → Returns (f engine) vars b left) :
    Returns (MonadState.get >>= f) vars b left := by
  intro engine ready
  rw [on_bind, on_get]
  exact rest engine ready engine ready

theorem bodyText {convention : Convention} {index closer : Nat} {text : String}
    (expanded : convention.rawBody = false)
    (evaluated : Returns (level document (index + 1) closer) vars text left) :
    Returns (Evaluation.bodyText level document convention index (some closer)) vars (some text)
      left := by
  simp only [Evaluation.bodyText, expanded, Bool.false_eq_true, if_false]
  exact evaluated.bind (.pure _)

theorem bodyText_raw {convention : Convention} {index closer : Nat}
    (raw : convention.rawBody = true) :
    Returns (Evaluation.bodyText level document convention index (some closer)) vars
      (some (document.raw .default (index + 1) closer)) vars := by
  simp only [Evaluation.bodyText, raw, if_true]
  apply get
  intro engine ready
  rw [ready.settings]
  exact .pure _

end Returns

def directCall (tag : Tag) (resolved : Resolved) (body : Option String) : TagCall :=
  ⟨resolved.name, tag.name, .text resolved.param, body.elim .none .text, tag.start, none⟩

section Direct

variable {index : Nat} {tag : Tag} {closer : Option Nat} {resolved : Resolved}
  {body : Option String} {output : String}

theorem sides_of_direct (direct : resolved.binding.convention.Direct) (hasBody : Bool) :
    sides resolved hasBody body = (resolved.param, body) := by
  simp [sides, bodyAsParam, direct.given]

theorem decoded_of_direct (direct : resolved.binding.convention.Direct) (settings : Settings) :
    decoded settings document tag resolved resolved.param body =
      .ok (directCall tag resolved body) := by
  rw [decoded_eq_ok_iff, direct.text, direct.scalar]
  cases body <;> exact ⟨rfl, rfl, rfl, rfl, rfl, rfl⟩

namespace Returns

theorem resolve (found : CoreTags.registry.bindings.find? tag.name tag.param = some resolved) :
    Returns (EngineT.step fun engine => engine.resolve tag.name tag.param) vars (some resolved)
      vars := by
  intro engine ready
  rw [← ready.bindings] at found
  exact ⟨engine, ready, Engine.resolve_of_found found⟩

theorem prepare (direct : resolved.binding.convention.Direct)
    (bodied : Returns (Evaluation.bodyText level document resolved.binding.convention index closer)
      vars body left) :
    Returns (Evaluation.prepare level document index tag closer resolved) vars
      (directCall tag resolved body) left := by
  refine bodied.bind ?_
  rw [sides_of_direct direct]
  refine .get fun engine _ => ?_
  rw [decoded_of_direct direct]
  exact .pure _

theorem runNamed {host : Host Id} {binding : Binding} {call : TagCall}
    (handled : Returns ((binding.handler call).run host) vars output left) :
    Returns (binding.runNamed host call) vars output left := by
  intro engine ready
  have noted : (engine.record [.called call binding.builtIn engine.depth
      engine.callStack.depth]).ServesCoreTags vars :=
    ready.congr rfl rfl rfl rfl
  obtain ⟨after, reached, ran⟩ := handled _ noted
  refine ⟨after, reached, ?_⟩
  rw [on_runNamed, Binding.run, on_bind, on_change, proceed_ok, ran]
  rfl

/-- A handler is called with the variables that the body of its call has left. -/
theorem call (found : CoreTags.registry.bindings.find? tag.name tag.param = some resolved)
    (direct : resolved.binding.convention.Direct)
    (permitted : callViolation resolved.binding.convention resolved.param closer.isSome = none)
    (bodied : Returns (Evaluation.bodyText level document resolved.binding.convention index closer)
      vars body middle)
    (handled : Returns ((resolved.binding.handler (directCall tag resolved body)).run (host level))
      middle output left) :
    Returns (item level document (.call index tag closer)) vars output left := by
  have checks : Returns (check document tag resolved closer.isSome) vars () vars := by
    rw [check, permitted]
    exact .pure ()
  have records : Returns (EngineT.change (recordCall tag.name)) vars () vars :=
    fun engine ready => ⟨recordCall tag.name engine, ready.congr rfl rfl rfl rfl, rfl⟩
  have calls :
      Returns (callResolved level document index tag closer resolved) vars output left := by
    rw [callResolved_eq]
    refine checks.bind (records.bind ?_)
    simp only [direct.inPlace, direct.once, again, Bool.false_eq_true, if_false]
    exact (prepare direct bodied).bind ((runNamed handled).bind (.pure output))
  exact (resolve found).bind calls

end Returns

end Direct

namespace Returns

theorem items_nil : Returns (items level document []) vars "" vars :=
  .pure ""

theorem items_cons {first : Item} {rest : List Item} {head tail : String}
    (here : Returns (item level document first) vars head middle)
    (behind : Returns (items level document rest) middle tail left) :
    Returns (items level document (first :: rest)) vars (head ++ tail) left :=
  here.bind (behind.bind (.pure _))

theorem items_text (text : String) {rest : List Item} {tail : String}
    (behind : Returns (items level document rest) vars tail left) :
    Returns (items level document (.text text :: rest)) vars (text ++ tail) left :=
  items_cons (show Returns (item level document (.text text)) vars text vars from .pure text) behind

theorem range {start stop : Nat} {output : String}
    (evaluated : Returns (items (Evaluation.range levels) document (document.outline start stop))
      vars output left) :
    Returns (Evaluation.range (levels + 1) document start stop) vars output left := by
  intro engine ready
  obtain ⟨after, reached, ran⟩ := evaluated (enter engine) (ready.congr rfl rfl rfl rfl)
  refine ⟨leave after, reached.congr rfl rfl rfl rfl, ?_⟩
  rw [Evaluation.range, on_between, ran]

theorem bodyText_plain {convention : Convention} {index closer : Nat} {text : String}
    (expanded : convention.rawBody = false)
    (inside : document.Forms (index + 1) closer (.text text .nil)) :
    Returns (Evaluation.bodyText (Evaluation.range (levels + 1)) document convention index
      (some closer)) vars (some text) vars := by
  have alone : Returns (items (Evaluation.range levels) document [.text text]) vars _ vars :=
    items_text text items_nil
  rw [String.append_empty] at alone
  have outline : document.outline (index + 1) closer = [.text text] := inside.outline_eq
  rw [← outline] at alone
  exact bodyText expanded (range alone)

theorem inspect {next : View → Program} {host : Host Id} {output : String}
    (rest : ∀ view : View, view.settings = .default → view.vars = vars →
      Returns ((next view).run host) vars output left) :
    Returns ((Program.inspect next).run host) vars output left :=
  get fun engine ready => rest engine.view ready.settings ready.vars

theorem store {path text : String} {mode : SetMode} {host : Host Id}
    (assigned : vars.assign path (.string text) mode = (.ok (), left)) :
    Returns ((CoreTags.store path text mode).run host) vars "" left := by
  intro engine ready
  rw [← ready.vars] at assigned
  refine ⟨{ engine with vars := left }, ⟨⟨ready.settings, ready.bindings, rfl⟩, ready.deferred⟩, ?_⟩
  simp only [CoreTags.store, Program.run, on_bind, on_step, Action.perform, Engine.setVariable,
    assigned]
  rfl

end Returns

end Evaluation

theorem Engine.HasCoreTags.run_render {engine : Engine} {vars left : Variables}
    {source output : String} {document : Document} (ready : engine.HasCoreTags vars)
    (idle : engine.evaluating = false)
    (parsed : Document.parse .default source = .ok document)
    (evaluated : Evaluation.Returns
      (Evaluation.range Settings.default.maxDepth document 0 document.size) vars output left)
    (batches : Nat) :
    ∃ after, after.HasCoreTags left ∧
      (Expansion.render batches source).run engine = some (.ok output, after) := by
  have target : Request.target engine (.render source) =
      .ok (document, { engine with document }) := by
    rw [Request.target, Engine.parse, ready.settings]
    exact congrArg (Except.map _) parsed
  have ran : (Expansion.render batches source).run engine =
      (Expansion.document batches document).run { engine with document } := by
    have answered := Expansion.run_answer batches (.render source) idle
    rw [target] at answered
    exact answered
  rw [← ready.settings] at evaluated
  obtain ⟨after, reached, written⟩ := evaluated (Expansion.begin { engine with document })
    ⟨⟨ready.settings, ready.bindings, ready.vars⟩, rfl⟩
  have waiting : after.deferred.entries = [] := by
    rw [reached.deferred]
    rfl
  refine ⟨Expansion.finish (Evaluation.drained after),
    ⟨reached.settings, reached.bindings, reached.vars⟩, ?_⟩
  rw [ran, Expansion.run_document, Evaluation.whole]
  dsimp only
  rw [written, Expansion.proceed, Expansion.run_replay_of_empty waiting, Option.map_some]

end TagTemplate
