import Mathlib.Order.Defs.Unbundled
import TagTemplate.Proofs.CallStack.Places
import TagTemplate.Proofs.Evaluation.Invocation

/-!
What an expansion may do to an engine.

`Engine.Effect` lists it once: requests of handlers, calls of handlers, changes of the
deferred queue, and levels, inside which calls are recorded.  Every evaluation has such
an effect, however it ends, so that a property of the engine needs to be looked at for
each kind of change only.
-/

namespace TagTemplate

/-- Monads of which it is known what a computation may return. -/
class MayReturn (m : Type → Type) [Monad m] where
  Returns {α : Type} : m α → α → Prop
  of_pure {α : Type} {a b : α} : Returns (pure a) b → b = a
  of_bind {α β : Type} {x : m α} {f : α → m β} {b : β} :
    Returns (x >>= f) b → ∃ a, Returns x a ∧ Returns (f a) b

instance : MayReturn Id where
  Returns x a := x = a
  of_pure returned := returned.symm
  of_bind returned := ⟨_, rfl, returned⟩

instance : MayReturn Option where
  Returns x a := x = some a
  of_pure returned := (Option.some.inj returned).symm
  of_bind returned := Option.bind_eq_some_iff.mp returned

namespace EngineT

open MayReturn (Returns of_pure of_bind)

variable {m : Type → Type} [Monad m] [MayReturn m] {α β : Type}
  {R S : Engine → Engine → Prop} {x : EngineT m α}

/-- Whatever a computation returns, it takes the engine along a relation. -/
def Along (R : Engine → Engine → Prop) (x : EngineT m α) : Prop :=
  ∀ (engine after : Engine) (result : Except TemplateError α),
    Returns (x.run engine) (result, after) → R engine after

namespace Along

theorem step {f : Engine → Except TemplateError α × Engine}
    (moves : ∀ engine, R engine (f engine).2) : Along R (EngineT.step f : EngineT m α) := by
  intro engine after result returned
  have same : (result, after) = f engine := of_pure returned
  have moved := moves engine
  rw [← same] at moved
  exact moved

theorem change {f : Engine → Engine} (moves : ∀ engine, R engine (f engine)) :
    Along R (EngineT.change f : EngineT m Unit) :=
  step moves

theorem ofEvaluation {x : Evaluation α} (along : Along R x) :
    Along R (EngineT.ofEvaluation x : EngineT m α) :=
  step fun engine => along engine _ _ rfl

theorem between {before behind : Engine → Engine} (along : Along S x)
    (moves : ∀ engine after, S (before engine) after → R engine (behind after)) :
    Along R (EngineT.between before behind x) := by
  intro engine after result returned
  obtain ⟨first, entered, rest⟩ := of_bind returned
  cases (of_pure entered : first = (.ok (), before engine))
  obtain ⟨second, attempted, rest⟩ := of_bind rest
  obtain ⟨inner, ran, kept⟩ := of_bind attempted
  cases (of_pure kept : second = (.ok inner.1, inner.2))
  obtain ⟨third, left, rest⟩ := of_bind rest
  cases (of_pure left : third = (.ok (), behind inner.2))
  cases (of_pure rest : (result, after) = (inner.1, behind inner.2))
  exact moves _ _ (along _ _ _ ran)

theorem attempt (along : Along R x) : Along R (EngineT.attempt x) := by
  intro engine after result returned
  obtain ⟨⟨outcome, middle⟩, ran, rest⟩ := of_bind returned
  have same : (result, after) = (.ok outcome, middle) := of_pure rest
  cases same
  exact along _ _ _ ran

variable [IsPreorder Engine R]

theorem pure (a : α) : Along R (Pure.pure a : EngineT m α) :=
  step (f := fun engine => (.ok a, engine)) fun _ => refl _

theorem throw (error : TemplateError) : Along R (MonadExcept.throw error : EngineT m α) :=
  step (f := fun engine => (.error error, engine)) fun _ => refl _

theorem settle (result : Except TemplateError α) :
    Along R (EngineT.settle result : EngineT m α) :=
  step (f := fun engine => (result, engine)) fun _ => refl _

theorem bind {f : α → EngineT m β} (first : Along R x) (rest : ∀ a, Along R (f a)) :
    Along R (x >>= f) := by
  intro engine after result returned
  obtain ⟨⟨outcome, middle⟩, ran, behind⟩ := of_bind returned
  cases outcome with
  | error error =>
      have same : (result, after) = (.error error, middle) := of_pure behind
      cases same
      exact first _ _ _ ran
  | ok a => exact IsTrans.trans _ _ _ (first _ _ _ ran) (rest a _ _ _ behind)

theorem get : Along R (MonadState.get : EngineT m Engine) := by
  intro engine after result returned
  obtain ⟨⟨held, middle⟩, ran, rest⟩ := of_bind returned
  have kept : (held, middle) = (engine, engine) := of_pure ran
  have same : (result, after) = (.ok held, middle) := of_pure rest
  cases kept
  cases same
  exact refl _

theorem foldlM {f : β → α → EngineT m β} {items : List α}
    (along : ∀ a ∈ items, ∀ b, Along R (f b a)) (b : β) : Along R (items.foldlM f b) := by
  induction items generalizing b with
  | nil => exact .pure b
  | cons a items ih =>
      obtain ⟨first, rest⟩ := List.forall_mem_cons.mp along
      exact .bind (first b) (ih rest)

end Along

end EngineT

/-- A relation that everything a handler does by itself follows. -/
class Program.Follows (R : Engine → Engine → Prop) : Prop extends IsPreorder Engine R where
  act (action : Action) (engine : Engine) : R engine (action.perform engine).2
  registry (registry : Registry) (engine : Engine) : R engine { engine with registry }

theorem Program.run_along {m : Type → Type} [Monad m] [MayReturn m] {R : Engine → Engine → Prop}
    [follows : Follows R] {host : Host m} (expand : ∀ source, (host.expand source).Along R)
    (render : ∀ source, (host.render source).Along R) (evaluate : host.evaluate.Along R)
    (program : Program) : (program.run host).Along R := by
  induction program using Program.run.induct with
  | case1 text => exact .pure text
  | case2 error => exact .throw error
  | case3 next ih => exact .bind .get ih
  | case4 action next ih => exact .bind (.step (follows.act action)) ih
  | case5 source next ih => exact .bind (.attempt (expand source)) ih
  | case6 source next ih => exact .bind (.attempt (render source)) ih
  | case7 next ih => exact .bind (.attempt evaluate) ih
  | case8 name handler convention next ih =>
      exact .bind (.attempt (.step fun engine => follows.registry _ engine)) ih
  | case9 autoload next ih =>
      exact .bind (.change fun engine => follows.registry _ engine) fun _ => ih

theorem Binding.runNamed_along {m : Type → Type} [Monad m] [MayReturn m]
    {R : Engine → Engine → Prop} [IsPreorder Engine R] {host : Host m} {binding : Binding}
    {call : TagCall} (ran : (binding.run host call).Along R) :
    (binding.runNamed host call).Along R := by
  refine .bind (.attempt ran) fun result => ?_
  cases result with
  | ok text => exact .pure text
  | error error => exact .throw _

theorem Evaluation.again_along {R : Engine → Engine → Prop} [IsPreorder Engine R] {level : Level}
    (expands : ∀ source, (text level source).Along R) (convention : Convention) (output : String) :
    (again level convention output).Along R := by
  unfold again
  split
  · exact expands output
  · exact .pure output

namespace Engine

open Evaluation (enter leave)

/-- What a request changes that expands nothing. -/
structure Acted (before after : Engine) : Prop where
  settings : after.settings = before.settings
  depth : after.depth = before.depth
  evaluating : after.evaluating = before.evaluating
  deferred : after.deferred = before.deferred
  names : after.callStack.names = before.callStack.names
  document : after.document = before.document ∨
    ∃ source, before.parse source = .ok after.document
  journal : ∃ lookups : List LookupEvent,
    after.journal = before.journal ++ (lookups.map Event.lookup).toArray

theorem Acted.refl (engine : Engine) : Acted engine engine :=
  ⟨rfl, rfl, rfl, rfl, rfl, .inl rfl, [], by simp⟩

theorem acted (action : Action) (engine : Engine) : Acted engine (action.perform engine).2 := by
  cases action with
  | load source =>
      simp only [Action.perform, load]
      split
      · rename_i document parsed
        exact { Acted.refl engine with document := .inr ⟨source, parsed⟩ }
      · exact .refl engine
  | setSlot name value =>
      simp only [Action.perform, setSlot]
      split
      · rename_i callStack set
        exact { Acted.refl engine with names := CallStack.names_set set }
      · exact .refl engine
  | setVariable path value mode => exact { Acted.refl engine with }
  | removeVariable path => exact { Acted.refl engine with }
  | clearVariables => exact { Acted.refl engine with }
  | unregister name => exact { Acted.refl engine with }
  | resolve name param => exact { Acted.refl engine with journal := ⟨_, rfl⟩ }

/-- How an evaluation may change an engine while it may open a number of levels.  Inside a
level calls are recorded, on the frame of the level. -/
inductive Effect : (inside : Bool) → (levels : Nat) → Engine → Engine → Prop where
  | refl {inside levels} (engine : Engine) : Effect inside levels engine engine
  | trans {inside levels engine middle after} (first : Effect inside levels engine middle)
      (second : Effect inside levels middle after) : Effect inside levels engine after
  | act {inside levels engine} (action : Action) :
      Effect inside levels engine (action.perform engine).2
  | registry {inside levels engine} (registry : Registry) :
      Effect inside levels engine { engine with registry }
  | called {inside levels engine} (call : TagCall) (builtIn : Bool) :
      Effect inside levels engine
        (engine.record [.called call builtIn engine.depth engine.callStack.depth])
  | queue {inside levels engine} (deferred : DeferredQueue DeferredCall) :
      Effect inside levels engine { engine with deferred }
  | recorded {levels engine} (name : String) :
      Effect true levels engine { engine with callStack := engine.callStack.record name }
  | level {inside levels engine after} (inner : Effect true levels (enter engine) after) :
      Effect inside (levels + 1) engine (leave after)

variable {inside : Bool} {levels : Nat}

instance : Program.Follows (Effect inside levels) where
  refl := .refl
  trans _ _ _ := .trans
  act action _ := .act action
  registry registry _ := .registry registry

end Engine

namespace Evaluation

open Engine (Effect)

variable {inside : Bool} {levels : Nat} {level : Level}

/-- The evaluation of ranges on a level has the effects that `levels` levels allow. -/
def HasEffect (level : Level) (levels : Nat) : Prop :=
  ∀ (inside : Bool) (document : Document) (start stop : Nat),
    (level document start stop).Along (Effect inside levels)

namespace HasEffect

theorem whole (effect : HasEffect level levels) (document : Document) :
    (Evaluation.whole level document).Along (Effect inside levels) :=
  effect inside document 0 document.size

theorem text (effect : HasEffect level levels) (source : String) :
    (Evaluation.text level source).Along (Effect inside levels) :=
  .bind (.step .refl) fun document => effect.whole document

theorem evaluate (effect : HasEffect level levels) :
    (host level).evaluate.Along (Effect inside levels) :=
  .bind .get fun engine => effect.whole engine.document

theorem runNamed (effect : HasEffect level levels) (binding : Binding) (call : TagCall) :
    (binding.runNamed (host level) call).Along (Effect inside levels) :=
  Binding.runNamed_along (.bind (.change fun _ => .called call binding.builtIn)
    fun _ => Program.run_along effect.text effect.text effect.evaluate _)

theorem again (effect : HasEffect level levels) (convention : Convention) (output : String) :
    (Evaluation.again level convention output).Along (Effect inside levels) :=
  again_along effect.text convention output

theorem unknownTag (document : Document) (index : Nat) (tag : Tag) (closer : Option Nat) :
    (Evaluation.unknownTag document index tag closer).Along (Effect inside levels) := by
  refine .bind .get fun engine => ?_
  dsimp only
  split
  · exact .throw _
  · exact .pure _
  · exact .pure _
  · exact .pure _

theorem check (document : Document) (tag : Tag) (resolved : Resolved) (hasBody : Bool) :
    (Evaluation.check document tag resolved hasBody).Along (Effect inside levels) := by
  unfold Evaluation.check
  split
  · exact .bind .get fun _ => .throw _
  · exact .pure ()

theorem bodyText (effect : HasEffect level levels) (document : Document)
    (convention : Convention) (index : Nat) (closer : Option Nat) :
    (Evaluation.bodyText level document convention index closer).Along
      (Effect inside levels) := by
  unfold Evaluation.bodyText
  split
  · exact .pure none
  · split
    · exact .bind .get fun _ => .pure _
    · exact .bind (effect _ _ _ _) fun _ => .pure _

theorem conclude (effect : HasEffect level levels) (invocation : Invocation)
    (slot : Option Nat) (body : Option String) :
    (invocation.conclude level slot body).Along (Effect inside levels) := by
  refine .bind .get fun engine => .bind (.settle _) fun call => ?_
  cases slot with
  | some slot => exact .bind (.change fun engine => .queue _) fun _ => .pure ""
  | none =>
      exact .bind (effect.runNamed invocation.binding call) fun output => effect.again _ output

/-- Once a call is recorded, calls are recorded in it on levels of their own only. -/
theorem run (effect : HasEffect level levels) (invocation : Invocation) :
    (invocation.run level).Along (Effect inside levels) := by
  have reserved : ∀ engine, Effect inside levels engine (invocation.reserve engine).2 := by
    intro engine
    unfold Invocation.reserve
    split
    · exact .queue _
    · exact .refl engine
  exact .bind (.step reserved) fun slot =>
    .bind (effect.bodyText _ _ _ _) fun body => effect.conclude invocation slot body

theorem callResolved (effect : HasEffect level levels) (document : Document) (index : Nat)
    (tag : Tag) (closer : Option Nat) (resolved : Resolved) :
    (Evaluation.callResolved level document index tag closer resolved).Along
      (Effect true levels) := by
  rw [callResolved_eq_run]
  exact .bind (check document tag resolved _) fun _ =>
    .bind (.change fun engine => .recorded tag.name) fun _ => effect.run _

theorem callTag (effect : HasEffect level levels) (document : Document) (index : Nat)
    (tag : Tag) (closer : Option Nat) :
    (Evaluation.callTag level document index tag closer).Along (Effect true levels) := by
  refine .bind (.step fun engine => .act (.resolve tag.name tag.param)) fun found => ?_
  cases found with
  | some resolved => exact effect.callResolved document index tag closer resolved
  | none => exact unknownTag document index tag closer

theorem item (effect : HasEffect level levels) (document : Document) (item : Item) :
    (Evaluation.item level document item).Along (Effect true levels) := by
  cases item with
  | text s => exact .pure s
  | call index tag closer => exact effect.callTag document index tag closer
  | dangling tag =>
      refine .bind .get fun engine => ?_
      dsimp only
      split
      · exact .pure _
      · exact .pure ""
  | unresolved tag => exact .bind .get fun engine => .throw _

theorem items (effect : HasEffect level levels) (document : Document) (items : List Item) :
    (Evaluation.items level document items).Along (Effect true levels) := by
  induction items with
  | nil => exact .pure ""
  | cons first rest ih =>
      exact .bind (effect.item document first) fun _ => .bind ih fun _ => .pure _

end HasEffect

theorem hasEffect_range (levels : Nat) : HasEffect (range levels) levels := by
  induction levels with
  | zero => exact fun inside document start stop => .bind .get fun engine => .throw _
  | succ levels ih =>
      intro inside document start stop
      exact .between (ih.items document _) fun engine after inner => .level inner

theorem HasEffect.replayOne (effect : HasEffect level levels) (output : String)
    (entry : DeferredCall) :
    (Evaluation.replayOne level output entry).Along (Effect inside levels) :=
  .bind (effect.runNamed entry.binding _) fun output => effect.again _ output

end Evaluation

namespace Expansion

open Engine (Effect)
open Evaluation (range whole hasEffect_range)

variable {inside : Bool} {engine after : Engine} {result : Except TemplateError String}

theorem replay_along (levels batches : Nat) (output : String) :
    (replay (range levels) batches output).Along (Effect inside levels) := by
  have effect := hasEffect_range levels
  induction batches generalizing output with
  | zero =>
      refine .bind (.ofEvaluation (.step fun engine => .queue _)) fun entries => ?_
      split
      · exact .pure output
      · intro engine after result returned
        cases returned
  | succ batches ih =>
      refine .bind (.ofEvaluation (.step fun engine => .queue _)) fun entries => ?_
      split
      · exact .pure output
      · exact .bind (.ofEvaluation (.foldlM (fun entry _ output => effect.replayOne output entry) output)) ih

/-- Between its beginning and its end a complete evaluation is an effect outside all
levels. -/
theorem effect_of_run {batches : Nat} {document : Document}
    (ran : (Expansion.document batches document).run engine = some (result, after)) :
    ∃ final, Effect false engine.settings.maxDepth (begin engine) final ∧
      after = finish final := by
  rw [run_document] at ran
  obtain ⟨⟨outcome, final⟩, inner, ended⟩ := Option.map_eq_some_iff.mp ran
  cases ended
  have along : ((do
      let output ← EngineT.ofEvaluation (whole (range engine.settings.maxDepth) document)
      replay (range engine.settings.maxDepth) batches output : Expansion String)).Along
        (Effect false engine.settings.maxDepth) :=
    .bind (.ofEvaluation ((hasEffect_range _).whole document)) (replay_along _ batches)
  exact ⟨final, along _ _ outcome (by rw [run_bind]; exact inner), rfl⟩

end Expansion

end TagTemplate
