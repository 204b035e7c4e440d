import Mathlib.Data.List.Forall2
import TagTemplate.Proofs.Evaluation.Quiet

/-!
The order in which the tags of a document are called.

Where no tag is deferred, left raw or expanded again, the handlers are called in the
post-order of the forest of the document, each with the text of its body.  What is called is
what the look-up on the engine of that moment has found, and the outputs in a body are what the
handlers of the tags in it have returned.
-/

namespace TagTemplate

/-- An open tag with the forest of its body. -/
structure Node where
  index : Nat
  tag : Tag
  body : Option Forest

/-- The call is evaluated at once: its body is parsed, and its output stays as it is. -/
structure Convention.Immediate (convention : Convention) : Prop where
  parsed : convention.rawBody = false
  once : convention.redo = false
  inPlace : convention.deferred = false

namespace Forest

/-- The tags inside a pair come before the tag of the pair, siblings from left to right. -/
def postOrder : Forest → List Node
  | nil => []
  | text _ rest => rest.postOrder
  | dangling _ rest => rest.postOrder
  | single index tag rest => ⟨index, tag, none⟩ :: rest.postOrder
  | pair index tag _ _ body rest => body.postOrder ++ ⟨index, tag, some body⟩ :: rest.postOrder

/-- The tags that stand in no other tag. -/
def nodes : Forest → List Node
  | nil => []
  | text _ rest => rest.nodes
  | dangling _ rest => rest.nodes
  | single index tag rest => ⟨index, tag, none⟩ :: rest.nodes
  | pair index tag _ _ body rest => ⟨index, tag, some body⟩ :: rest.nodes

/-- The text of a range where every tag of the range has its output. -/
def textWith (settings : Settings) (output : Nat → String) : Forest → String
  | nil => ""
  | text s rest => s ++ rest.textWith settings output
  | dangling tag rest => settings.danglingText tag ++ rest.textWith settings output
  | single index _ rest => output index ++ rest.textWith settings output
  | pair index _ _ _ _ rest => output index ++ rest.textWith settings output

theorem postOrder_perm (forest : Forest) :
    (forest.postOrder.map Node.index).Perm forest.indices := by
  induction forest with
  | nil => exact .refl _
  | text s rest ih | dangling tag rest ih => exact ih
  | single index tag rest ih => exact ih.cons index
  | pair index tag closer closeTag body rest inner outer =>
      rw [postOrder, indices, List.map_append, List.map_cons]
      exact List.perm_middle.trans ((inner.append outer).cons index)

end Forest

namespace Node

/-- The positions of the open tags in the body of a node. -/
def inner (node : Node) : List Nat :=
  (node.body.map Forest.indices).getD []

def indices (node : Node) : List Nat :=
  node.index :: node.inner

/-- The nodes that stand in the body of a node and in no other tag of it. -/
def under (node : Node) : List Node :=
  (node.body.map Forest.nodes).getD []

/-- The nodes in the body of a node, and the node. -/
def postOrder (node : Node) : List Node :=
  (node.body.map Forest.postOrder).getD [] ++ [node]

/-- The call that is made for a node once its tag has been looked up. -/
def call (settings : Settings) (document : Document) (output : Nat → String) (node : Node)
    (resolved : Resolved) : Except TemplateError TagCall :=
  let sides := Evaluation.sides resolved node.body.isSome
    (node.body.map (Forest.textWith settings output))
  Evaluation.decoded settings document node.tag resolved sides.1 sides.2

end Node

namespace Forest

variable {settings : Settings} {forest : Forest} {output other : Nat → String} {node : Node}
  {index : Nat}

theorem postOrder_eq (forest : Forest) :
    forest.postOrder = forest.nodes.flatMap Node.postOrder := by
  induction forest with
  | nil => rfl
  | text s rest ih | dangling tag rest ih => exact ih
  | single index tag rest ih => simp [postOrder, nodes, Node.postOrder, ih]
  | pair index tag closer closeTag body rest inner outer =>
      simp [postOrder, nodes, Node.postOrder, outer]

theorem indices_of_mem_nodes (member : node ∈ forest.nodes) (inside : index ∈ node.indices) :
    index ∈ forest.indices := by
  induction forest with
  | nil => cases member
  | text s rest ih | dangling tag rest ih => exact ih member
  | single position tag rest ih =>
      rcases List.mem_cons.mp member with rfl | behind
      · simp_all [indices, Node.indices, Node.inner]
      · exact List.mem_cons_of_mem _ (ih behind)
  | pair position tag closer closeTag body rest inner outer =>
      rw [indices]
      rcases List.mem_cons.mp member with rfl | behind
      · simp only [Node.indices, Node.inner, Option.map_some, Option.getD_some, List.mem_cons]
          at inside
        simp only [List.mem_cons, List.mem_append]
        exact inside.imp_right .inl
      · simp [outer behind]

theorem textWith_congr (agree : ∀ index ∈ forest.indices, output index = other index) :
    forest.textWith settings output = forest.textWith settings other := by
  induction forest with
  | nil => rfl
  | text s rest ih | dangling tag rest ih => simp only [textWith, ih agree]
  | single position tag rest ih =>
      have here := agree position (by simp [indices])
      have behind := ih fun index member => agree index (List.mem_cons_of_mem _ member)
      simp only [textWith, here, behind]
  | pair position tag closer closeTag body rest inner outer =>
      have here := agree position (by simp [indices])
      have behind := outer fun index member => agree index (by simp [indices, member])
      simp only [textWith, here, behind]

end Forest

namespace Node

variable {settings : Settings} {document : Document} {output other : Nat → String} {node : Node}
  {resolved : Resolved} {call : TagCall}

theorem flatMap_postOrder_under (node : Node) :
    node.under.flatMap postOrder ++ [node] = node.postOrder := by
  obtain ⟨index, tag, body⟩ := node
  cases body with
  | none => rfl
  | some forest => simp [under, postOrder, Forest.postOrder_eq]

theorem mem_inner_of_under {inside : Node} {index : Nat} (member : inside ∈ node.under)
    (within : index ∈ inside.indices) : index ∈ node.inner := by
  obtain ⟨position, tag, body⟩ := node
  cases body with
  | none => cases member
  | some forest => exact Forest.indices_of_mem_nodes member within

theorem agree_inner (agree : ∀ index ∈ node.indices, output index = other index) :
    ∀ index ∈ node.inner, output index = other index :=
  fun index member => agree index (List.mem_cons_of_mem _ member)

theorem agree_under (agree : ∀ index ∈ node.inner, output index = other index) :
    ∀ inside ∈ node.under, ∀ index ∈ inside.indices, output index = other index :=
  fun _ member index within => agree index (mem_inner_of_under member within)

theorem call_congr (agree : ∀ index ∈ node.inner, output index = other index) :
    node.call settings document output resolved = node.call settings document other resolved := by
  have same : node.body.map (Forest.textWith settings output) =
      node.body.map (Forest.textWith settings other) := by
    cases found : node.body with
    | none => rfl
    | some body =>
        have inside : ∀ index ∈ body.indices, output index = other index :=
          fun index member => agree index (by simp [inner, found, member])
        simp [Forest.textWith_congr inside]
  simp only [Node.call, same]

/-- A call belongs to a node: it comes from the tag of the node, and its text body is the text
of the body of the tag. -/
structure Called (settings : Settings) (output : Nat → String) (node : Node)
    (call : TagCall) : Prop where
  tag : call.tag = node.tag.name
  offset : call.offset = node.tag.start
  document : call.document = none
  body : ∀ text, call.body = .text text →
    ∃ body, node.body = some body ∧ text = body.textWith settings output

theorem called_of_call (made : node.call settings document output resolved = .ok call) :
    node.Called settings output call := by
  obtain ⟨-, tag, -, decoded, offset, whole⟩ := Evaluation.decoded_eq_ok_iff.mp made
  refine ⟨tag, offset, whole, fun text given => ?_⟩
  rw [given] at decoded
  have read := Evaluation.text_of_decodedBody decoded
  rw [Evaluation.sides] at read
  split at read
  · cases read
  · obtain ⟨body, found, same⟩ := Option.map_eq_some_iff.mp read
    exact ⟨body, found, same.symm⟩

/-- The tag of a node is looked up with success and recorded, and a level is opened for its
body.  Nothing is called on the level of a tag without a body. -/
structure Entered (node : Node) (resolved : Resolved) (before inside : Engine) : Prop where
  looked : ∃ met, before.resolve node.tag.name node.tag.param = (.ok (some resolved), met) ∧
    inside = Evaluation.enter (Evaluation.recordCall node.tag.name met)
  permitted : Evaluation.callViolation resolved.binding.convention resolved.param
    node.body.isSome = none

end Node

theorem Engine.calls_resolve (name param : String) (engine : Engine) :
    (engine.resolve name param).2.calls = engine.calls :=
  calls_perform (.resolve name param)

theorem Node.Entered.calls_eq {node : Node} {resolved : Resolved} {before inside : Engine}
    (entered : node.Entered resolved before inside) : inside.calls = before.calls := by
  obtain ⟨met, looked, rfl⟩ := entered.looked
  have same := before.calls_resolve node.tag.name node.tag.param
  rw [looked] at same
  exact same

/-- The tags of nodes are called one after the other, until an error stops them.  Each is looked
up on the engine that the one before it has left, and the tags in its body are called in turn
before its handler is.  What the handler returns on the engine that they leave, whatever the
host, is the output of the tag. -/
inductive InTurn (settings : Settings) (document : Document) (output : Nat → String) :
    List Node → List TagCall → Engine → Option TemplateError → Engine → Prop where
  | nil {engine : Engine} : InTurn settings document output [] [] engine none engine
  | call {node : Node} {nodes : List Node} {resolved : Resolved} {call : TagCall}
      {inner calls : List TagCall} {before inside reached returned after : Engine}
      {stopped : Option TemplateError} (entered : node.Entered resolved before inside)
      (within : InTurn settings document output node.under inner inside none reached)
      (made : node.call settings document output resolved = .ok call)
      (returns : ∀ host : Host Id,
        Evaluation.on (resolved.binding.run host call) (Evaluation.leave reached) =
          (.ok (output node.index), returned))
      (noted : returned.calls = reached.calls ++ [call])
      (behind : InTurn settings document output nodes calls returned stopped after) :
      InTurn settings document output (node :: nodes) (inner ++ call :: calls) before stopped after
  /-- the level of the nodes is one too many -/
  | limit {nodes : List Node} {engine : Engine} (deep : settings.maxDepth < engine.depth) :
      InTurn settings document output nodes [] engine (some (.recursionLimit settings.maxDepth))
        engine
  | refused {node : Node} {nodes : List Node} {resolved : Resolved} {violation : Violation}
      {before met : Engine}
      (looked : before.resolve node.tag.name node.tag.param = (.ok (some resolved), met))
      (broken : Evaluation.callViolation resolved.binding.convention resolved.param
        node.body.isSome = some violation) :
      InTurn settings document output (node :: nodes) [] before
        (some (Evaluation.violated settings.delimiters document node.tag violation)) met
  | inside {node : Node} {nodes : List Node} {resolved : Resolved} {calls : List TagCall}
      {before inside reached : Engine} {error : TemplateError}
      (entered : node.Entered resolved before inside)
      (within : InTurn settings document output node.under calls inside (some error) reached) :
      InTurn settings document output (node :: nodes) calls before (some error)
        (Evaluation.leave reached)
  | undecoded {node : Node} {nodes : List Node} {resolved : Resolved} {calls : List TagCall}
      {before inside reached : Engine} {error : TemplateError}
      (entered : node.Entered resolved before inside)
      (within : InTurn settings document output node.under calls inside none reached)
      (made : node.call settings document output resolved = .error error) :
      InTurn settings document output (node :: nodes) calls before (some error)
        (Evaluation.leave reached)
  | failed {node : Node} {nodes : List Node} {resolved : Resolved} {call : TagCall}
      {calls : List TagCall} {before inside reached after : Engine} {error : TemplateError}
      (entered : node.Entered resolved before inside)
      (within : InTurn settings document output node.under calls inside none reached)
      (made : node.call settings document output resolved = .ok call)
      (fails : ∀ host : Host Id,
        Evaluation.on (resolved.binding.run host call) (Evaluation.leave reached) =
          (.error error, after))
      (noted : after.calls = reached.calls ++ [call]) :
      InTurn settings document output (node :: nodes) (calls ++ [call]) before
        (some (error.attributedTo call.name)) after

namespace InTurn

variable {settings : Settings} {document : Document} {output other : Nat → String}
  {nodes more : List Node} {calls later : List TagCall} {before middle after : Engine}
  {stopped : Option TemplateError} {error : TemplateError}

theorem append (first : InTurn settings document output nodes calls before none middle)
    (second : InTurn settings document output more later middle stopped after) :
    InTurn settings document output (nodes ++ more) (calls ++ later) before stopped after := by
  generalize ended : none = outcome at first
  induction first with
  | nil => exact second
  | call entered within made returns noted behind _ ih =>
      rw [List.append_assoc]
      exact .call entered within made returns noted (ih second ended)
  | limit | refused | inside | undecoded | failed => cases ended

/-- The nodes behind the one at which an error stops the calls do not matter. -/
theorem extend (turns : InTurn settings document output nodes calls before (some error) after)
    (more : List Node) :
    InTurn settings document output (nodes ++ more) calls before (some error) after := by
  generalize ended : some error = outcome at turns ⊢
  induction turns with
  | nil => cases ended
  | call entered within made returns noted behind _ ih =>
      exact .call entered within made returns noted (ih ended)
  | limit deep => exact .limit deep
  | refused looked broken => exact .refused looked broken
  | inside entered within => exact .inside entered within
  | undecoded entered within made => exact .undecoded entered within made
  | failed entered within made fails noted => exact .failed entered within made fails noted

theorem calls_eq (turns : InTurn settings document output nodes calls before stopped after) :
    after.calls = before.calls ++ calls := by
  induction turns with
  | nil | limit => simp
  | @refused node nodes resolved violation before met looked broken =>
      have same := before.calls_resolve node.tag.name node.tag.param
      rw [looked] at same
      rw [List.append_nil]
      exact same
  | call entered within made returns noted behind inner ih =>
      rw [ih, noted, inner, entered.calls_eq]
      simp
  | inside entered within ih | undecoded entered within made ih =>
      rw [← entered.calls_eq]
      exact ih
  | failed entered within made fails noted ih =>
      rw [noted, ih, entered.calls_eq, List.append_assoc]

theorem congr (agree : ∀ node ∈ nodes, ∀ index ∈ node.indices, output index = other index)
    (turns : InTurn settings document output nodes calls before stopped after) :
    InTurn settings document other nodes calls before stopped after := by
  induction turns with
  | nil => exact .nil
  | limit deep => exact .limit deep
  | refused looked broken => exact .refused looked broken
  | @call node nodes _ _ _ _ _ _ _ _ _ _ entered within made returns noted behind inner ih =>
      have here := agree node List.mem_cons_self
      have body := Node.agree_inner here
      rw [here node.index List.mem_cons_self] at returns
      exact .call entered (inner (Node.agree_under body)) (Node.call_congr body ▸ made) returns
        noted (ih fun node member => agree node (List.mem_cons_of_mem _ member))
  | inside entered within inner =>
      have body := Node.agree_inner (agree _ List.mem_cons_self)
      exact .inside entered (inner (Node.agree_under body))
  | undecoded entered within made inner =>
      have body := Node.agree_inner (agree _ List.mem_cons_self)
      exact .undecoded entered (inner (Node.agree_under body)) (Node.call_congr body ▸ made)
  | failed entered within made fails noted inner =>
      have body := Node.agree_inner (agree _ List.mem_cons_self)
      exact .failed entered (inner (Node.agree_under body)) (Node.call_congr body ▸ made) fails noted

/-- The calls are those of the nodes in post-order, and of all nodes unless an error has stopped
them. -/
theorem called (turns : InTurn settings document output nodes calls before stopped after) :
    ∃ served, served <+: nodes.flatMap Node.postOrder ∧
      (stopped = none → served = nodes.flatMap Node.postOrder) ∧
      List.Forall₂ (Node.Called settings output) served calls := by
  induction turns with
  | nil => exact ⟨[], List.prefix_refl _, fun _ => rfl, .nil⟩
  | limit | refused => exact ⟨[], List.nil_prefix, nofun, .nil⟩
  | @call node nodes _ _ _ _ _ _ _ _ _ _ entered within made returns noted behind inner ih =>
      obtain ⟨below, -, all, calledBelow⟩ := inner
      obtain ⟨served, first, whole, calledBehind⟩ := ih
      have here : below ++ [node] = node.postOrder := by
        rw [all rfl, node.flatMap_postOrder_under]
      refine ⟨node.postOrder ++ served, ?_, fun ended => ?_, ?_⟩
      · rw [List.flatMap_cons]
        exact (List.prefix_append_right_inj _).mpr first
      · rw [List.flatMap_cons, whole ended]
      · rw [← here, List.append_assoc]
        exact List.rel_append calledBelow (.cons (Node.called_of_call made) calledBehind)
  | @inside node _ _ _ _ _ _ _ entered within inner
  | @undecoded node _ _ _ _ _ _ _ entered within made inner =>
      obtain ⟨below, first, -, calledBelow⟩ := inner
      refine ⟨below, ?_, nofun, calledBelow⟩
      rw [List.flatMap_cons, ← node.flatMap_postOrder_under, List.append_assoc]
      exact first.trans (List.prefix_append _ _)
  | @failed node _ _ _ _ _ _ _ _ _ entered within made fails noted inner =>
      obtain ⟨below, -, all, calledBelow⟩ := inner
      refine ⟨below ++ [node], ?_, nofun,
        List.rel_append calledBelow (.cons (Node.called_of_call made) .nil)⟩
      rw [all rfl, node.flatMap_postOrder_under, List.flatMap_cons]
      exact List.prefix_append _ _

end InTurn

/-- Every open tag is looked up with success, and its call is evaluated at once. -/
structure Registry.ServesAtOnce (holds : Registry → Prop) (document : Document) : Prop
    extends Registry.Serves holds document Convention.Immediate where
  bound : ∀ {registry : Registry} {index tag}, holds registry →
    document.openTag? index = some tag →
    ∃ resolved, (registry.resolve tag.name tag.param).1 = .ok (some resolved)

/-- The engine is ready, and no call waits. -/
structure Engine.Free (holds : Registry → Prop) (settings : Settings) (engine : Engine) : Prop
    extends engine.Ready holds settings where
  deferred : engine.deferred = .empty

structure Engine.FreeAt (holds : Registry → Prop) (settings : Settings) (depth : Nat)
    (engine : Engine) : Prop extends engine.Free holds settings where
  depth : engine.depth = depth

/-- How the evaluation of nodes may end: they have been called in turn and there is a value,
or an error has stopped their calls. -/
inductive Visited (holds : Registry → Prop) (settings : Settings) (document : Document)
    (depth : Nat) (output : Nat → String) (nodes : List Node) {α : Type} (accepts : α → Prop)
    (before : Engine) : Except TemplateError α × Engine → Prop where
  | ok {a : α} {calls : List TagCall} {after : Engine} (accepted : accepts a)
      (ready : after.FreeAt holds settings depth)
      (turns : InTurn settings document output nodes calls before none after) :
      Visited holds settings document depth output nodes accepts before (.ok a, after)
  | error {error : TemplateError} {calls : List TagCall} {after : Engine}
      (turns : InTurn settings document output nodes calls before (some error) after) :
      Visited holds settings document depth output nodes accepts before (.error error, after)

section Visits

open Evaluation (Level enter leave)

variable {holds : Registry → Prop} {settings : Settings} {document : Document}
  {output base : Nat → String} {nodes more : List Node} {α β : Type} {accepts : α → Prop}
  {before inside engine : Engine} {depth levels : Nat} {level : Level}

namespace Visited

theorem map {x : Evaluation α} {accepts' : β → Prop} {f : α → β}
    (visited : Visited holds settings document depth output nodes accepts before (x.on before))
    (maps : ∀ a, accepts a → accepts' (f a)) :
    Visited holds settings document depth output nodes accepts' before
      (Evaluation.on (do return f (← x)) before) := by
  rw [Evaluation.on_bind]
  generalize x.on before = outcome at visited
  cases visited with
  | ok accepted ready turns => exact .ok (maps _ accepted) ready turns
  | error turns => exact .error turns

/-- What follows may give outputs to further tags. -/
theorem bind {x : Evaluation α} {f : α → Evaluation β} {fresh : List Nat}
    {accepts' : (Nat → String) → β → Prop}
    (first : Visited holds settings document depth output nodes accepts before (x.on before))
    (apart : ∀ node ∈ nodes, ∀ index ∈ node.indices, index ∉ fresh)
    (rest : ∀ a middle, accepts a → middle.FreeAt holds settings depth →
      ∃ output', (∀ index ∉ fresh, output' index = output index) ∧
        Visited holds settings document depth output' more (accepts' output') middle
          ((f a).on middle)) :
    ∃ output', (∀ index ∉ fresh, output' index = output index) ∧
      Visited holds settings document depth output' (nodes ++ more) (accepts' output') before
        (Evaluation.on (x >>= f) before) := by
  rw [Evaluation.on_bind]
  generalize x.on before = outcome at first
  cases first with
  | error turns => exact ⟨output, fun _ _ => rfl, .error (turns.extend more)⟩
  | ok accepted ready turns =>
      obtain ⟨output', kept, visited⟩ := rest _ _ accepted ready
      refine ⟨output', kept, ?_⟩
      have earlier := turns.congr fun node member index inside =>
        (kept index (apart node member index inside)).symm
      rw [Evaluation.proceed_ok]
      generalize Evaluation.on (f _) _ = outcome at visited
      cases visited with
      | ok accepted ready turns => exact .ok accepted ready (earlier.append turns)
      | error turns => exact .error (earlier.append turns)

end Visited

/-- A range is evaluated by calling the tags of its forest in turn, on a level of its own. -/
def Evaluation.Visits (holds : Registry → Prop) (settings : Settings) (document : Document)
    (levels : Nat) (level : Level) : Prop :=
  ∀ {start stop forest}, document.Forms start stop forest → ∀ {depth} (base : Nat → String) engine,
    engine.FreeAt holds settings depth → depth + levels = settings.maxDepth →
      ∃ output outcome, (∀ index ∉ forest.indices, output index = base index) ∧
        Visited holds settings document (depth + 1) output forest.nodes
          (· = forest.textWith settings output) (enter engine) outcome ∧
        (level document start stop).on engine = (outcome.1, leave outcome.2)

namespace Engine.FreeAt

theorem enter (ready : engine.FreeAt holds settings depth) :
    (Evaluation.enter engine).FreeAt holds settings (depth + 1) :=
  ⟨⟨⟨ready.settings, ready.holds⟩, ready.deferred⟩, congrArg (· + 1) ready.depth⟩

theorem leave (ready : engine.FreeAt holds settings (depth + 1)) :
    (Evaluation.leave engine).FreeAt holds settings depth :=
  ⟨⟨⟨ready.settings, ready.holds⟩, ready.deferred⟩, congrArg (· - 1) ready.depth⟩

theorem resolve (ready : engine.FreeAt holds settings depth)
    (serves : Registry.ServesAtOnce holds document) {index : Nat} {tag : Tag}
    (opens : document.openTag? index = some tag) :
    ∃ resolved met, engine.resolve tag.name tag.param = (.ok (some resolved), met) ∧
      met.FreeAt holds settings depth ∧ resolved.binding.convention.Immediate ∧
      resolved.binding.handler.Quiet holds := by
  obtain ⟨resolved, found⟩ := serves.bound ready.holds opens
  exact ⟨resolved, _, Prod.ext found rfl,
    ⟨⟨⟨ready.settings, serves.keeps ready.holds opens⟩, ready.deferred⟩, ready.depth⟩,
    serves.accepts ready.holds opens found, serves.quiet ready.holds opens found⟩

end Engine.FreeAt

namespace Evaluation.Visits

variable {node : Node} {closer : Option Nat} {resolved : Resolved}

/-- The body of a tag is the text of its forest, after the tags in it have been called. -/
theorem bodyText (visits : Visits holds settings document levels level) (base : Nat → String)
    (encloses : document.Encloses node.index closer node.body) {convention : Convention}
    (parsed : convention.rawBody = false) (ready : engine.FreeAt holds settings depth)
    (left : depth + levels = settings.maxDepth) :
    ∃ output outcome, (∀ i ∉ node.inner, output i = base i) ∧
      Visited holds settings document (depth + 1) output node.under
        (· = node.body.map (Forest.textWith settings output)) (enter engine) outcome ∧
      (Evaluation.bodyText level document convention node.index closer).on engine =
        (outcome.1, leave outcome.2) := by
  obtain ⟨index, tag, body⟩ := node
  cases encloses with
  | nothing =>
      exact ⟨base, (.ok none, enter engine), fun _ _ => rfl, .ok rfl ready.enter .nil, rfl⟩
  | @body closer forest forms =>
      obtain ⟨output, ⟨result, reached⟩, kept, visited, evaluated⟩ :=
        visits forms base engine ready left
      refine ⟨output, (result.map some, reached), kept, ?_, ?_⟩
      · cases visited with
        | ok accepted ready turns => exact .ok (congrArg some accepted) ready turns
        | error turns => exact .error turns
      · simp only [Evaluation.bodyText, parsed, Bool.false_eq_true, if_false, on_bind, evaluated]
        cases result <;> rfl

/-- What the handler of a tag returns is the output of the tag. -/
theorem handler (level : Level) (immediate : resolved.binding.convention.Immediate)
    (quiet : resolved.binding.handler.Quiet holds) {call : TagCall} {inner : List TagCall}
    {reached : Engine} (fresh : node.index ∉ node.inner)
    (entered : node.Entered resolved before inside)
    (within : InTurn settings document output node.under inner inside none reached)
    (made : node.call settings document output resolved = .ok call)
    (ready : reached.FreeAt holds settings (depth + 1)) :
    ∃ output', (∀ i ∉ [node.index], output' i = output i) ∧
      Visited holds settings document depth output' [node] (· = output' node.index) before
        (Evaluation.on (do
          again level resolved.binding.convention
            (← resolved.binding.runNamed (host level) call)) (leave reached)) := by
  have ran := quiet.run (host level) call (leave reached)
  have anyHost := fun other => quiet.host_eq (host level) other call (leave reached)
  have effect : Engine.Effect true 0 (leave reached)
      (Evaluation.on (resolved.binding.runNamed (host (range 0)) call) (leave reached)).2 :=
    (hasEffect_range 0).runNamed resolved.binding call _ _ _ rfl
  have scope := effect.scope_eq.2.1
  rw [on_runNamed, anyHost] at scope
  rw [on_bind, on_runNamed]
  generalize Evaluation.on (resolved.binding.run (host level) call) (leave reached) = outcome
    at ran anyHost scope
  obtain ⟨result, after⟩ := outcome
  obtain ⟨unchanged, keeps, deferred, noted⟩ := ran
  cases result with
  | error error =>
      exact ⟨output, fun _ _ => rfl, .error (.failed entered within made anyHost noted)⟩
  | ok text =>
      have others : ∀ i ∉ [node.index], Function.update output node.index text i = output i :=
        fun i other => Function.update_of_ne (by simpa using other) text output
      refine ⟨Function.update output node.index text, others, ?_⟩
      simp only [Except.mapError, proceed_ok, again, immediate.once, Bool.false_eq_true, if_false,
        on_pure]
      have updated : Function.update output node.index text node.index = text :=
        Function.update_self ..
      have inner : ∀ i ∈ node.inner, output i = Function.update output node.index text i := by
        intro i member
        exact (others i (by simpa using ne_of_mem_of_not_mem member fresh)).symm
      have below := within.congr (Node.agree_under inner)
      have turns : InTurn settings document (Function.update output node.index text) [node]
          (_ ++ [call]) before none after :=
        .call entered below (Node.call_congr inner ▸ made) (by simpa only [updated] using anyHost)
          noted .nil
      exact .ok updated.symm ⟨⟨⟨unchanged.trans ready.settings, keeps ready.holds⟩,
        deferred.trans ready.deferred⟩, scope.trans ready.leave.depth⟩ turns

theorem callTag (visits : Visits holds settings document levels level) (base : Nat → String)
    (serves : Registry.ServesAtOnce holds document)
    (opens : document.openTag? node.index = some node.tag)
    (encloses : document.Encloses node.index closer node.body)
    (fresh : node.index ∉ node.inner) (ready : engine.FreeAt holds settings depth)
    (left : depth + levels = settings.maxDepth) :
    ∃ output, (∀ i ∉ node.indices, output i = base i) ∧
      Visited holds settings document depth output [node] (· = output node.index) engine
        ((Evaluation.callTag level document node.index node.tag closer).on engine) := by
  obtain ⟨resolved, met, looked, readyMet, immediate, quiet⟩ := ready.resolve serves opens
  have present := encloses.isSome_eq
  simp only [Evaluation.callTag, on_bind, on_step, looked, proceed_ok, callResolved_eq,
    immediate.inPlace, Bool.false_eq_true, if_false, on_check, checked, readyMet.settings]
  cases violation : callViolation resolved.binding.convention resolved.param closer.isSome with
  | some violation =>
      rw [← present] at violation
      exact ⟨base, fun _ _ => rfl, .error (.refused looked violation)⟩
  | none =>
      rw [← present] at violation
      have entered : node.Entered resolved engine (enter (recordCall node.tag.name met)) :=
        ⟨⟨met, looked, rfl⟩, violation⟩
      have recorded : (recordCall node.tag.name met).FreeAt holds settings depth :=
        ⟨⟨⟨readyMet.settings, readyMet.holds⟩, readyMet.deferred⟩, readyMet.depth⟩
      obtain ⟨output, ⟨result, reached⟩, kept, visited, evaluated⟩ :=
        visits.bodyText base encloses immediate.parsed recorded left
      have outer : ∀ i ∉ node.indices, output i = base i :=
        fun i outside => kept i fun member => outside (List.mem_cons_of_mem _ member)
      simp only [proceed_ok, on_bind, on_change, prepare, evaluated]
      cases visited with
      | error turns => exact ⟨output, outer, .error (.inside entered turns)⟩
      | @ok text calls _ accepted readyReached turns =>
          have asked : decoded settings document node.tag resolved
              (sides resolved closer.isSome text).1 (sides resolved closer.isSome text).2 =
                node.call settings document output resolved := by
            rw [Node.call, present, ← accepted]
          simp only [proceed_ok, on_bind, on_get, on_settle, readyReached.leave.settings, asked]
          cases made : node.call settings document output resolved with
          | error error => exact ⟨output, outer, .error (.undecoded entered turns made)⟩
          | ok call =>
              obtain ⟨output', kept', called⟩ :=
                handler level immediate quiet fresh entered turns made readyReached
              refine ⟨output', fun i outside => ?_, called⟩
              have apart : i ∉ [node.index] :=
                fun member => outside (by simp_all [Node.indices])
              rw [kept' i apart, outer i outside]

/-- A tag is called before the tags behind it. -/
theorem cons (visits : Visits holds settings document levels level) (base : Nat → String)
    (serves : Registry.ServesAtOnce holds document)
    (opens : document.openTag? node.index = some node.tag)
    (encloses : document.Encloses node.index closer node.body) {rest : Forest}
    (distinct : (node.indices ++ rest.indices).Nodup)
    (behind : ∀ (base : Nat → String) (engine : Engine), engine.FreeAt holds settings depth →
      ∃ output, (∀ i ∉ rest.indices, output i = base i) ∧
        Visited holds settings document depth output rest.nodes
          (· = rest.textWith settings output) engine
          ((Evaluation.items level document rest.items).on engine))
    (ready : engine.FreeAt holds settings depth) (left : depth + levels = settings.maxDepth) :
    ∃ output, (∀ i ∉ node.indices ++ rest.indices, output i = base i) ∧
      Visited holds settings document depth output (node :: rest.nodes)
        (· = output node.index ++ rest.textWith settings output) engine
        ((Evaluation.items level document (.call node.index node.tag closer :: rest.items)).on
          engine) := by
  obtain ⟨own, _, disjoint⟩ := List.nodup_append.mp distinct
  have fresh : node.index ∉ node.inner := (List.nodup_cons.mp own).1
  obtain ⟨first, kept, called⟩ := visits.callTag base serves opens encloses fresh ready left
  have apart : ∀ other ∈ [node], ∀ i ∈ other.indices, i ∉ rest.indices := by
    intro other member i inside beyond
    cases List.mem_singleton.mp member
    exact disjoint i inside i beyond rfl
  have outside : node.index ∉ rest.indices := apart node (by simp) _ List.mem_cons_self
  have continued : ∀ head middle, head = first node.index → middle.FreeAt holds settings depth →
      ∃ output, (∀ i ∉ rest.indices, output i = first i) ∧
        Visited holds settings document depth output rest.nodes
          (· = output node.index ++ rest.textWith settings output) middle
          (Evaluation.on (do
            return head ++ (← Evaluation.items level document rest.items)) middle) := by
    rintro _ middle rfl readyMiddle
    obtain ⟨output, kept, visited⟩ := behind first middle readyMiddle
    refine ⟨output, kept, visited.map ?_⟩
    rintro _ rfl
    rw [kept node.index outside]
  obtain ⟨output, kept', visited⟩ := called.bind apart continued
  refine ⟨output, ?_, visited⟩
  intro i beyond
  rw [List.mem_append, not_or] at beyond
  rw [kept' i beyond.2, kept i beyond.1]

/-- The tags of a range are called in turn. -/
theorem items (visits : Visits holds settings document levels level) (base : Nat → String)
    (serves : Registry.ServesAtOnce holds document) {start stop : Nat} {forest : Forest}
    (forms : document.Forms start stop forest) (ready : engine.FreeAt holds settings depth)
    (left : depth + levels = settings.maxDepth) :
    ∃ output, (∀ i ∉ forest.indices, output i = base i) ∧
      Visited holds settings document depth output forest.nodes
        (· = forest.textWith settings output) engine
        ((Evaluation.items level document forest.items).on engine) := by
  induction forms generalizing base engine with
  | nil here => exact ⟨base, fun _ _ => rfl, .ok rfl ready .nil⟩
  | @text start stop s rest found behind ih =>
      obtain ⟨output, kept, visited⟩ := ih base ready
      refine ⟨output, kept, visited.map (f := (s ++ ·)) ?_⟩
      rintro _ rfl
      rfl
  | @dangling start stop tag rest found unnamed role behind ih =>
      obtain ⟨output, kept, visited⟩ := ih base ready
      refine ⟨output, kept, ?_⟩
      rw [Forest.items, Evaluation.items, on_bind, on_dangling, ready.settings]
      refine visited.map (f := (settings.danglingText tag ++ ·)) ?_
      rintro _ rfl
      rfl
  | @single start stop tag rest found named role behind ih =>
      have forms := Document.Forms.single found named role behind
      let node : Node := ⟨start, tag, none⟩
      have opens : document.openTag? node.index = some node.tag :=
        Document.openTag?_eq_some_iff.mpr ⟨found, named⟩
      exact visits.cons base serves opens .nothing forms.indices_nodup
        (fun base engine ready => ih base ready) ready left
  | @pair start stop closer tag closeTag inner rest found named role inside closeFound unnamed
      behind _ ih =>
      have forms := Document.Forms.pair found named role inside closeFound unnamed behind
      let node : Node := ⟨start, tag, some inner⟩
      have opens : document.openTag? node.index = some node.tag :=
        Document.openTag?_eq_some_iff.mpr ⟨found, named⟩
      exact visits.cons base serves opens (.body inside) forms.indices_nodup
        (fun base engine ready => ih base ready) ready left

end Evaluation.Visits

theorem Evaluation.visits_range (serves : Registry.ServesAtOnce holds document) (levels : Nat) :
    Visits holds settings document levels (range levels) := by
  induction levels with
  | zero =>
      intro start stop forest forms depth base engine ready left
      have deep : settings.maxDepth < (enter engine).depth := by
        rw [ready.enter.depth]
        omega
      refine ⟨base, (.error (.recursionLimit settings.maxDepth), enter engine), fun _ _ => rfl,
        .error (.limit deep), ?_⟩
      rw [← ready.settings]
      rfl
  | succ levels ih =>
      intro start stop forest forms depth base engine ready left
      obtain ⟨output, kept, visited⟩ := ih.items base serves forms ready.enter (by omega)
      refine ⟨output, _, kept, visited, ?_⟩
      rw [range, on_between, forms.outline_eq]

end Visits

open Evaluation (enter leave drained)

/-- If every tag is called at once and no handler expands anything, the handlers are called
in the post-order of the forest of the document, every open tag once, each with the text of
its body; an error stops the calls within this order.  A handler is what the engine finds for
its tag at that moment, and the output of a tag is what its handler then returns. -/
theorem Engine.calls_postOrder {engine : Engine} {holds : Registry → Prop}
    (reachable : engine.Reachable) (initial : holds engine.registry)
    (serves : Registry.ServesAtOnce holds engine.document) (batches : Nat) :
    ∃ forest output calls result after reached,
      engine.document.Forms 0 engine.document.size forest ∧
      (forest.postOrder.map Node.index).Nodup ∧
      (∀ index, index ∈ forest.postOrder.map Node.index ↔
        ∃ tag, engine.document.openTag? index = some tag) ∧
      (Expansion.evaluate batches).run engine = some (result, after) ∧
      after.calls = engine.calls ++ calls ∧
      match result with
      | .ok text =>
        text = forest.textWith engine.settings output ∧
          List.Forall₂ (Node.Called engine.settings output) forest.postOrder calls ∧
          InTurn engine.settings engine.document output forest.nodes calls
            (enter (Expansion.begin engine)) none reached ∧
          after = Expansion.finish (drained (leave reached))
      | .error error =>
        (∃ served, served <+: forest.postOrder ∧
          List.Forall₂ (Node.Called engine.settings output) served calls) ∧
          InTurn engine.settings engine.document output forest.nodes calls
            (enter (Expansion.begin engine)) (some error) reached ∧
          after = Expansion.finish (leave reached) := by
  have atRest := reachable.atRest
  obtain ⟨forest, forms⟩ := atRest.parsed.exists_forest
  have begun : (Expansion.begin engine).FreeAt holds engine.settings 0 :=
    ⟨⟨⟨rfl, initial⟩, rfl⟩, rfl⟩
  obtain ⟨output, ⟨result, reached⟩, -, visited, evaluated⟩ :=
    Evaluation.visits_range serves engine.settings.maxDepth forms (fun _ => "") _ begun
      (Nat.zero_add _)
  have ran : (Expansion.evaluate batches).run engine =
      (Expansion.document batches engine.document).run engine :=
    Expansion.run_answer batches .evaluate atRest.idle.evaluating
  rw [Expansion.run_document, Evaluation.whole, evaluated] at ran
  have order := forest.postOrder_perm
  have found : ∀ index, index ∈ forest.postOrder.map Node.index ↔
      ∃ tag, engine.document.openTag? index = some tag := by
    intro index
    rw [order.mem_iff, forms.mem_indices_iff]
    constructor
    · rintro ⟨_, _, opens⟩
      exact opens
    · rintro ⟨tag, opens⟩
      exact ⟨Nat.zero_le _, Document.lt_size_of_openTag? opens, tag, opens⟩
  have distinct := order.nodup_iff.mpr forms.indices_nodup
  cases visited with
  | @ok text calls _ accepted ready turns =>
      have waiting : (leave reached).deferred.entries = [] := by
        rw [ready.leave.deferred]
        rfl
      rw [Expansion.proceed, Expansion.run_replay_of_empty waiting, Option.map_some] at ran
      obtain ⟨served, -, all, called⟩ := turns.called
      rw [all rfl, ← forest.postOrder_eq] at called
      exact ⟨forest, output, calls, _, _, reached, forms, distinct, found, ran, turns.calls_eq,
        accepted, called, turns, rfl⟩
  | @error error calls _ turns =>
      rw [Expansion.proceed, Option.map_some] at ran
      obtain ⟨served, first, -, called⟩ := turns.called
      rw [← forest.postOrder_eq] at first
      exact ⟨forest, output, calls, _, _, reached, forms, distinct, found, ran, turns.calls_eq,
        ⟨served, first, called⟩, turns, rfl⟩

/-- A binding that writes the tag and its body between brackets. -/
def Binding.bracketing : Binding :=
  ⟨fun call => .done ("<" ++ call.tag ++ call.body.asText ++ ">"), .default, false⟩

def Registry.bracketing : Registry :=
  ⟨⟨":", [(catchAll, .bracketing)]⟩, none⟩

theorem Registry.serves_bracketing (document : Document) :
    Registry.ServesAtOnce (· = .bracketing) document where
  toServes := by
    apply Registry.serves_of_still rfl
    intro name binding member
    cases List.mem_singleton.mp member
    exact ⟨⟨rfl, rfl, rfl⟩, fun call => .done _⟩
  bound := by
    rintro _ index tag rfl _
    exact ⟨⟨.bracketing, tag.name, tag.param⟩, rfl⟩

/-- An engine that writes every tag between brackets. -/
def Engine.bracketing : Engine :=
  ((Action.load "x\x7ba:\x7dy\x7bb:\x7dz\x7b:a\x7d").perform (shallow .bracketing)).2

def Document.bracketing : Document :=
  ⟨"x\x7ba:\x7dy\x7bb:\x7dz\x7b:a\x7d",
    #[.literal "x", .tag ⟨"a", "", 1, 5⟩, .literal "y", .tag ⟨"b", "", 6, 10⟩, .literal "z",
      .tag ⟨"", "a", 11, 15⟩, .literal ""],
    #[none, some (.closedAt 5), none, some .selfClosed, none, some (.closes 1), none]⟩

theorem Engine.bracketing_eq :
    bracketing = { shallow .bracketing with document := .bracketing } := by
  have parsed : Document.parse .default Document.bracketing.source = .ok .bracketing := by
    decide +kernel
  simp only [Document.bracketing] at parsed
  simp only [bracketing, Action.perform, load, parse, shallow, parsed, Document.bracketing]

/-- The tag inside the pair is called first. -/
theorem Engine.calls_postOrder_bracketing :
    bracketing.Reachable ∧ ∃ forest output calls after reached,
      bracketing.document.Forms 0 bracketing.document.size forest ∧
      (Expansion.evaluate 0).run bracketing = some (.ok "x<ay<b>z>", after) ∧
      after.calls = bracketing.calls ++ calls ∧
      after.calls.map (fun call => (call.tag, call.body.asText)) = [("b", ""), ("a", "y<b>z")] ∧
      List.Forall₂ (Node.Called bracketing.settings output) forest.postOrder calls ∧
      InTurn bracketing.settings bracketing.document output forest.nodes calls
        (enter (Expansion.begin bracketing)) none reached := by
  have reachable : bracketing.Reachable := .acted (reachable_shallow _) _
  have initial : bracketing.registry = .bracketing := by rw [bracketing_eq]; rfl
  have observed : ((Expansion.evaluate 0).run bracketing).map (fun outcome =>
      (outcome.1, outcome.2.calls.map fun call => (call.tag, call.body.asText))) =
        some (.ok "x<ay<b>z>", [("b", ""), ("a", "y<b>z")]) := by
    rw [bracketing_eq]
    decide +kernel
  obtain ⟨forest, output, calls, result, after, reached, forms, _, _, ran, noted, ended⟩ :=
    calls_postOrder reachable initial (Registry.serves_bracketing _) 0
  rw [ran] at observed
  obtain ⟨rfl, called⟩ := Prod.mk.inj (Option.some.inj observed)
  obtain ⟨-, whole, turns, -⟩ := ended
  exact ⟨reachable, forest, output, calls, after, reached, forms, ran, noted, called, whole, turns⟩

end TagTemplate
