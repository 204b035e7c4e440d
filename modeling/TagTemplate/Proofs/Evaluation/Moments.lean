import Mathlib.Logic.Relation
import TagTemplate.Proofs.Evaluation.Invocation

/-!
An evaluation step by step.

A moment of an evaluation says what is being done, what waits for the result of it, and on
which engine.  Each moment has at most one next moment, so that an evaluation is a walk, and
every call of a handler and every request of a handler is a step of its own.  The walk
realises the evaluation: it ends with the same result on the same engine.
-/

namespace TagTemplate

/-- A level that is open. -/
structure OpenLevel where
  document : Document
  /-- the tags that have been called on the level, newest first -/
  called : List Tag
  /-- what has been written so far -/
  output : String
  /-- what is still to be evaluated -/
  rest : List Item

/-- What is done at a moment. -/
inductive Task where
  | text (source : String)
  | range (document : Document) (start stop : Nat)
  | items (level : OpenLevel)
  /-- a tag is called that is recorded already -/
  | invoke (invocation : Invocation)
  /-- the text of the body of a call is known -/
  | deliver (invocation : Invocation) (slot : Option Nat) (body : Option String)
  /-- the rest of a handler is run -/
  | program (program : Program)
  /-- a result is handed back -/
  | result (result : Except TemplateError String)

/-- What waits for a result. -/
inductive Waiter where
  /-- a level on which a tag is being called -/
  | calling (level : OpenLevel) (tag : Tag)
  /-- a call whose body is being evaluated -/
  | body (invocation : Invocation) (slot : Option Nat)
  /-- a call whose handler is running -/
  | handling (invocation : Invocation) (call : TagCall)
  /-- a handler that has requested an expansion -/
  | request (next : Except TemplateError String → Program)

structure Moment where
  /-- the number of levels that may still be opened -/
  levels : Nat
  task : Task
  /-- what waits for the result, the first of it first -/
  waiters : List Waiter
  engine : Engine

namespace Moment

variable (moment : Moment)

def give (result : Except TemplateError String) : Moment :=
  { moment with task := .result result }

def leave (result : Except TemplateError String) : Moment :=
  { moment with
    levels := moment.levels + 1
    task := .result result
    engine := Evaluation.leave moment.engine }

def await (waiter : Waiter) : Moment :=
  { moment with waiters := waiter :: moment.waiters }

def handle (binding : Binding) (call : TagCall) : Moment :=
  { moment with
    task := .program (binding.handler call)
    engine := moment.engine.record
      [.called call binding.builtIn moment.engine.depth moment.engine.callStack.depth] }

def text (source : String) : Moment :=
  match moment.engine.parse source with
  | .ok document => { moment with task := .range document 0 document.size }
  | .error error => moment.give (.error error)

def range (document : Document) (start stop : Nat) : Moment :=
  match moment.levels with
  | 0 => moment.give (.error (.recursionLimit moment.engine.settings.maxDepth))
  | levels + 1 =>
    { moment with
      levels
      task := .items ⟨document, [], "", document.outline start stop⟩
      engine := Evaluation.enter moment.engine }

def items (level : OpenLevel) : Moment :=
  match level.rest with
  | [] => moment.leave (.ok level.output)
  | first :: rest =>
    match first.meet level.document moment.engine with
    | (.error error, engine) => { moment with engine }.leave (.error error)
    | (.ok (.written s), engine) =>
      { moment with task := .items { level with output := level.output ++ s, rest }, engine }
    | (.ok (.invoked invocation), engine) =>
      { moment with
        task := .invoke invocation
        engine := Evaluation.recordCall invocation.tag.name engine }.await
          (.calling { level with rest } invocation.tag)

def invoke (invocation : Invocation) : Moment :=
  let (slot, engine) := invocation.reserve moment.engine
  match invocation.closer with
  | none => { moment with task := .deliver invocation slot none, engine }
  | some closer =>
    if invocation.convention.rawBody then
      let body := invocation.document.raw engine.settings.delimiters (invocation.index + 1) closer
      { moment with task := .deliver invocation slot (some body), engine }
    else
      { moment with
        task := .range invocation.document (invocation.index + 1) closer
        engine }.await (.body invocation slot)

def deliver (invocation : Invocation) (slot : Option Nat) (body : Option String) : Moment :=
  match invocation.call moment.engine.settings body with
  | .error error => moment.give (.error error)
  | .ok call =>
    match slot with
    | some slot =>
      { moment with
        engine := Evaluation.fillSlot slot ⟨invocation.binding, call⟩ moment.engine }.give (.ok "")
    | none => (moment.await (.handling invocation call)).handle invocation.binding call

def program : Program → Moment
  | .done text => moment.give (.ok text)
  | .fail error => moment.give (.error error)
  | .inspect next => { moment with task := .program (next moment.engine.view) }
  | .act action next =>
    let (answer, engine) := action.perform moment.engine
    { moment with task := .program (next answer), engine }
  | .expand text next | .render text next =>
    { moment with task := .text text }.await (.request next)
  | .evaluate next =>
    let document := moment.engine.document
    { moment with task := .range document 0 document.size }.await (.request next)
  | .register name handler convention next =>
    let (answer, engine) := moment.engine.register name ⟨handler, convention, false⟩
    { moment with task := .program (next answer), engine }
  | .setAutoload autoload next =>
    { moment with task := .program next, engine := moment.engine.setAutoload autoload }

/-- Hands a result to what waits for it. -/
def resume (result : Except TemplateError String) : Waiter → Moment
  | .calling level tag =>
    match result with
    | .ok s =>
      { moment with
        task := .items { level with called := tag :: level.called, output := level.output ++ s } }
    | .error error => moment.leave (.error error)
  | .body invocation slot =>
    match result with
    | .ok s => { moment with task := .deliver invocation slot (some s) }
    | .error error => moment.give (.error error)
  | .handling invocation call =>
    match result with
    | .ok output =>
      if invocation.convention.redo then { moment with task := .text output }
      else moment.give (.ok output)
    | .error error => moment.give (.error (error.attributedTo call.name))
  | .request next => { moment with task := .program (next result) }

/-- The next moment.  None is left when nothing waits for a result. -/
def next : Option Moment :=
  match moment.task with
  | .text source => some (moment.text source)
  | .range document start stop => some (moment.range document start stop)
  | .items level => some (moment.items level)
  | .invoke invocation => some (moment.invoke invocation)
  | .deliver invocation slot body => some (moment.deliver invocation slot body)
  | .program program => some (moment.program program)
  | .result result =>
    match moment.waiters with
    | [] => none
    | waiter :: waiters => some ({ moment with waiters }.resume result waiter)

/-- A walk from one moment to another. -/
def Leads : Moment → Moment → Prop :=
  Relation.ReflTransGen fun before after => before.next = some after

variable {moment} {before middle after : Moment}

theorem Leads.refl (moment : Moment) : moment.Leads moment :=
  Relation.ReflTransGen.refl

theorem Leads.trans (first : before.Leads middle) (second : middle.Leads after) :
    before.Leads after :=
  Relation.ReflTransGen.trans first second

theorem Leads.step (stepped : before.next = some middle) (rest : middle.Leads after) :
    before.Leads after :=
  Relation.ReflTransGen.head stepped rest

/-- The moment a number of steps later, if the walk does not end before. -/
def later : Nat → Moment → Option Moment
  | 0, moment => some moment
  | count + 1, moment => moment.next.bind (later count)

theorem leads_of_later {count : Nat} (reached : later count before = some after) :
    before.Leads after := by
  induction count generalizing before with
  | zero =>
      cases reached
      exact .refl _
  | succ count ih =>
      obtain ⟨middle, stepped, rest⟩ := Option.bind_eq_some_iff.mp reached
      exact .step stepped (ih rest)

end Moment

namespace Evaluation

open Moment (Leads)

/-- A walk that begins with a task ends as an evaluation does. -/
def RealisedBy (x : Evaluation String) (levels : Nat) (task : Task) : Prop :=
  ∀ waiters engine, Leads ⟨levels, task, waiters, engine⟩
    ⟨levels, .result (x.on engine).1, waiters, (x.on engine).2⟩

variable {levels : Nat}

/-- The ranges of a level are realised. -/
def RealisesRanges (levels : Nat) : Prop :=
  ∀ document start stop, (range levels document start stop).RealisedBy levels
    (.range document start stop)

theorem map_append_map (front behind : String) (result : Except TemplateError String) :
    (result.map (behind ++ ·)).map (front ++ ·) = result.map (front ++ behind ++ ·) := by
  cases result <;> simp [Except.map, String.append_assoc]

theorem map_self (result : Except TemplateError String) :
    result.map (fun text => text) = result := by
  cases result <;> rfl

namespace RealisesRanges

variable (realises : RealisesRanges levels)

include realises

theorem text (source : String) :
    (text (range levels) source).RealisedBy levels (.text source) := by
  intro waiters engine
  refine .step rfl ?_
  simp only [Evaluation.text, on_bind, on_step, Moment.text]
  cases engine.parse source with
  | error error => exact .refl _
  | ok document => exact realises document 0 document.size waiters engine

theorem program (program : Program) :
    Evaluation.RealisedBy (program.run (host (range levels))) levels (.program program) := by
  intro waiters engine
  induction program using Program.run.induct generalizing engine with
  | case1 text | case2 error => exact .step rfl (.refl _)
  | case3 next ih =>
      refine .step rfl ?_
      simp only [Program.run, on_bind, on_get, proceed_ok]
      exact ih engine engine
  | case4 action next ih =>
      refine .step rfl ?_
      simp only [Program.run, on_bind, on_step, proceed_ok]
      exact ih _ _
  | case5 source next ih | case6 source next ih =>
      refine .step rfl (.trans (realises.text source _ engine) (.step rfl ?_))
      simp only [Program.run, on_bind, on_attempt, proceed_ok]
      exact ih _ _
  | case7 next ih =>
      refine .step rfl (.trans (realises _ _ _ _ engine) (.step rfl ?_))
      simp only [Program.run, on_bind, on_attempt, proceed_ok]
      exact ih _ _
  | case8 name handler convention next ih =>
      refine .step rfl ?_
      simp only [Program.run, on_bind, on_attempt, on_step, proceed_ok]
      exact ih _ _
  | case9 autoload next ih =>
      refine .step rfl ?_
      simp only [Program.run, on_bind, on_change, proceed_ok]
      exact ih _

/-- A handler runs until it hands its result to what waits for it. -/
theorem handle (binding : Binding) (call : TagCall) (waiters : List Waiter) (task : Task)
    (engine : Engine) :
    let ran := Evaluation.on (binding.run (host (range levels)) call) engine
    (Moment.handle ⟨levels, task, waiters, engine⟩ binding call).Leads
      ⟨levels, .result ran.1, waiters, ran.2⟩ := by
  simp only [Binding.run, on_bind, on_change, proceed_ok]
  exact realises.program (binding.handler call) waiters _

theorem conclude (invocation : Invocation) (slot : Option Nat) (body : Option String) :
    (invocation.conclude (range levels) slot body).RealisedBy levels
      (.deliver invocation slot body) := by
  intro waiters engine
  refine .step rfl ?_
  simp only [Invocation.conclude, Moment.deliver, on_bind, on_get, on_settle, proceed_ok]
  cases invocation.call engine.settings body with
  | error error => exact .refl _
  | ok call =>
      cases slot with
      | some slot => exact .refl _
      | none =>
          refine .trans (realises.handle invocation.binding call _ _ engine) (.step rfl ?_)
          simp only [proceed_ok, on_bind, on_runNamed]
          rcases Evaluation.on (invocation.binding.run (host (range levels)) call) engine with
            ⟨error | output, after⟩
          · exact .refl _
          · simp only [Moment.resume, Evaluation.again]
            cases invocation.convention.redo with
            | false => exact .refl _
            | true => exact realises.text output waiters after

theorem invoke (invocation : Invocation) :
    (invocation.run (range levels)).RealisedBy levels (.invoke invocation) := by
  intro waiters engine
  refine .step rfl ?_
  simp only [Invocation.run, Moment.invoke, on_bind, on_step, proceed_ok, bodyText]
  generalize (invocation.reserve engine).1 = slot, (invocation.reserve engine).2 = reserved
  cases invocation.closer with
  | none => exact realises.conclude invocation slot none waiters reserved
  | some closer =>
      dsimp only
      cases invocation.convention.rawBody with
      | true => exact realises.conclude invocation slot _ waiters reserved
      | false =>
          refine .trans (realises _ _ _ _ reserved) (.step rfl ?_)
          simp only [Bool.false_eq_true, if_false, on_bind]
          rcases (range levels invocation.document (invocation.index + 1) closer).on reserved with
            ⟨error | output, after⟩
          · exact .refl _
          · exact realises.conclude invocation slot _ waiters after

/-- The rest of a level goes behind what has been written on it. -/
theorem items (level : OpenLevel) (waiters : List Waiter) (engine : Engine) :
    let rest := (Evaluation.items (range levels) level.document level.rest).on engine
    Leads ⟨levels, .items level, waiters, engine⟩
      ⟨levels + 1, .result (rest.1.map (level.output ++ ·)), waiters, Evaluation.leave rest.2⟩ := by
  obtain ⟨document, called, output, items⟩ := level
  induction items generalizing called output engine with
  | nil =>
      refine .step rfl ?_
      simp only [Evaluation.items, on_pure, Except.map, String.append_empty]
      exact .refl _
  | cons first items ih =>
      have evaluated := on_item (range levels) document first engine
      refine .step rfl ?_
      simp only [Moment.items]
      rcases met : first.meet document engine with ⟨error | text | invocation, middle⟩ <;>
        rw [met] at evaluated
      · simp only [Evaluation.items, on_bind, evaluated]
        exact .refl _
      · rw [on_items_cons evaluated, map_append_map]
        exact ih middle called (output ++ text)
      · refine .trans (realises.invoke invocation _ _) (.step rfl ?_)
        dsimp only at evaluated
        rw [← evaluated]
        rcases ran : (item (range levels) document first).on engine with ⟨error | text, after⟩
        · simp only [Evaluation.items, on_bind, ran]
          exact .refl _
        · rw [on_items_cons ran, map_append_map]
          exact ih after _ _

end RealisesRanges

/-- The walk that begins with a range of segments ends as the evaluation of the range
does. -/
theorem realises_range (levels : Nat) : RealisesRanges levels := by
  induction levels with
  | zero => exact fun document start stop waiters engine => .step rfl (.refl _)
  | succ levels ih =>
      intro document start stop waiters engine
      have walked := ih.items ⟨document, [], "", document.outline start stop⟩ waiters (enter engine)
      simp only [String.empty_append, map_self] at walked
      exact .step rfl walked

end Evaluation

end TagTemplate
