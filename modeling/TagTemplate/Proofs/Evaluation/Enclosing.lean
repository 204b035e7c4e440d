import TagTemplate.Proofs.Evaluation.Moments
import TagTemplate.Proofs.Evaluation.Quiet

/-!
Which slots a handler reaches.

Every open level has a frame.  It begins with the call that is being made on the level, and
the calls that have ended on the level stand behind it, newest first.  A handler reaches the
first entry of a name in the first frame that has one, so that it reaches the slot of the
innermost call around it of that name unless a call of that name has ended on a level
further inside.
-/

namespace TagTemplate

namespace Engine

/-- Requests for the slot of a name read and fill one slot, that of an entry of the name:
`frame` and `position` count the newer frames and the newer entries of its frame. -/
def ReachesSlot (engine : Engine) (name : String) (frame position : Nat) : Prop :=
  ∃ place : CallStack.Place, place.stack = engine.callStack ∧ place.nearer.length = frame ∧
    place.front.length = position ∧ place.entry.name = name ∧
    engine.view.callStack.get name = .ok place.entry.slot ∧
    ∀ value, (Action.setSlot name value).perform engine =
      (.ok (), { engine with callStack := (place.fill value).stack })

/-- Requests for the slot of a name fail and change nothing. -/
def MissesSlot (engine : Engine) (name : String) : Prop :=
  engine.view.callStack.get name = .error (.callStackMiss name) ∧
    ∀ value, (Action.setSlot name value).perform engine = (.error (.callStackMiss name), engine)

variable {engine : Engine} {name : String}

theorem reachesSlot_of_names {nearer farther : List (List String)} {front behind : List String}
    (names : engine.callStack.names = nearer ++ (front ++ name :: behind) :: farther)
    (none : ∀ frame ∈ nearer, name ∉ frame) (first : name ∉ front) :
    engine.ReachesSlot name nearer.length front.length := by
  obtain ⟨place, stacked, frame, position, newest⟩ := CallStack.exists_newest names none first
  refine ⟨place, stacked, frame, position, newest.named, ?_, ?_⟩
  · rw [view, ← stacked, CallStack.get_of_newest newest]
  · intro value
    simp only [Action.perform, setSlot, ← stacked, CallStack.set_of_newest newest]

theorem missesSlot_of_names (missing : ∀ frame ∈ engine.callStack.names, name ∉ frame) :
    engine.MissesSlot name := by
  refine ⟨CallStack.get_of_missing missing, ?_⟩
  intro value
  simp only [Action.perform, setSlot, CallStack.set_of_missing missing]

theorem ReachesSlot.not_missesSlot {frame position : Nat}
    (reached : engine.ReachesSlot name frame position) : ¬ engine.MissesSlot name := by
  obtain ⟨place, -, -, -, -, got, -⟩ := reached
  intro missed
  have same := got.symm.trans missed.1
  cases same

end Engine

theorem Item.meet_keeps (document : Document) (engine : Engine) (item : Item) :
    (item.meet document engine).2.callStack.names = engine.callStack.names ∧
      (item.meet document engine).2.calls = engine.calls := by
  rcases item.engine_of_meet document engine with same | ⟨tag, same⟩ <;> rw [same]
  · exact ⟨rfl, rfl⟩
  · exact ⟨(Engine.acted _ engine).names, Engine.calls_perform _⟩

theorem Invocation.reserve_keeps (invocation : Invocation) (engine : Engine) :
    (invocation.reserve engine).2.callStack = engine.callStack ∧
      (invocation.reserve engine).2.calls = engine.calls := by
  unfold reserve
  split <;> exact ⟨rfl, rfl⟩

/-- A call that has not ended yet. -/
structure OngoingCall where
  tag : Tag
  /-- the tags of the calls that have ended on the same level, newest first -/
  ended : List Tag

/-- The names on the frame of the level of a call. -/
def OngoingCall.frame (call : OngoingCall) : List String :=
  (call.tag :: call.ended).map Tag.name

def OngoingCall.EndedBeside (call : OngoingCall) (name : String) : Prop :=
  name ∈ call.ended.map Tag.name

def Waiter.ongoing? : Waiter → Option OngoingCall
  | .calling level tag => some ⟨tag, level.called⟩
  | _ => none

/-- A call is made on the level that waits for it. -/
def Tag.IsCalled (tag : Tag) : List Waiter → Prop
  | .calling _ called :: _ => called = tag
  | _ => False

/-- What belongs to a call waits in front of the level of the call. -/
def Waiter.InOrder : List Waiter → Prop
  | [] => True
  | .body invocation _ :: rest | .handling invocation _ :: rest =>
    invocation.tag.IsCalled rest ∧ InOrder rest
  | _ :: rest => InOrder rest

def Task.InOrder (waiters : List Waiter) : Task → Prop
  | .invoke invocation | .deliver invocation _ _ => invocation.tag.IsCalled waiters
  | _ => True

namespace Moment

/-- The calls that have not ended, innermost first: the call whose handler is running, or
whose body or output is being expanded, and the calls around it. -/
def ongoing (moment : Moment) : List OngoingCall :=
  moment.waiters.filterMap Waiter.ongoing?

/-- The names on the frames of the open levels. -/
def frames (moment : Moment) : List (List String) :=
  match moment.task with
  | .items level => level.called.map Tag.name :: moment.ongoing.map OngoingCall.frame
  | _ => moment.ongoing.map OngoingCall.frame

/-- The call stack shows which calls have not ended. -/
structure Framed (moment : Moment) : Prop where
  names : moment.engine.callStack.names = moment.frames
  waiters : Waiter.InOrder moment.waiters
  task : moment.task.InOrder moment.waiters

variable {before after : Moment}

theorem framed_leave {levels : Nat} {task : Task} {waiters : List Waiter} {engine : Engine}
    {result : Except TemplateError String} {top : List String}
    (names : engine.callStack.names =
      top :: (waiters.filterMap Waiter.ongoing?).map OngoingCall.frame)
    (order : Waiter.InOrder waiters) :
    (Moment.leave ⟨levels, task, waiters, engine⟩ result).Framed := by
  refine ⟨?_, order, trivial⟩
  simp only [leave, Evaluation.leave, CallStack.names_pop, names]
  rfl

/-- The handler of a call begins to run.  The call is the innermost one. -/
def Begins (moment : Moment) (call : TagCall) : Prop :=
  (∃ binding : Binding, moment.task = .program (binding.handler call)) ∧
    ∃ innermost, moment.ongoing.head? = some innermost ∧ innermost.tag.name = call.tag

/-- The call stack keeps up, and a call is noted only where its handler begins to run. -/
structure Advances (before after : Moment) : Prop where
  framed : after.Framed
  calls : after.engine.calls = before.engine.calls ∨
    ∃ call, after.Begins call ∧ after.engine.calls = before.engine.calls ++ [call]

theorem Framed.resume {levels : Nat} {result : Except TemplateError String} {waiter : Waiter}
    {waiters : List Waiter} {engine : Engine}
    (framed : Framed ⟨levels, .result result, waiter :: waiters, engine⟩) (task : Task) :
    let resumed := Moment.resume ⟨levels, task, waiters, engine⟩ result waiter
    resumed.Framed ∧ resumed.engine.calls = engine.calls := by
  obtain ⟨names, order, -⟩ := framed
  cases waiter with
  | calling level tag =>
      cases result with
      | ok s => exact ⟨⟨names, order, trivial⟩, rfl⟩
      | error error => exact ⟨framed_leave names order, rfl⟩
  | body invocation slot =>
      cases result with
      | ok s => exact ⟨⟨names, order.2, order.1⟩, rfl⟩
      | error error => exact ⟨⟨names, order.2, trivial⟩, rfl⟩
  | handling invocation call =>
      cases result with
      | ok output =>
          simp only [Moment.resume]
          split <;> exact ⟨⟨names, order.2, trivial⟩, rfl⟩
      | error error => exact ⟨⟨names, order.2, trivial⟩, rfl⟩
  | request next => exact ⟨⟨names, order, trivial⟩, rfl⟩

/-- A handler that begins to run runs for the call that is made on the innermost level. -/
theorem begins_handle {levels : Nat} {task : Task} {waiters : List Waiter} {engine : Engine}
    {invocation : Invocation} {body : Option String} {call : TagCall}
    (called : invocation.tag.IsCalled waiters)
    (given : invocation.call engine.settings body = .ok call) :
    (Moment.handle ⟨levels, task, .handling invocation call :: waiters, engine⟩
      invocation.binding call).Begins call := by
  refine ⟨⟨invocation.binding, rfl⟩, ?_⟩
  cases waiters with
  | nil => exact called.elim
  | cons waiter waiters =>
      cases waiter with
      | calling level tag =>
          cases (called : tag = invocation.tag)
          exact ⟨_, rfl, (Evaluation.decoded_eq_ok_iff.mp given).2.1.symm⟩
      | body | handling | request => exact called.elim

theorem Framed.next (framed : before.Framed) (stepped : before.next = some after) :
    before.Advances after := by
  obtain ⟨levels, task, waiters, engine⟩ := before
  obtain ⟨names, order, called⟩ := framed
  cases task with
  | text source =>
      cases stepped
      simp only [text]
      split <;> exact ⟨⟨names, order, trivial⟩, .inl rfl⟩
  | range document start stop =>
      cases levels <;> cases stepped
      · exact ⟨⟨names, order, trivial⟩, .inl rfl⟩
      · exact ⟨⟨congrArg ([] :: ·) names, order, trivial⟩, .inl rfl⟩
  | items level =>
      cases stepped
      obtain ⟨document, ended, output, rest⟩ := level
      cases rest with
      | nil => exact ⟨framed_leave names order, .inl rfl⟩
      | cons first rest =>
          obtain ⟨kept, calls⟩ := first.meet_keeps document engine
          have names := kept.trans names
          simp only [items]
          generalize first.meet document engine = meeting at names calls ⊢
          obtain ⟨error | text | invocation, met⟩ := meeting
          · exact ⟨framed_leave names order, .inl calls⟩
          · exact ⟨⟨names, order, trivial⟩, .inl calls⟩
          · exact ⟨⟨CallStack.names_record _ names, order, rfl⟩, .inl calls⟩
  | invoke invocation =>
      cases stepped
      obtain ⟨kept, calls⟩ := invocation.reserve_keeps engine
      have names := (congrArg CallStack.names kept).trans names
      simp only [invoke]
      generalize invocation.reserve engine = reserved at names calls ⊢
      obtain ⟨slot, reserved⟩ := reserved
      cases invocation.closer with
      | none => exact ⟨⟨names, order, called⟩, .inl calls⟩
      | some closer =>
          dsimp only
          split
          · exact ⟨⟨names, order, called⟩, .inl calls⟩
          · exact ⟨⟨names, ⟨called, order⟩, trivial⟩, .inl calls⟩
  | deliver invocation slot body =>
      cases stepped
      simp only [deliver]
      split
      · exact ⟨⟨names, order, trivial⟩, .inl rfl⟩
      · rename_i call given
        cases slot with
        | some slot => exact ⟨⟨names, order, trivial⟩, .inl rfl⟩
        | none =>
            exact ⟨⟨names, ⟨called, order⟩, trivial⟩,
              .inr ⟨call, begins_handle called given, Engine.calls_record _⟩⟩
  | program program =>
      cases stepped
      cases program with
      | act action next =>
          exact ⟨⟨(Engine.acted action engine).names.trans names, order, trivial⟩,
            .inl (Engine.calls_perform action)⟩
      | _ => exact ⟨⟨names, order, trivial⟩, .inl rfl⟩
  | result result =>
      cases waiters <;> cases stepped
      obtain ⟨framed, calls⟩ := Framed.resume ⟨names, order, trivial⟩ (.result result)
      exact ⟨framed, .inl calls⟩

theorem Framed.leads (framed : before.Framed) (led : before.Leads after) : after.Framed := by
  induction led with
  | refl => exact framed
  | tail _ stepped ih => exact (ih.next stepped).framed

/-- Every call that a walk notes is the beginning of its handler at a moment of the walk. -/
theorem exists_begins (framed : before.Framed) (led : before.Leads after)
    {earlier later : List TagCall} {call : TagCall}
    (noted : after.engine.calls = earlier ++ call :: later)
    (new : before.engine.calls.length ≤ earlier.length) :
    ∃ moment, before.Leads moment ∧ moment.Begins call ∧
      moment.engine.calls = earlier ++ [call] := by
  induction led generalizing later with
  | refl =>
      rw [noted, List.length_append, List.length_cons] at new
      omega
  | @tail middle after led stepped ih =>
      rcases ((framed.leads led).next stepped).calls with same | ⟨last, begins, added⟩
      · exact ih (same ▸ noted)
      · rw [added] at noted
        rcases List.eq_nil_or_concat' later with rfl | ⟨front, final, rfl⟩
        · obtain ⟨rfl, same⟩ := List.append_inj' noted rfl
          cases same
          exact ⟨after, led.tail stepped, begins, added⟩
        · rw [← List.cons_append, ← List.append_assoc] at noted
          exact ih (List.append_inj' noted rfl).1

def mainPass (engine : Engine) (document : Document) : Moment :=
  ⟨engine.settings.maxDepth, .range document 0 document.size, [], Expansion.begin engine⟩

theorem framed_mainPass (engine : Engine) (document : Document) :
    (mainPass engine document).Framed :=
  ⟨rfl, trivial, trivial⟩

def inHandler (moment : Moment) : Bool :=
  match moment.task with
  | .program _ => true
  | _ => false

theorem Framed.names_of_inHandler {moment : Moment} (framed : moment.Framed)
    (running : moment.inHandler = true) :
    moment.engine.callStack.names = moment.ongoing.map OngoingCall.frame := by
  rw [framed.names, frames]
  unfold inHandler at running
  split at running
  · simp [*]
  · cases running

/-- Which slot the requests for the slot of a name act on.  The frames of the call stack
belong to the ongoing calls, and the first entry of each to the call itself. -/
structure Scoped (moment : Moment) (name : String) : Prop where
  /-- If no call of the name has ended further inside, it is the slot of the innermost ongoing
  call of the name. -/
  enclosing : ∀ {inner outer call}, moment.ongoing = inner ++ call :: outer →
    call.tag.name = name → (∀ other ∈ inner, other.tag.name ≠ name) →
    (∀ other ∈ inner, ¬ other.EndedBeside name) →
    moment.engine.ReachesSlot name inner.length 0
  /-- If no ongoing call has the name and no call of the name has ended beside one of them,
  there is none. -/
  missing : (∀ call ∈ moment.ongoing, call.tag.name ≠ name) →
    (∀ call ∈ moment.ongoing, ¬ call.EndedBeside name) → moment.engine.MissesSlot name
  /-- Else it is the slot of the newest call of the name that has ended beside the innermost
  ongoing call beside which one has ended. -/
  ended : ∀ {inner outer call newer older tag}, moment.ongoing = inner ++ call :: outer →
    call.ended = newer ++ tag :: older → tag.name = name → call.tag.name ≠ name →
    (∀ other ∈ newer, other.name ≠ name) → (∀ other ∈ inner, other.tag.name ≠ name) →
    (∀ other ∈ inner, ¬ other.EndedBeside name) →
    moment.engine.ReachesSlot name inner.length (newer.length + 1)

theorem Framed.scoped {moment : Moment} (framed : moment.Framed)
    (running : moment.inHandler = true) (name : String) : moment.Scoped name := by
  have names := framed.names_of_inHandler running
  have absent : ∀ {calls : List OngoingCall}, (∀ call ∈ calls, call.tag.name ≠ name) →
      (∀ call ∈ calls, ¬ call.EndedBeside name) →
      ∀ frame ∈ calls.map OngoingCall.frame, name ∉ frame := by
    intro calls different none frame framed
    obtain ⟨call, member, rfl⟩ := List.mem_map.mp framed
    rintro (_ | ⟨_, ended⟩)
    · exact different call member rfl
    · exact none call member ended
  refine ⟨?_, ?_, ?_⟩
  · intro inner outer call ongoing named different none
    rw [ongoing, List.map_append, List.map_cons, OngoingCall.frame, List.map_cons, named] at names
    have front : name ∉ ([] : List String) := by simp
    simpa using Engine.reachesSlot_of_names names (absent different none) front
  · intro different none
    exact Engine.missesSlot_of_names (names ▸ absent different none)
  · intro inner outer call newer older tag ongoing ended named other newest different none
    rw [ongoing, List.map_append, List.map_cons, OngoingCall.frame, ended, ← List.cons_append,
      List.map_append, List.map_cons (l := older), named] at names
    have front : name ∉ (call.tag :: newer).map Tag.name := by simpa [other.symm] using newest
    simpa using Engine.reachesSlot_of_names names (absent different none) front

end Moment

namespace Engine

open Evaluation (range whole)
open Moment (mainPass)

/-- The main pass is a walk, on which every call of a handler begins at a moment of its own.
Whenever a handler of it is running, the frames belong to the calls that have not ended, and
requests for a slot act on the slot of the innermost of them that has the name, unless a call
of the name has ended further inside. -/
theorem slot_of_ongoing_call (engine : Engine) (document : Document) :
    let ended := (whole (range engine.settings.maxDepth) document).on (Expansion.begin engine)
    (mainPass engine document).Leads ⟨engine.settings.maxDepth, .result ended.1, [], ended.2⟩ ∧
    (∀ earlier call later, ended.2.calls = earlier ++ call :: later →
      engine.calls.length ≤ earlier.length →
      ∃ moment, (mainPass engine document).Leads moment ∧ moment.Begins call ∧
        moment.engine.calls = earlier ++ [call]) ∧
    ∀ moment, (mainPass engine document).Leads moment → moment.inHandler = true →
      moment.engine.callStack.names = moment.ongoing.map OngoingCall.frame ∧
      ∀ name, moment.Scoped name := by
  have framed := Moment.framed_mainPass engine document
  have led := Evaluation.realises_range engine.settings.maxDepth document 0 document.size []
    (Expansion.begin engine)
  refine ⟨led, ?_, ?_⟩
  · intro earlier call later noted new
    exact Moment.exists_begins framed led noted new
  · intro moment led running
    have framed := framed.leads led
    exact ⟨framed.names_of_inHandler running, framed.scoped running⟩

/-- An engine with a tag `a` and a tag `b`, whose handler reads the slot of `a`. -/
def slotReading : Engine :=
  shallow ⟨⟨":", [("a", ⟨fun _ => .done "", .default, false⟩),
    ("b", ⟨fun _ => .inspect fun view =>
      match view.callStack.get "a" with
      | .ok _ => .done "read"
      | .error error => .fail error, .default, false⟩)]⟩, none⟩

/-- Whether the handler of a call is running a number of steps after the main pass over a text
has begun, and the frames of the calls that have not ended. -/
def observed (engine : Engine) (source : String) (count : Nat) :
    Option (Bool × List (List String)) := do
  let document ← (engine.parse source).toOption
  let moment ← Moment.later count (mainPass engine document)
  return (moment.inHandler, moment.ongoing.map OngoingCall.frame)

theorem exists_of_observed {engine : Engine} {source : String} {count : Nat} {running : Bool}
    {frames : List (List String)} (seen : observed engine source count = some (running, frames)) :
    ∃ document moment, engine.parse source = .ok document ∧
      (mainPass engine document).Leads moment ∧ moment.inHandler = running ∧
      moment.ongoing.map OngoingCall.frame = frames := by
  obtain ⟨document, parsed, seen⟩ := Option.bind_eq_some_iff.mp seen
  obtain ⟨moment, later, same⟩ := Option.bind_eq_some_iff.mp seen
  obtain ⟨rfl, rfl⟩ := Prod.mk.inj (Option.some.inj same)
  exact ⟨document, moment, parse_of_toOption parsed, Moment.leads_of_later later, rfl, rfl⟩

/-- The handler of a tag in the body of another one reaches the slot of that one. -/
theorem slot_of_ongoing_call_nested :
    ∃ document moment inner outer,
      slotReading.parse "\x7ba:\x7d\x7bb:\x7d\x7b:a\x7d" = .ok document ∧
      (mainPass slotReading document).Leads moment ∧ moment.inHandler = true ∧
      moment.ongoing = [inner, outer] ∧ inner.frame = ["b"] ∧ outer.frame = ["a"] ∧
      moment.engine.ReachesSlot "a" 1 0 := by
  have seen : observed slotReading "\x7ba:\x7d\x7bb:\x7d\x7b:a\x7d" 9 =
      some (true, [["b"], ["a"]]) := by decide +kernel
  obtain ⟨document, moment, parsed, led, running, frames⟩ := exists_of_observed seen
  obtain ⟨inner, rest, ongoing, innerFrame, frames⟩ := List.map_eq_cons_iff.mp frames
  obtain ⟨outer, rest, rfl, outerFrame, frames⟩ := List.map_eq_cons_iff.mp frames
  cases List.map_eq_nil_iff.mp frames
  obtain ⟨named, ended⟩ := List.cons.inj innerFrame
  have none := List.map_eq_nil_iff.mp ended
  have slots := ((slot_of_ongoing_call slotReading document).2.2 moment led running).2 "a"
  have apart : moment.ongoing = [inner] ++ outer :: [] := ongoing
  have reached := slots.enclosing apart (List.cons.inj outerFrame).1 (by simp [named])
    (by simp [OngoingCall.EndedBeside, none])
  exact ⟨document, moment, inner, outer, parsed, led, running, ongoing, innerFrame, outerFrame,
    reached⟩

/-- The handler of a tag reaches the slot of a tag in front of it that has ended. -/
theorem slot_of_ended_call :
    ∃ document moment call,
      slotReading.parse "\x7ba:\x7d\x7bb:\x7d" = .ok document ∧
      (mainPass slotReading document).Leads moment ∧ moment.inHandler = true ∧
      moment.ongoing = [call] ∧ call.tag.name = "b" ∧
      moment.engine.ReachesSlot "a" 0 1 ∧ ¬ moment.engine.MissesSlot "a" := by
  have seen : observed slotReading "\x7ba:\x7d\x7bb:\x7d" 12 = some (true, [["b", "a"]]) := by
    decide +kernel
  obtain ⟨document, moment, parsed, led, running, frames⟩ := exists_of_observed seen
  obtain ⟨call, rest, ongoing, frame, frames⟩ := List.map_eq_cons_iff.mp frames
  cases List.map_eq_nil_iff.mp frames
  obtain ⟨named, beside⟩ := List.cons.inj frame
  obtain ⟨tag, rest, ended, tagged, none⟩ := List.map_eq_cons_iff.mp beside
  have framed := (Moment.framed_mainPass slotReading document).leads led
  have apart : moment.ongoing = [] ++ call :: [] := ongoing
  have newest : call.ended = [] ++ tag :: rest := ended
  have reached := (framed.scoped running "a").ended apart newest tagged (by simp [named])
    (by simp) (by simp) (by simp)
  exact ⟨document, moment, call, parsed, led, running, ongoing, named, reached,
    reached.not_missesSlot⟩

end Engine

end TagTemplate
