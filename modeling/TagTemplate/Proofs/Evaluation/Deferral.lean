import TagTemplate.Proofs.Evaluation.Quiet

/-!
Deferred calls.

A main pass is described without a queue: besides its text, to which deferred tags contribute
nothing, it returns the calls of these tags in the order of the source.  The queue holds
exactly these calls when the main pass has succeeded, and the replay makes each of them once,
over the output so far.
-/

namespace TagTemplate

/-- A deferred call with the position of its tag. -/
structure Deferral where
  index : Nat
  entry : DeferredCall

/-- An evaluation that returns the calls it defers. -/
structure MainPass (α : Type) where
  run : Evaluation (α × List Deferral)

namespace MainPass

open Evaluation (check decoded enter leave recordCall sides)

variable {α β : Type}

/-- An evaluation that defers nothing. -/
def lift (x : Evaluation α) : MainPass α where
  run := do return (← x, [])

instance : Monad MainPass where
  pure a := lift (pure a)
  bind x f := ⟨do
    let (a, first) ← x.run
    let (b, rest) ← (f a).run
    return (b, first ++ rest)⟩

/-- Defers the call that is prepared.  What has been deferred meanwhile comes behind it. -/
def deferring (index : Nat) (binding : Binding) (x : MainPass TagCall) : MainPass String where
  run := do
    let (call, inner) ← x.run
    return ("", ⟨index, binding, call⟩ :: inner)

abbrev Level := Document → Nat → Nat → MainPass String

section Call

variable (host : Host Id) (level : Level) (document : Document)

def bodyText (convention : Convention) (index : Nat) : Option Nat → MainPass (Option String)
  | none => return none
  | some closer => do
    if convention.rawBody then
      lift do return some (document.raw (← get).settings.delimiters (index + 1) closer)
    else return some (← level document (index + 1) closer)

def prepare (index : Nat) (tag : Tag) (closer : Option Nat) (resolved : Resolved) :
    MainPass TagCall := do
  let body ← bodyText level document resolved.binding.convention index closer
  let (param, body) := sides resolved closer.isSome body
  lift do EngineT.settle (decoded (← get).settings document tag resolved param body)

/-- A deferred tag leaves no text and its handler is not called. -/
def callResolved (index : Nat) (tag : Tag) (closer : Option Nat) (resolved : Resolved) :
    MainPass String := do
  lift (check document tag resolved closer.isSome)
  lift (EngineT.change (recordCall tag.name))
  let prepared := prepare level document index tag closer resolved
  if resolved.binding.convention.deferred then deferring index resolved.binding prepared
  else do lift (resolved.binding.runNamed host (← prepared))

def callTag (index : Nat) (tag : Tag) (closer : Option Nat) : MainPass String := do
  match ← lift (EngineT.step fun engine => engine.resolve tag.name tag.param) with
  | some resolved => callResolved host level document index tag closer resolved
  | none => lift (Evaluation.unknownTag document index tag closer)

def item : Item → MainPass String
  | .call index tag closer => callTag host level document index tag closer
  | other => lift (Evaluation.item (Evaluation.range 0) document other)

def items : List Item → MainPass String
  | [] => return ""
  | first :: rest => do
    let head ← item host level document first
    return head ++ (← items rest)

end Call

def range (host : Host Id) : Nat → Level
  | 0, document, start, stop => lift (Evaluation.range 0 document start stop)
  | levels + 1, document, start, stop =>
    ⟨EngineT.between enter leave
      (items host (range host levels) document (document.outline start stop)).run⟩

/-- What a main pass returns on an engine, and the engine afterwards. -/
def on (x : MainPass α) (engine : Engine) :
    Except TemplateError (α × List Deferral) × Engine :=
  x.run.on engine

/-- Goes on with the value of a result, behind what has been deferred. -/
def proceed (outcome : Except TemplateError (α × List Deferral) × Engine)
    (next : α → MainPass β) : Except TemplateError (β × List Deferral) × Engine :=
  match outcome with
  | (.ok (a, earlier), engine) =>
    (((next a).on engine).1.map fun (b, later) => (b, earlier ++ later), ((next a).on engine).2)
  | (.error error, engine) => (.error error, engine)

variable {engine : Engine}

@[simp] theorem on_lift (x : Evaluation α) :
    (lift x).on engine = ((x.on engine).1.map fun a => (a, []), (x.on engine).2) := by
  rw [on, lift, Evaluation.on_bind]
  rcases x.on engine with ⟨_ | _, after⟩ <;> rfl

@[simp] theorem on_bind (x : MainPass α) (f : α → MainPass β) :
    (x >>= f).on engine = proceed (x.on engine) f := by
  have described : (x >>= f).run = (do
      let (a, first) ← x.run
      let (b, rest) ← (f a).run
      return (b, first ++ rest)) := rfl
  rw [on, described, Evaluation.on_bind, on]
  rcases x.run.on engine with ⟨_ | ⟨a, earlier⟩, after⟩
  · rfl
  · rw [Evaluation.proceed_ok, Evaluation.on_bind, proceed, on]
    rcases (f a).run.on after with ⟨_ | _, final⟩ <;> rfl

@[simp] theorem on_deferring (index : Nat) (binding : Binding) (x : MainPass TagCall) :
    (deferring index binding x).on engine =
      ((x.on engine).1.map fun (call, inner) => ("", ⟨index, binding, call⟩ :: inner),
        (x.on engine).2) := by
  rw [on, deferring, Evaluation.on_bind, on]
  rcases x.run.on engine with ⟨_ | _, after⟩ <;> rfl

end MainPass

/-- The call is that of a tag, as it is made in the main pass. -/
structure TagCall.ComesFrom (origin : Tag) (call : TagCall) : Prop where
  tag : call.tag = origin.name
  offset : call.offset = origin.start
  document : call.document = none

/-- What is known of a deferral: it is that of an open tag, its call waits for the output, and
its handler expands nothing. -/
structure Deferral.Sound (holds : Registry → Prop) (document : Document) (deferral : Deferral) :
    Prop where
  origin : ∃ tag, document.openTag? deferral.index = some tag ∧
    deferral.entry.call.ComesFrom tag
  deferred : deferral.entry.binding.convention.deferred = true
  once : deferral.entry.binding.convention.redo = false
  quiet : deferral.entry.binding.handler.Quiet holds

/-- A slot for each deferral, filled with its call. -/
def DeferredQueue.holding (deferrals : List Deferral) : DeferredQueue DeferredCall :=
  ⟨deferrals.map fun deferral => some deferral.entry⟩

/-- Only calls of the main pass have been noted. -/
def Engine.NotesMain (before after : Engine) : Prop :=
  ∃ calls, after.calls = before.calls ++ calls ∧ ∀ call ∈ calls, call.document = none

section Simulation

variable (holds : Registry → Prop) (settings : Settings) (document : Document)

/-- A main pass ends as its description says: with the same value or error on the same engine,
and on success with a filled slot behind the queue for every deferral. -/
inductive Collected (indices : List Nat) {α : Type} (accepts : α → Prop) (before : Engine)
    (queue : DeferredQueue DeferredCall) :
    Except TemplateError α × Engine → Except TemplateError (α × List Deferral) × Engine → Prop
    where
  | ok {a : α} {deferrals : List Deferral} {after : Engine} (accepted : accepts a)
      (ready : after.Ready holds settings) (notes : before.NotesMain after)
      (order : (deferrals.map Deferral.index).Sublist indices)
      (sound : ∀ deferral ∈ deferrals, deferral.Sound holds document) :
      Collected indices accepts before queue
        (.ok a, after.queueing ⟨queue.slots ++ (DeferredQueue.holding deferrals).slots⟩)
        (.ok (a, deferrals), after)
  | error {error : TemplateError} {after : Engine} (left : DeferredQueue DeferredCall) :
      Collected indices accepts before queue (.error error, after.queueing left)
        (.error error, after)

/-- An evaluation does with a queue what its description does without. -/
def Simulates (indices : List Nat) {α : Type} (accepts : α → Prop) (x : Evaluation α)
    (y : MainPass α) : Prop :=
  ∀ engine queue, engine.Ready holds settings →
    Collected holds settings document indices accepts engine queue
      (x.on (engine.queueing queue)) (y.on engine)

end Simulation

variable {holds : Registry → Prop} {settings : Settings} {document : Document}

theorem Engine.NotesMain.refl (engine : Engine) : engine.NotesMain engine :=
  ⟨[], by simp⟩

theorem Engine.NotesMain.trans {before middle after : Engine} (first : before.NotesMain middle)
    (second : middle.NotesMain after) : before.NotesMain after := by
  obtain ⟨earlier, noted, main⟩ := first
  obtain ⟨later, notedLater, mainLater⟩ := second
  refine ⟨earlier ++ later, by rw [notedLater, noted, List.append_assoc], ?_⟩
  intro call member
  rcases List.mem_append.mp member with early | late
  · exact main call early
  · exact mainLater call late

namespace Simulates

variable {α β : Type} {indices more : List Nat} {accepts : α → Prop} {accepts' : β → Prop}

theorem bind {x : Evaluation α} {y : MainPass α} {f : α → Evaluation β} {g : α → MainPass β}
    (first : Simulates holds settings document indices accepts x y)
    (rest : ∀ a, accepts a → Simulates holds settings document more accepts' (f a) (g a)) :
    Simulates holds settings document (indices ++ more) accepts' (x >>= f) (y >>= g) := by
  intro engine queue ready
  have started := first engine queue ready
  rw [Evaluation.on_bind, MainPass.on_bind]
  generalize x.on (engine.queueing queue) = outcome at started
  generalize y.on engine = described at started
  cases started with
  | error left => exact .error left
  | @ok a deferrals middle accepted ready notes order sound =>
      let held : DeferredQueue DeferredCall :=
        ⟨queue.slots ++ (DeferredQueue.holding deferrals).slots⟩
      have continued := rest a accepted middle held ready
      rw [Evaluation.proceed_ok, MainPass.proceed]
      generalize (f a).on (middle.queueing held) = outcome at continued
      generalize (g a).on middle = described at continued
      cases continued with
      | error left => exact .error left
      | @ok b later after accepted ready notesLater orderLater soundLater =>
          have slots : held.slots ++ (DeferredQueue.holding later).slots =
              queue.slots ++ (DeferredQueue.holding (deferrals ++ later)).slots := by
            simp [held, DeferredQueue.holding]
          rw [slots]
          refine .ok accepted ready (notes.trans notesLater) ?_ ?_
          · rw [List.map_append]
            exact order.append orderLater
          · intro deferral member
            rcases List.mem_append.mp member with early | late
            · exact sound deferral early
            · exact soundLater deferral late

theorem mono {x : Evaluation α} {y : MainPass α} (sub : indices.Sublist more)
    (simulates : Simulates holds settings document indices accepts x y) :
    Simulates holds settings document more accepts x y := by
  intro engine queue ready
  have same := simulates engine queue ready
  generalize x.on (engine.queueing queue) = outcome at same
  generalize y.on engine = described at same
  cases same with
  | error left => exact .error left
  | ok accepted ready notes order sound => exact .ok accepted ready notes (order.trans sub) sound

/-- An evaluation that the queue does not matter to. -/
theorem lift {x y : Evaluation α}
    (same : ∀ (engine : Engine) queue, engine.Ready holds settings →
      x.on (engine.queueing queue) = ((y.on engine).1, (y.on engine).2.queueing queue) ∧
        (y.on engine).2.Ready holds settings ∧ engine.NotesMain (y.on engine).2 ∧
        ∀ a, (y.on engine).1 = .ok a → accepts a) :
    Simulates holds settings document [] accepts x (MainPass.lift y) := by
  intro engine queue ready
  obtain ⟨moved, ready, notes, accepted⟩ := same engine queue ready
  rw [moved, MainPass.on_lift]
  cases result : (y.on engine).1 with
  | error error => exact .error queue
  | ok a =>
      have kept : queue = ⟨queue.slots ++ (DeferredQueue.holding []).slots⟩ :=
        congrArg DeferredQueue.mk (List.append_nil queue.slots).symm
      have ended : Collected holds settings document [] accepts engine queue
          (.ok a, (y.on engine).2.queueing ⟨queue.slots ++ (DeferredQueue.holding []).slots⟩)
          (.ok (a, []), (y.on engine).2) :=
        .ok (accepted a result) ready notes (.refl _) (by simp)
      rwa [← kept] at ended

theorem pure {a : α} (accepted : accepts a) :
    Simulates holds settings document [] accepts (Pure.pure a) (Pure.pure a) :=
  lift fun engine queue ready => ⟨rfl, ready, .refl engine, fun _ same => by cases same; exact accepted⟩

theorem reading {f : Settings → Except TemplateError α} {x : Evaluation α}
    (reads : ∀ engine, x.on engine = (f engine.settings, engine))
    (accepted : ∀ a, f settings = .ok a → accepts a) :
    Simulates holds settings document [] accepts x (MainPass.lift x) :=
  lift fun engine queue ready => by
    rw [reads, reads]
    exact ⟨rfl, ready, .refl engine, by rwa [ready.settings]⟩

/-- The slot that a deferred call has reserved is filled with this call, behind the slots that
were there and before those reserved meanwhile. -/
theorem deferring {x : Evaluation TagCall} {y : MainPass TagCall} {index : Nat}
    {binding : Binding} {accepts : TagCall → Prop}
    (prepared : Simulates holds settings document indices accepts x y)
    (sound : ∀ call, accepts call → Deferral.Sound holds document ⟨index, binding, call⟩) :
    Simulates holds settings document (index :: indices) (fun _ => True)
      (do
        let slot ← Evaluation.reserveSlot
        let call ← x
        EngineT.change (Evaluation.fillSlot slot ⟨binding, call⟩)
        return "")
      (MainPass.deferring index binding y) := by
  intro engine queue ready
  let reserved : DeferredQueue DeferredCall := ⟨queue.slots ++ [none]⟩
  have started := prepared engine reserved ready
  rw [Evaluation.on_bind, MainPass.on_deferring]
  have slot : Evaluation.reserveSlot.on (engine.queueing queue) =
      (.ok queue.slots.length, engine.queueing reserved) := rfl
  rw [slot, Evaluation.proceed_ok, Evaluation.on_bind]
  generalize x.on (engine.queueing reserved) = outcome at started
  generalize y.on engine = described at started
  cases started with
  | error left => exact .error left
  | @ok call deferrals middle accepted ready notes order soundInner =>
      have filled : Evaluation.fillSlot queue.slots.length ⟨binding, call⟩
          (middle.queueing ⟨reserved.slots ++ (DeferredQueue.holding deferrals).slots⟩) =
          middle.queueing ⟨queue.slots ++
            (DeferredQueue.holding (⟨index, binding, call⟩ :: deferrals)).slots⟩ := by
        simp [Evaluation.fillSlot, DeferredQueue.fill, Engine.queueing, reserved,
          DeferredQueue.holding]
      rw [Evaluation.proceed_ok, Evaluation.on_bind, Evaluation.on_change, filled]
      refine .ok trivial ready notes (order.cons_cons index) ?_
      intro deferral member
      rcases List.mem_cons.mp member with rfl | inner
      · exact sound call accepted
      · exact soundInner deferral inner

end Simulates

section Levels

open Evaluation (Level)

variable {host : Host Id} {level : Level} {described : MainPass.Level} {index : Nat} {tag : Tag}
  {closer : Option Nat} {body : Option Forest} {resolved : Resolved}

/-- The ranges of a level are evaluated as they are described. -/
def SimulatesLevel (holds : Registry → Prop) (settings : Settings) (document : Document)
    (level : Level) (described : MainPass.Level) : Prop :=
  ∀ {start stop forest}, document.Forms start stop forest →
    Simulates holds settings document forest.indices (fun _ => True)
      (level document start stop) (described document start stop)

namespace SimulatesLevel

theorem bodyText (simulates : SimulatesLevel holds settings document level described)
    (encloses : document.Encloses index closer body) (convention : Convention) :
    Simulates holds settings document ((body.map Forest.indices).getD []) (fun _ => True)
      (Evaluation.bodyText level document convention index closer)
      (MainPass.bodyText described document convention index closer) := by
  cases encloses with
  | nothing => exact .pure trivial
  | @body closer forest forms =>
      simp only [Evaluation.bodyText, MainPass.bodyText]
      split
      · refine .mono (List.nil_sublist _) (.reading (f := fun settings =>
          .ok (some (document.raw settings.delimiters (index + 1) closer))) ?_ ?_)
        · exact fun _ => rfl
        · exact fun _ _ => trivial
      · have whole : ∀ text : String, Simulates holds settings document [] (fun _ => True)
            (pure (some text)) (pure (some text)) := fun _ => .pure trivial
        have parsed := (simulates forms).bind fun text _ => whole text
        rw [List.append_nil] at parsed
        exact parsed

theorem prepare (simulates : SimulatesLevel holds settings document level described)
    (encloses : document.Encloses index closer body) (tag : Tag) (resolved : Resolved) :
    Simulates holds settings document ((body.map Forest.indices).getD []) (·.ComesFrom tag)
      (Evaluation.prepare level document index tag closer resolved)
      (MainPass.prepare described document index tag closer resolved) := by
  have decodes : ∀ given, Simulates holds settings document [] (·.ComesFrom tag)
      (do
        let (param, body) := Evaluation.sides resolved closer.isSome given
        EngineT.settle (Evaluation.decoded (← get).settings document tag resolved param body))
      (MainPass.lift do
        let (param, body) := Evaluation.sides resolved closer.isSome given
        EngineT.settle (Evaluation.decoded (← get).settings document tag resolved param body)) := by
    intro given
    refine .reading (f := fun settings =>
      let (param, body) := Evaluation.sides resolved closer.isSome given
      Evaluation.decoded settings document tag resolved param body) (fun _ => rfl) ?_
    intro call made
    obtain ⟨_, name, _, _, offset, whole⟩ := Evaluation.decoded_eq_ok_iff.mp made
    exact ⟨name, offset, whole⟩
  have prepared := (simulates.bodyText encloses resolved.binding.convention).bind fun given _ =>
    decodes given
  rw [List.append_nil] at prepared
  exact prepared

end SimulatesLevel

namespace Simulates

theorem check (tag : Tag) (resolved : Resolved) (hasBody : Bool) :
    Simulates holds settings document [] (fun _ => True)
      (Evaluation.check document tag resolved hasBody)
      (MainPass.lift (Evaluation.check document tag resolved hasBody)) :=
  .reading (f := fun settings => Evaluation.checked settings document tag resolved hasBody)
    (fun _ => Evaluation.on_check document tag resolved hasBody) fun _ _ => trivial

theorem recordCall (name : String) :
    Simulates holds settings document [] (fun _ => True)
      (EngineT.change (Evaluation.recordCall name))
      (MainPass.lift (EngineT.change (Evaluation.recordCall name))) :=
  lift fun engine _ ready =>
    ⟨rfl, ⟨ready.settings, ready.holds⟩, ⟨[], (List.append_nil _).symm, by simp⟩,
      fun _ _ => trivial⟩

/-- A handler that expands nothing is called in the main pass. -/
theorem runNamed (level : Level) (host : Host Id)
    (quiet : resolved.binding.handler.Quiet holds) {call : TagCall}
    (main : call.document = none) :
    Simulates holds settings document [] (fun _ => True)
      (resolved.binding.runNamed (Evaluation.host level) call)
      (MainPass.lift (resolved.binding.runNamed host call)) :=
  lift fun engine queue ready => by
    obtain ⟨unchanged, keeps, _, noted⟩ := quiet.run host call engine
    rw [Evaluation.on_runNamed, Evaluation.on_runNamed,
      quiet.run_eq host (Evaluation.host level) call queue engine]
    refine ⟨rfl, ⟨unchanged.trans ready.settings, keeps ready.holds⟩, ⟨[call], noted, ?_⟩,
      fun _ _ => trivial⟩
    intro noted member
    cases List.mem_singleton.mp member
    exact main

theorem unknownTag (index : Nat) (tag : Tag) (closer : Option Nat) :
    Simulates holds settings document [] (fun _ => True)
      (Evaluation.unknownTag document index tag closer)
      (MainPass.lift (Evaluation.unknownTag document index tag closer)) :=
  .reading (f := fun settings => Evaluation.unknownText settings document index tag closer)
    (fun _ => Evaluation.on_unknownTag document index tag closer) fun _ _ => trivial

theorem literal (level : Level) {item : Item} {f : Settings → Except TemplateError String}
    (reads : ∀ (level : Level) engine,
      (Evaluation.item level document item).on engine = (f engine.settings, engine)) :
    Simulates holds settings document [] (fun _ => True) (Evaluation.item level document item)
      (MainPass.lift (Evaluation.item (Evaluation.range 0) document item)) :=
  lift fun engine queue ready => by
    rw [reads, reads]
    exact ⟨rfl, ready, .refl engine, fun _ _ => trivial⟩

end Simulates

namespace SimulatesLevel

theorem callResolved (simulates : SimulatesLevel holds settings document level described)
    (encloses : document.Encloses index closer body) (host : Host Id)
    (opens : document.openTag? index = some tag)
    (once : resolved.binding.convention.redo = false)
    (quiet : resolved.binding.handler.Quiet holds) :
    Simulates holds settings document (index :: (body.map Forest.indices).getD [])
      (fun _ => True)
      (Evaluation.callResolved level document index tag closer resolved)
      (MainPass.callResolved host described document index tag closer resolved) := by
  have prepared := simulates.prepare encloses tag resolved
  have called : Simulates holds settings document (index :: (body.map Forest.indices).getD [])
      (fun _ => True)
      (if resolved.binding.convention.deferred then do
        let slot ← Evaluation.reserveSlot
        let call ← Evaluation.prepare level document index tag closer resolved
        EngineT.change (Evaluation.fillSlot slot ⟨resolved.binding, call⟩)
        return ""
      else do
        let call ← Evaluation.prepare level document index tag closer resolved
        Evaluation.again level resolved.binding.convention
          (← resolved.binding.runNamed (Evaluation.host level) call))
      (if resolved.binding.convention.deferred then
        MainPass.deferring index resolved.binding
          (MainPass.prepare described document index tag closer resolved)
      else do
        MainPass.lift (resolved.binding.runNamed host
          (← MainPass.prepare described document index tag closer resolved))) := by
    cases deferred : resolved.binding.convention.deferred with
    | true =>
        exact prepared.deferring fun call comes => ⟨⟨tag, opens, comes⟩, deferred, once, quiet⟩
    | false =>
        have runs : ∀ call : TagCall, call.ComesFrom tag →
            Simulates holds settings document [] (fun _ => True)
              (resolved.binding.runNamed (Evaluation.host level) call)
              (MainPass.lift (resolved.binding.runNamed host call)) :=
          fun call comes => .runNamed level host quiet comes.document
        have ran := prepared.bind runs
        rw [List.append_nil] at ran
        simp only [Bool.false_eq_true, if_false, Evaluation.again, once, bind_pure]
        exact ran.mono (List.sublist_cons_self _ _)
  rw [Evaluation.callResolved_eq]
  exact (Simulates.check tag resolved closer.isSome).bind fun _ _ =>
    (Simulates.recordCall tag.name).bind fun _ _ => called

theorem callTag (simulates : SimulatesLevel holds settings document level described)
    (serves : Registry.Serves holds document (·.redo = false))
    (encloses : document.Encloses index closer body) (host : Host Id)
    (opens : document.openTag? index = some tag) :
    Simulates holds settings document (index :: (body.map Forest.indices).getD [])
      (fun _ => True)
      (Evaluation.callTag level document index tag closer)
      (MainPass.callTag host described document index tag closer) := by
  have looked : Simulates holds settings document []
      (fun found => ∀ resolved, found = some resolved →
        resolved.binding.convention.redo = false ∧ resolved.binding.handler.Quiet holds)
      (EngineT.step fun engine => engine.resolve tag.name tag.param)
      (MainPass.lift (EngineT.step fun engine => engine.resolve tag.name tag.param)) :=
    .lift fun engine queue ready => by
      refine ⟨rfl, ⟨ready.settings, serves.keeps ready.holds opens⟩, ⟨[], ?_, by simp⟩, ?_⟩
      · simp [Engine.resolve, Event.call?, Engine.calls, Engine.record]
      · rintro _ found resolved rfl
        exact ⟨serves.accepts ready.holds opens found, serves.quiet ready.holds opens found⟩
  refine looked.bind fun found served => ?_
  cases found with
  | some resolved =>
      obtain ⟨once, quiet⟩ := served resolved rfl
      exact simulates.callResolved encloses host opens once quiet
  | none => exact (Simulates.unknownTag index tag closer).mono (List.nil_sublist _)

theorem cons {indices more : List Nat} {first : Item} {rest : List Item}
    (head : Simulates holds settings document indices (fun _ => True)
      (Evaluation.item level document first) (MainPass.item host described document first))
    (tail : Simulates holds settings document more (fun _ => True)
      (Evaluation.items level document rest) (MainPass.items host described document rest)) :
    Simulates holds settings document (indices ++ more) (fun _ => True)
      (Evaluation.items level document (first :: rest))
      (MainPass.items host described document (first :: rest)) := by
  have joins : ∀ left right : String, Simulates holds settings document [] (fun _ => True)
      (pure (left ++ right)) (pure (left ++ right)) := fun _ _ => .pure trivial
  have both := head.bind fun left _ => tail.bind fun right _ => joins left right
  rw [List.append_nil] at both
  exact both

theorem items (simulates : SimulatesLevel holds settings document level described)
    (serves : Registry.Serves holds document (·.redo = false)) (host : Host Id)
    {start stop : Nat} {forest : Forest} (forms : document.Forms start stop forest) :
    Simulates holds settings document forest.indices (fun _ => True)
      (Evaluation.items level document forest.items)
      (MainPass.items host described document forest.items) := by
  induction forms with
  | nil here => exact .pure trivial
  | @text start stop s rest found behind ih =>
      have head : Simulates holds settings document [] (fun _ => True)
          (Evaluation.item level document (.text s))
          (MainPass.item host described document (.text s)) :=
        .literal (f := fun _ => .ok s) level fun _ _ => rfl
      exact cons head ih
  | @dangling start stop tag rest found unnamed role behind ih =>
      have head : Simulates holds settings document [] (fun _ => True)
          (Evaluation.item level document (.dangling tag))
          (MainPass.item host described document (.dangling tag)) :=
        .literal (f := fun settings => .ok (settings.danglingText tag)) level fun level engine =>
          Evaluation.on_dangling level document tag
      exact cons head ih
  | @single start stop tag rest found named role behind ih =>
      have opens : document.openTag? start = some tag :=
        Document.openTag?_eq_some_iff.mpr ⟨found, named⟩
      have head : Simulates holds settings document [start] (fun _ => True)
          (Evaluation.item level document (.call start tag none))
          (MainPass.item host described document (.call start tag none)) :=
        simulates.callTag serves .nothing host opens
      exact cons head ih
  | @pair start stop closer tag closeTag inner rest found named role inside closeFound unnamed
      behind _ ih =>
      have opens : document.openTag? start = some tag :=
        Document.openTag?_eq_some_iff.mpr ⟨found, named⟩
      have head : Simulates holds settings document (start :: inner.indices) (fun _ => True)
          (Evaluation.item level document (.call start tag (some closer)))
          (MainPass.item host described document (.call start tag (some closer))) :=
        simulates.callTag serves (.body inside) host opens
      exact cons head ih

end SimulatesLevel

/-- A main pass does with the queue what its description does without. -/
theorem simulatesLevel_range (serves : Registry.Serves holds document (·.redo = false))
    (host : Host Id) (levels : Nat) :
    SimulatesLevel holds settings document (Evaluation.range levels)
      (MainPass.range host levels) := by
  induction levels with
  | zero =>
      intro start stop forest forms engine queue ready
      rw [MainPass.range, MainPass.on_lift]
      exact .error queue
  | succ levels ih =>
      intro start stop forest forms engine queue ready
      have entered : (Evaluation.enter engine).Ready holds settings :=
        ⟨ready.settings, ready.holds⟩
      have inside := ih.items serves host forms (Evaluation.enter engine) queue entered
      rw [Evaluation.range, Evaluation.on_between, MainPass.range, MainPass.on,
        Evaluation.on_between, forms.outline_eq]
      rw [MainPass.on] at inside
      have opened : Evaluation.enter (engine.queueing queue) =
          (Evaluation.enter engine).queueing queue := rfl
      rw [opened]
      generalize (Evaluation.items (Evaluation.range levels) document forest.items).on
        ((Evaluation.enter engine).queueing queue) = outcome at inside
      generalize (MainPass.items host (MainPass.range host levels) document forest.items).run.on
        (Evaluation.enter engine) = description at inside
      cases inside with
      | @error error after left =>
          have ended : Collected holds settings document forest.indices (fun _ : String => True)
              engine queue (.error error, (Evaluation.leave after).queueing left)
              (.error error, Evaluation.leave after) := .error left
          exact ended
      | @ok text deferrals after accepted ready notes order sound =>
          have ended : Collected holds settings document forest.indices (fun _ : String => True)
              engine queue (.ok text, (Evaluation.leave after).queueing
                ⟨queue.slots ++ (DeferredQueue.holding deferrals).slots⟩)
              (.ok (text, deferrals), Evaluation.leave after) :=
            .ok trivial ⟨ready.settings, ready.holds⟩ notes order sound
          exact ended

end Levels

section Replay

open Evaluation (drained range whole)

variable {host : Host Id} {engine : Engine} {deferrals : List Deferral} {output : String}

/-- The handler of a deferred call is given the output so far, and returns the next output. -/
def Deferral.replay (host : Host Id) (output : String) (deferral : Deferral) :
    Evaluation String :=
  deferral.entry.binding.runNamed host { deferral.entry.call with document := some output }

theorem Deferral.Sound.replayOne (level : Evaluation.Level) {deferral : Deferral}
    (sound : deferral.Sound holds document) (host : Host Id) (output : String)
    (queue : DeferredQueue DeferredCall) (engine : Engine) :
    (Evaluation.replayOne level output deferral.entry).on (engine.queueing queue) =
      (((deferral.replay host output).on engine).1,
        ((deferral.replay host output).on engine).2.queueing queue) := by
  simp only [Evaluation.replayOne, Evaluation.again, sound.once, Bool.false_eq_true, if_false,
    bind_pure, Deferral.replay, Evaluation.on_runNamed,
    sound.quiet.run_eq host (Evaluation.host level)]

/-- The entries of a queue are replayed as the deferrals they come from. -/
theorem foldlM_replayOne (level : Evaluation.Level) (host : Host Id)
    (sound : ∀ deferral ∈ deferrals, deferral.Sound holds document)
    (queue : DeferredQueue DeferredCall) (output : String) (engine : Engine) :
    ((deferrals.map Deferral.entry).foldlM (Evaluation.replayOne level) output).on
        (engine.queueing queue) =
      ((Evaluation.on (deferrals.foldlM (Deferral.replay host) output) engine).1,
        (Evaluation.on (deferrals.foldlM (Deferral.replay host) output) engine).2.queueing
          queue) := by
  induction deferrals generalizing output engine with
  | nil => rfl
  | cons deferral rest ih =>
      have first := (sound deferral List.mem_cons_self).replayOne level host output queue engine
      have behind := ih fun deferral member => sound deferral (List.mem_cons_of_mem _ member)
      rw [List.map_cons, List.foldlM_cons, List.foldlM_cons, Evaluation.on_bind,
        Evaluation.on_bind, first]
      cases (deferral.replay host output).on engine with
      | mk result after =>
          cases result with
          | error error => rfl
          | ok text => exact behind text after

theorem entries_holding (deferrals : List Deferral) :
    (DeferredQueue.holding deferrals).entries = deferrals.map Deferral.entry := by
  simp [DeferredQueue.holding, DeferredQueue.entries, List.filterMap_map]

/-- One batch replays everything, since a handler that expands nothing defers nothing. -/
theorem run_replay_holding (level : Evaluation.Level) (host : Host Id) (batches : Nat)
    (output : String) (engine : Engine)
    (sound : ∀ deferral ∈ deferrals, deferral.Sound holds document) :
    let outcome := Evaluation.on (deferrals.foldlM (Deferral.replay host) output) engine
    (Expansion.replay level (batches + 1) output).run
      (engine.queueing (.holding deferrals)) =
        some (outcome.1, outcome.2.queueing .empty) := by
  cases deferrals with
  | nil => exact Expansion.run_replay_of_empty rfl
  | cons first rest =>
      have waiting : (engine.queueing (.holding (first :: rest))).deferred.entries =
          (first :: rest).map Deferral.entry := entries_holding _
      have emptied : drained (engine.queueing (.holding (first :: rest))) =
          engine.queueing .empty := rfl
      rw [Expansion.run_replay_succ (by simp [waiting]), waiting, emptied,
        foldlM_replayOne level host sound]
      cases Evaluation.on ((first :: rest).foldlM (Deferral.replay host) output) engine with
      | mk result after =>
          cases result with
          | error error => rfl
          | ok text => exact Expansion.run_replay_of_empty rfl

/-- A replay that succeeds has made every deferred call once, in their order. -/
theorem calls_replay {text : String} {after : Engine}
    (sound : ∀ deferral ∈ deferrals, deferral.Sound holds document)
    (ran : Evaluation.on (deferrals.foldlM (Deferral.replay host) output) engine =
      (.ok text, after)) :
    ∃ replays, after.calls = engine.calls ++ replays ∧
      List.Forall₂ (fun deferral call => ∃ output : String,
        call = { deferral.entry.call with document := some output }) deferrals replays := by
  induction deferrals generalizing output engine with
  | nil =>
      cases ran
      exact ⟨[], (List.append_nil _).symm, .nil⟩
  | cons deferral rest ih =>
      let call : TagCall := { deferral.entry.call with document := some output }
      obtain ⟨_, _, _, noted⟩ :=
        (sound deferral List.mem_cons_self).quiet.run host call engine
      have first : (deferral.replay host output).on engine =
          (((Evaluation.on (deferral.entry.binding.run host call) engine).1.mapError
            (TemplateError.attributedTo call.name)),
            (Evaluation.on (deferral.entry.binding.run host call) engine).2) :=
        Evaluation.on_runNamed host deferral.entry.binding call engine
      rw [List.foldlM_cons, Evaluation.on_bind, first] at ran
      cases returned : Evaluation.on (deferral.entry.binding.run host call) engine with
      | mk result middle =>
          rw [returned] at ran noted
          cases result with
          | error error => cases ran
          | ok next =>
              obtain ⟨replays, later, made⟩ :=
                ih (fun deferral member => sound deferral (List.mem_cons_of_mem _ member)) ran
              refine ⟨call :: replays, ?_, .cons ⟨output, rfl⟩ made⟩
              rw [later, noted, List.append_assoc]
              rfl

end Replay

/-- Wherever a deferred tag is called, its call is left in the slot that it has reserved. -/
def Evaluation.FillsOwnSlot (holds : Registry → Prop) (settings : Settings)
    (document : Document) (level : Evaluation.Level) : Prop :=
  ∀ {engine after : Engine} {index slot : Nat} {tag : Tag} {closer : Option Nat}
    {body : Option Forest} {resolved : Resolved} {text : String},
    engine.Ready holds settings → document.Encloses index closer body →
    resolved.binding.convention.deferred = true →
    (Evaluation.callResolved level document index tag closer resolved).on engine =
      (.ok text, after) →
    (Evaluation.reserveSlot.on engine).1 = .ok slot →
    ∃ call : TagCall, call.ComesFrom tag ∧
      after.deferred.slots[slot]? = some (some ⟨resolved.binding, call⟩)

theorem Evaluation.fillsOwnSlot_range (serves : Registry.Serves holds document (·.redo = false))
    (levels : Nat) : FillsOwnSlot holds settings document (range levels) := by
  intro engine after index slot tag closer body resolved text ready encloses deferred ran reserved
  let reserving : DeferredQueue DeferredCall := ⟨engine.deferred.slots ++ [none]⟩
  have recorded : (recordCall tag.name engine).Ready holds settings := ⟨ready.settings, ready.holds⟩
  have simulates : SimulatesLevel holds settings document (range levels)
      (MainPass.range (host (range 0)) levels) := simulatesLevel_range serves _ levels
  have prepared := simulates.prepare encloses tag resolved (recordCall tag.name engine) reserving
    recorded
  have slotted : reserveSlot.on (recordCall tag.name engine) =
      (.ok engine.deferred.slots.length, (recordCall tag.name engine).queueing reserving) := rfl
  cases (reserved : Except.ok engine.deferred.slots.length = .ok slot)
  simp only [callResolved_eq, deferred, if_true, on_bind, on_check, checked] at ran
  cases violation : callViolation resolved.binding.convention resolved.param closer.isSome with
  | some violation =>
      rw [violation] at ran
      cases ran
  | none =>
      rw [violation] at ran
      simp only [proceed_ok, on_bind, on_change, slotted] at ran
      generalize (prepare (range levels) document index tag closer resolved).on
        ((recordCall tag.name engine).queueing reserving) = outcome at prepared ran
      generalize (MainPass.prepare _ document index tag closer resolved).on
        (recordCall tag.name engine) = described at prepared
      cases prepared with
      | error left => cases ran
      | @ok call deferrals middle comes ready notes order sound =>
          cases ran
          refine ⟨call, comes, ?_⟩
          simp [fillSlot, DeferredQueue.fill, Engine.queueing, reserving]

/-- Deferred calls are made once each, in the order of their tags in the source, over the
output so far: an evaluation without tags that are expanded again and without handlers that
expand anything ends, and if it succeeds, then its main pass has left a filled slot for every
deferred tag that was called, and its result is that of folding the deferred calls over the
output of the main pass. -/
theorem Engine.deferred_in_source_order {engine : Engine} (reachable : engine.Reachable)
    (initial : holds engine.registry)
    (serves : Registry.Serves holds engine.document (·.redo = false)) (host : Host Id) :
    let levels := engine.settings.maxDepth
    let document := engine.document
    Evaluation.FillsOwnSlot holds engine.settings document (Evaluation.range levels) ∧
    ∀ batches, ∃ result after,
      (Expansion.evaluate (batches + 1)).run engine = some (result, after) ∧
      ∀ text, result = .ok text → ∃ output deferrals middle final ordinary replays,
        (MainPass.range host levels document 0 document.size).on (Expansion.begin engine) =
          (.ok (output, deferrals), middle) ∧
        (Evaluation.whole (Evaluation.range levels) document).on (Expansion.begin engine) =
          (.ok output, middle.queueing (.holding deferrals)) ∧
        (deferrals.map Deferral.index).Pairwise (· < ·) ∧
        (∀ deferral ∈ deferrals, deferral.Sound holds document) ∧
        Evaluation.on (deferrals.foldlM (Deferral.replay host) output) middle =
          (.ok text, final) ∧
        after = Expansion.finish final ∧
        after.calls = engine.calls ++ ordinary ++ replays ∧
        (∀ call ∈ ordinary, call.document = none) ∧
        List.Forall₂ (fun deferral call => ∃ output : String,
          call = { deferral.entry.call with document := some output }) deferrals replays := by
  have atRest := reachable.atRest
  obtain ⟨forest, forms⟩ := atRest.parsed.exists_forest
  refine ⟨Evaluation.fillsOwnSlot_range serves engine.settings.maxDepth, ?_⟩
  intro batches
  have begun : (Expansion.begin engine).Ready holds engine.settings := ⟨rfl, initial⟩
  have ran : (Expansion.evaluate (batches + 1)).run engine =
      (Expansion.document (batches + 1) engine.document).run engine :=
    Expansion.run_answer (batches + 1) .evaluate atRest.idle.evaluating
  have main := simulatesLevel_range serves host engine.settings.maxDepth forms
    (Expansion.begin engine) .empty begun
  have unqueued : (Expansion.begin engine).queueing .empty = Expansion.begin engine := rfl
  rw [Expansion.run_document, Evaluation.whole] at ran
  rw [unqueued] at main
  rw [ran, Evaluation.whole]
  generalize (Evaluation.range engine.settings.maxDepth engine.document 0
    engine.document.size).on (Expansion.begin engine) = outcome at main ⊢
  generalize (MainPass.range host engine.settings.maxDepth engine.document 0
    engine.document.size).on (Expansion.begin engine) = described at main ⊢
  -- the main pass has left the queue that the replay starts with
  cases main with
  | error left => exact ⟨_, _, rfl, fun text success => by cases success⟩
  | @ok output deferrals middle _ ready notes order sound =>
      have slots : DeferredQueue.mk ([] ++ (DeferredQueue.holding deferrals).slots) =
          .holding deferrals := rfl
      have replayed := run_replay_holding (Evaluation.range engine.settings.maxDepth) host batches
        output middle sound
      simp only [DeferredQueue.empty, slots, Expansion.proceed]
      rw [replayed]
      refine ⟨_, _, rfl, fun text success => ?_⟩
      cases folded : Evaluation.on (deferrals.foldlM (Deferral.replay host) output) middle with
      | mk result final =>
          rw [folded] at success
          cases success
          obtain ⟨ordinary, noted, mainOnly⟩ := notes
          obtain ⟨replays, replayedCalls, made⟩ := calls_replay sound folded
          refine ⟨output, deferrals, middle, final, ordinary, replays, rfl, rfl,
            forms.indices_increasing.sublist order, sound, folded, rfl, ?_, mainOnly, made⟩
          have counted : (Expansion.finish (final.queueing .empty)).calls = final.calls := rfl
          rw [counted, replayedCalls, noted]
          rfl

/-- A registry with a tag that brackets its body and a deferred one that writes its parameter
and its body behind the output. -/
def Registry.appending : Registry :=
  ⟨⟨":", [("o", ⟨fun call => .done ("(" ++ call.body.asText ++ ")"), .default, false⟩),
    ("p", ⟨fun call => .done (call.document.getD "" ++ "<" ++ call.param.asText ++
      call.body.asText ++ ">"), { deferred := true }, false⟩)]⟩, none⟩

theorem Registry.serves_appending (document : Document) :
    Registry.Serves (· = .appending) document (·.redo = false) := by
  apply Registry.serves_of_still rfl
  intro name binding member
  simp only [appending, List.mem_cons, Prod.mk.injEq, List.not_mem_nil, or_false] at member
  rcases member with ⟨_, rfl⟩ | ⟨_, rfl⟩ <;> exact ⟨rfl, fun call => .done _⟩

/-- An engine with a deferred tag in the body of a deferred tag, and one in that of another. -/
def Engine.appending : Engine :=
  ((Action.load "x\x7bp:1\x7d\x7bp:2\x7db\x7b:p\x7d\x7b:p\x7d\x7bo:\x7d\x7bp:3\x7dc\x7b:o\x7dy").perform
    (shallow .appending)).2

def Document.appending : Document :=
  ⟨"x\x7bp:1\x7d\x7bp:2\x7db\x7b:p\x7d\x7b:p\x7d\x7bo:\x7d\x7bp:3\x7dc\x7b:o\x7dy",
    #[.literal "x", .tag ⟨"p", "1", 1, 6⟩, .literal "", .tag ⟨"p", "2", 6, 11⟩, .literal "b",
      .tag ⟨"", "p", 12, 16⟩, .literal "", .tag ⟨"", "p", 16, 20⟩, .literal "",
      .tag ⟨"o", "", 20, 24⟩, .literal "", .tag ⟨"p", "3", 24, 29⟩, .literal "c",
      .tag ⟨"", "o", 30, 34⟩, .literal "y"],
    #[none, some (.closedAt 7), none, some (.closedAt 5), none, some (.closes 3), none,
      some (.closes 1), none, some (.closedAt 13), none, some .selfClosed, none,
      some (.closes 9), none]⟩

theorem Engine.appending_eq :
    appending = { shallow .appending with document := .appending } := by
  have parsed : Document.parse .default Document.appending.source = .ok .appending := by
    decide +kernel
  simp only [Document.appending] at parsed
  simp only [appending, Action.perform, load, parse, shallow, parsed, Document.appending]

theorem Engine.registry_appending : appending.registry = .appending := by
  rw [appending_eq]
  rfl

theorem Engine.deferred_in_source_order_nested :
    appending.Reachable ∧ ∃ (after middle : Engine) (output : String) (deferrals : List Deferral),
      (Expansion.evaluate 1).run appending = some (.ok "x(c)y<1><2b><3>", after) ∧
      after.calls.map (fun call => (call.tag, call.document)) =
        [("o", none), ("p", some "x(c)y"), ("p", some "x(c)y<1>"), ("p", some "x(c)y<1><2b>")] ∧
      (Evaluation.whole (Evaluation.range appending.settings.maxDepth) appending.document).on
        (Expansion.begin appending) = (.ok output, middle.queueing (.holding deferrals)) ∧
      (deferrals.map Deferral.index).Pairwise (· < ·) ∧
      (∀ deferral ∈ deferrals, deferral.Sound (· = .appending) appending.document) := by
  have reachable : appending.Reachable := .acted (reachable_shallow _) _
  have observed : ((Expansion.evaluate 1).run appending).map (fun outcome =>
      (outcome.1, outcome.2.calls.map fun call => (call.tag, call.document))) =
      some (.ok "x(c)y<1><2b><3>",
        [("o", none), ("p", some "x(c)y"), ("p", some "x(c)y<1>"),
          ("p", some "x(c)y<1><2b>")]) := by
    rw [appending_eq]
    decide +kernel
  obtain ⟨_, ordered⟩ := deferred_in_source_order reachable registry_appending
    (Registry.serves_appending _) (Evaluation.host (Evaluation.range 0))
  obtain ⟨result, after, ran, succeeded⟩ := ordered 0
  rw [ran] at observed
  obtain ⟨text, made⟩ := Prod.mk.inj (Option.some.inj observed)
  obtain ⟨output, deferrals, middle, _, _, _, _, main, increasing, sound, _⟩ :=
    succeeded _ text
  refine ⟨reachable, after, middle, output, deferrals, ?_, made, main, increasing, sound⟩
  rw [ran]
  exact congrArg (fun result => some (result, after)) text

end TagTemplate
