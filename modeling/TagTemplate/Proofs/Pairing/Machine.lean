import Mathlib.Data.List.Induction
import Mathlib.Data.List.TakeDrop
import Mathlib.Data.List.TakeWhile
import TagTemplate.Pairing

/-!
A stack machine that pairs tags in one pass.

The machine keeps the open tags that are still unmatched: on a stack those that a
close tag can see, and apart from them those that a closed pair hides.  It gives each
segment its role when it reads it; an open tag closes itself until a close tag takes it.
-/

namespace TagTemplate.Pairing

/-- An open tag that is still unmatched. -/
structure Waiting where
  index : Nat
  name : String
deriving DecidableEq, Repr

/-- Whether a close tag that names `wanted` may take a waiting tag: the names agree, or
the close tag names none. -/
def Waiting.answers (wanted : String) (waiting : Waiting) : Bool :=
  wanted.isEmpty || waiting.name == wanted

theorem Waiting.answers_iff {wanted : String} {waiting : Waiting} :
    waiting.answers wanted = true ↔ wanted = "" ∨ wanted = waiting.name := by
  simp only [answers, Bool.or_eq_true, String.isEmpty_iff, beq_iff_eq]
  exact or_congr_right eq_comm

/-- What the machine knows about the segments that it has read. -/
structure Machine where
  /-- the unmatched tags that a close tag can see, topmost first -/
  visible : List Waiting
  /-- the unmatched tags inside closed pairs -/
  hidden : List Waiting
  /-- the roles of the segments -/
  roles : Roles
deriving DecidableEq, Repr

namespace Machine

def start : Machine := ⟨[], [], #[]⟩

def assign (machine : Machine) (role : Option Role) : Machine :=
  { machine with roles := machine.roles.push role }

/-- Puts the next segment, an open tag, on the stack. -/
def push (machine : Machine) (name : String) : Machine :=
  { machine.assign (some .selfClosed) with
    visible := ⟨machine.roles.size, name⟩ :: machine.visible }

/-- Pairs the next segment, a close tag, with a tag on the stack.  The tags above it
stay unmatched for good. -/
def take (machine : Machine) (above : List Waiting) (opener : Waiting) (below : List Waiting) :
    Machine where
  visible := below
  hidden := above ++ machine.hidden
  roles := (machine.roles.setIfInBounds opener.index (some (.closedAt machine.roles.size))).push
    (some (.closes opener.index))

/-- Reads a close tag.  It takes the topmost tag on the stack that answers to it; if
only hidden tags do, the pairs would cross and the machine stops. -/
def close (machine : Machine) (wanted : String) : Option Machine :=
  match machine.visible.span fun waiting => !waiting.answers wanted with
  | (above, opener :: below) => some (machine.take above opener below)
  | (_, []) =>
    if machine.hidden.any (Waiting.answers wanted) then none
    else some (machine.assign (some .dangling))

def step (machine : Machine) : Segment → Option Machine
  | .literal _ => some (machine.assign none)
  | .tag tag =>
    if tag.isClose then machine.close tag.closeName else some (machine.push tag.name)

def runFrom (machine : Machine) (segments : List Segment) : Option Machine :=
  segments.foldlM step machine

def run (segments : List Segment) : Option Machine :=
  start.runFrom segments

/-- The rules by which one segment moves the machine. -/
inductive Step (machine : Machine) : Segment → Machine → Prop where
  | literal (text : String) : Step machine (.literal text) (machine.assign none)
  | opened {tag : Tag} (named : tag.isClose = false) :
      Step machine (.tag tag) (machine.push tag.name)
  | paired {tag : Tag} {above below : List Waiting} {opener : Waiting}
      (unnamed : tag.isClose = true) (stack : machine.visible = above ++ opener :: below)
      (refused : ∀ waiting ∈ above, waiting.answers tag.closeName = false)
      (answered : opener.answers tag.closeName = true) :
      Step machine (.tag tag) (machine.take above opener below)
  | dangling {tag : Tag} (unnamed : tag.isClose = true)
      (refused : ∀ waiting ∈ machine.visible ++ machine.hidden,
        waiting.answers tag.closeName = false) :
      Step machine (.tag tag) (machine.assign (some .dangling))

variable {machine next : Machine} {segment : Segment} {segments more : List Segment}

theorem close_of_stack {wanted : String} {above below : List Waiting} {opener : Waiting}
    (stack : machine.visible = above ++ opener :: below)
    (refused : ∀ waiting ∈ above, waiting.answers wanted = false)
    (answered : opener.answers wanted = true) :
    machine.close wanted = some (machine.take above opener below) := by
  have passes : ∀ waiting ∈ above, (!waiting.answers wanted) = true := by
    intro waiting member
    simp [refused waiting member]
  rw [close, List.span_eq_takeWhile_dropWhile, stack,
    List.takeWhile_append_of_pos passes, List.dropWhile_append_of_pos passes]
  simp [answered]

theorem close_of_refused {wanted : String}
    (refused : ∀ waiting ∈ machine.visible, waiting.answers wanted = false) :
    machine.close wanted = if machine.hidden.any (Waiting.answers wanted) then none
      else some (machine.assign (some .dangling)) := by
  have empty : machine.visible.dropWhile (fun waiting => !waiting.answers wanted) = [] := by
    rw [List.dropWhile_eq_nil_iff]
    intro waiting member
    simp [refused waiting member]
  rw [close, List.span_eq_takeWhile_dropWhile, empty]

/-- Every stack splits at the topmost tag that answers to a name, or has none. -/
theorem stack_cases (visible : List Waiting) (wanted : String) :
    (∃ above opener below, visible = above ++ opener :: below ∧
      (∀ waiting ∈ above, waiting.answers wanted = false) ∧ opener.answers wanted = true) ∨
    ∀ waiting ∈ visible, waiting.answers wanted = false := by
  cases found : visible.find? (Waiting.answers wanted) with
  | none =>
      right
      intro waiting member
      simpa using List.find?_eq_none.mp found waiting member
  | some opener =>
      left
      obtain ⟨answered, above, below, stack, refused⟩ := List.find?_eq_some_iff_append.mp found
      exact ⟨above, opener, below, stack, by simpa using refused, answered⟩

theorem step_eq_some_iff : machine.step segment = some next ↔ machine.Step segment next := by
  constructor
  · intro stepped
    cases segment with
    | literal text =>
        cases stepped
        exact .literal text
    | tag tag =>
        cases unnamed : tag.isClose with
        | false =>
            simp only [step, unnamed] at stepped
            cases stepped
            exact .opened unnamed
        | true =>
            simp only [step, unnamed, if_true] at stepped
            rcases stack_cases machine.visible tag.closeName with
              ⟨above, opener, below, stack, refused, answered⟩ | refused
            · rw [close_of_stack stack refused answered] at stepped
              cases stepped
              exact .paired unnamed stack refused answered
            · rw [close_of_refused refused] at stepped
              split at stepped
              · contradiction
              · rename_i silent
                cases stepped
                refine .dangling unnamed fun waiting member => ?_
                rcases List.mem_append.mp member with seen | buried
                · exact refused waiting seen
                · simp only [List.any_eq_true, not_exists, not_and] at silent
                  simpa using silent waiting buried
  · intro rule
    cases rule with
    | literal text => rfl
    | opened named => simp [step, named]
    | paired unnamed stack refused answered =>
        simp only [step, unnamed, if_true]
        exact close_of_stack stack refused answered
    | @dangling tag unnamed refused =>
        have silent : ¬ machine.hidden.any (Waiting.answers tag.closeName) = true := by
          simp only [List.any_eq_true, not_exists, not_and]
          intro waiting buried
          simp [refused waiting (List.mem_append_right _ buried)]
        simp only [step, unnamed, if_true]
        rw [close_of_refused fun waiting seen => refused waiting (List.mem_append_left _ seen),
          if_neg silent]

theorem Step.size_eq (rule : machine.Step segment next) :
    next.roles.size = machine.roles.size + 1 := by
  cases rule <;> simp [assign, push, take]

/-- The machine stops at close tags only, when hidden tags answer but no visible one. -/
theorem step_eq_none (stuck : machine.step segment = none) :
    ∃ tag, segment = .tag tag ∧ tag.isClose = true ∧
      (∀ waiting ∈ machine.visible, waiting.answers tag.closeName = false) ∧
      ∃ waiting ∈ machine.hidden, waiting.answers tag.closeName = true := by
  cases segment with
  | literal text => cases stuck
  | tag tag =>
      cases unnamed : tag.isClose with
      | false => simp [step, unnamed] at stuck
      | true =>
          simp only [step, unnamed, if_true] at stuck
          rcases stack_cases machine.visible tag.closeName with
            ⟨above, opener, below, stack, refused, answered⟩ | refused
          · rw [close_of_stack stack refused answered] at stuck
            contradiction
          · rw [close_of_refused refused] at stuck
            split at stuck
            · rename_i answered
              exact ⟨tag, rfl, unnamed, refused, List.any_eq_true.mp answered⟩
            · contradiction

theorem runFrom_cons_iff :
    machine.runFrom (segment :: segments) = some next ↔
      ∃ middle, machine.Step segment middle ∧ middle.runFrom segments = some next := by
  simp only [runFrom, List.foldlM_cons, Option.bind_eq_bind, Option.bind_eq_some_iff,
    step_eq_some_iff]

theorem runFrom_append (machine : Machine) (segments more : List Segment) :
    machine.runFrom (segments ++ more) =
      (machine.runFrom segments).bind (·.runFrom more) :=
  List.foldlM_append

theorem runFrom_append_iff :
    machine.runFrom (segments ++ more) = some next ↔
      ∃ middle, machine.runFrom segments = some middle ∧ middle.runFrom more = some next := by
  rw [runFrom_append, Option.bind_eq_some_iff]

theorem size_eq_of_runFrom (ran : machine.runFrom segments = some next) :
    next.roles.size = machine.roles.size + segments.length := by
  induction segments generalizing machine with
  | nil =>
      cases ran
      rfl
  | cons segment segments ih =>
      obtain ⟨middle, rule, rest⟩ := runFrom_cons_iff.mp ran
      rw [ih rest, rule.size_eq, List.length_cons]
      omega

theorem run_concat (segments : List Segment) (segment : Segment) :
    run (segments ++ [segment]) = (run segments).bind (·.step segment) := by
  rw [run, run, runFrom_append]
  congr 1
  funext machine
  simp [runFrom]

/-- What holds at the start and is kept by every step holds after a run. -/
theorem run_induction {motive : List Segment → Machine → Prop}
    (initial : motive [] start)
    (kept : ∀ segments machine segment next, motive segments machine →
      machine.Step segment next → motive (segments ++ [segment]) next)
    (ran : run segments = some machine) : motive segments machine := by
  induction segments using List.reverseRecOn generalizing machine with
  | nil =>
      cases ran
      exact initial
  | append_singleton segments segment ih =>
      rw [run_concat] at ran
      obtain ⟨before, earlier, stepped⟩ := Option.bind_eq_some_iff.mp ran
      exact kept segments before segment machine (ih earlier) (step_eq_some_iff.mp stepped)

end Machine

end TagTemplate.Pairing
