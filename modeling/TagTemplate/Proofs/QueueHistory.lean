import Mathlib.Data.List.DropRight
import TagTemplate.DeferredQueue

/-!
The queue after a history of operations.

What a queue answers depends only on what has been done since it was last emptied: on how many
slots have been reserved, and on the entry that was filled last into each of them.
-/

namespace TagTemplate.DeferredQueue

/-- What can be done to a queue. -/
inductive Operation (α : Type) where
  | reserve
  | fill (slot : Nat) (entry : α)
  | clear
  | drain

variable {α : Type}

namespace Operation

/-- The queue after an operation. -/
def apply (queue : DeferredQueue α) : Operation α → DeferredQueue α
  | .reserve => queue.reserve.2
  | .fill slot entry => queue.fill slot entry
  | .clear => empty
  | .drain => queue.drain.2

def reserves : Operation α → Bool
  | .reserve => true
  | .fill .. | .clear | .drain => false

def empties : Operation α → Bool
  | .clear | .drain => true
  | .reserve | .fill .. => false

end Operation

/-- The queue after operations in a row. -/
def run (history : List (Operation α)) (queue : DeferredQueue α) : DeferredQueue α :=
  history.foldl Operation.apply queue

/-- The operations of a history behind the last one that empties the queue. -/
def sinceEmptied (history : List (Operation α)) : List (Operation α) :=
  history.rtakeWhile fun operation => !operation.empties

/-- The number of slots that operations reserve. -/
def reservations (operations : List (Operation α)) : Nat :=
  operations.countP Operation.reserves

/-- The last entry that operations fill into a slot.  Filling a slot counts from its reservation
on. -/
def LastFilled (operations : List (Operation α)) (slot : Nat) (entry : α) : Prop :=
  ∃ before behind, operations = before ++ .fill slot entry :: behind ∧
    slot < reservations before ∧ ∀ other, .fill slot other ∉ behind

/-- A queue as it is left by operations that found it empty and have not emptied it again. -/
structure Holds (recent : List (Operation α)) (queue : DeferredQueue α) : Prop where
  reserved : queue.slots.length = reservations recent
  filled : ∀ {slot entry}, queue.slots[slot]? = some (some entry) ↔ LastFilled recent slot entry

variable {operations recent : List (Operation α)} {operation : Operation α}
  {queue : DeferredQueue α} {slot : Nat} {entry : α}

theorem sinceEmptied_concat (history : List (Operation α)) (operation : Operation α) :
    sinceEmptied (history ++ [operation]) =
      if operation.empties then [] else sinceEmptied history ++ [operation] := by
  rw [sinceEmptied, List.rtakeWhile_concat]
  cases operation <;> rfl

theorem reservations_concat (operations : List (Operation α)) (operation : Operation α) :
    reservations (operations ++ [operation]) =
      reservations operations + if operation.reserves then 1 else 0 := by
  rw [reservations, List.countP_append, List.countP_singleton]
  rfl

theorem LastFilled.lt_reservations (filled : LastFilled operations slot entry) :
    slot < reservations operations := by
  obtain ⟨before, behind, rfl, reserved, -⟩ := filled
  rw [reservations, List.countP_append]
  exact Nat.lt_add_right _ reserved

theorem lastFilled_concat :
    LastFilled (operations ++ [operation]) slot entry ↔
      (operation = .fill slot entry ∧ slot < reservations operations) ∨
        (LastFilled operations slot entry ∧ ∀ other, operation ≠ .fill slot other) := by
  constructor
  · rintro ⟨before, behind, same, reserved, last⟩
    -- The operation that is added is the filling itself, or it stands behind it.
    rcases List.eq_nil_or_concat' behind with rfl | ⟨inner, final, rfl⟩
    · obtain ⟨rfl, fills⟩ := List.append_inj' same rfl
      exact .inl ⟨List.singleton_inj.mp fills, reserved⟩
    · rw [← List.cons_append, ← List.append_assoc] at same
      obtain ⟨rfl, ends⟩ := List.append_inj' same rfl
      obtain rfl : operation = final := List.singleton_inj.mp ends
      refine .inr ⟨⟨before, inner, rfl, reserved, fun other member => ?_⟩, ?_⟩
      · exact last other (List.mem_append_left _ member)
      · rintro other rfl
        exact last other (List.mem_append_right _ (List.mem_singleton_self _))
  · rintro (⟨rfl, reserved⟩ | ⟨⟨before, behind, rfl, reserved, last⟩, different⟩)
    · exact ⟨operations, [], rfl, reserved, by simp⟩
    · refine ⟨before, behind ++ [operation], by simp, reserved, fun other member => ?_⟩
      rcases List.mem_append.mp member with earlier | final
      · exact last other earlier
      · exact different other (List.mem_singleton.mp final).symm

namespace Holds

theorem nothing : Holds [] (empty : DeferredQueue α) where
  reserved := rfl
  filled := by
    intro slot entry
    constructor
    · nofun
    · exact fun filled => absurd filled.lt_reservations (Nat.not_lt_zero _)

theorem reserve (holds : Holds recent queue) : Holds (recent ++ [.reserve]) queue.reserve.2 where
  reserved := by
    rw [reservations_concat, ← holds.reserved]
    simp [DeferredQueue.reserve, Operation.reserves]
  filled := by
    intro slot entry
    rw [lastFilled_concat, ← holds.filled]
    rcases Nat.lt_or_ge slot queue.slots.length with inside | behind
    · rw [DeferredQueue.reserve, List.getElem?_append_left inside]
      simp
    · rw [DeferredQueue.reserve, List.getElem?_append_right behind, List.getElem?_singleton]
      simp [List.getElem?_eq_none behind]

theorem fill (holds : Holds recent queue) (number : Nat) (filling : α) :
    Holds (recent ++ [.fill number filling]) (queue.fill number filling) where
  reserved := by
    rw [reservations_concat, ← holds.reserved]
    simp [DeferredQueue.fill, Operation.reserves]
  filled := by
    intro slot entry
    rw [lastFilled_concat, ← holds.filled, ← holds.reserved]
    -- Neither side takes an entry for a slot that has not been reserved.
    by_cases same : number = slot
    · subst same
      simp [DeferredQueue.fill, List.getElem?_set, and_comm]
    · simp [DeferredQueue.fill, same]

end Holds

/-- What operations leave is what those since the last emptying have reserved and filled. -/
theorem holds_run (history : List (Operation α)) :
    Holds (sinceEmptied history) (run history empty) := by
  induction history using List.reverseRecOn with
  | nil => exact .nothing
  | append_singleton history operation ih =>
      rw [sinceEmptied_concat, run, List.foldl_append]
      cases operation with
      | reserve => exact ih.reserve
      | fill slot entry => exact ih.fill slot entry
      | clear => exact .nothing
      | drain => exact .nothing

theorem filterMap_id_eq_range (slots : List (Option α)) :
    slots.filterMap id = (List.range slots.length).filterMap fun slot => slots[slot]?.join := by
  induction slots with
  | nil => rfl
  | cons first slots ih =>
      rw [List.length_cons, List.range_succ_eq_map, List.filterMap_cons, List.filterMap_cons,
        List.filterMap_map, ih]
      rfl

theorem size_eq_length (queue : DeferredQueue α) : queue.size = queue.entries.length := by
  rw [size, entries, List.length_filterMap_eq_countP]
  rfl

/-- A queue keeps the order of its slots and loses nothing.  After any history, a reservation
answers how many slots have been reserved since the queue was last emptied, and draining it goes
through these slots in order, takes from each the entry that was filled last into it and leaves
nothing behind.  Filling any other slot changes nothing, filling two slots can be done in either
order, and the size counts the entries that draining takes. -/
theorem drained_in_slot_order (history : List (Operation α)) :
    let queue := run history empty
    let recent := sinceEmptied history
    queue.reserve.1 = reservations recent ∧
    (∃ held : Nat → Option α,
      (∀ slot entry, held slot = some entry ↔ LastFilled recent slot entry) ∧
      queue.drain.1 = (List.range (reservations recent)).filterMap held) ∧
    queue.drain.2 = empty ∧
    (∀ slot entry, reservations recent ≤ slot → queue.fill slot entry = queue) ∧
    (∀ slot other entry another, slot ≠ other →
      (queue.fill slot entry).fill other another = (queue.fill other another).fill slot entry) ∧
    queue.size = queue.drain.1.length := by
  intro queue recent
  have holds : Holds recent queue := holds_run history
  refine ⟨holds.reserved, ⟨fun slot => queue.slots[slot]?.join, ?_, ?_⟩, rfl, ?_, ?_, ?_⟩
  · intro slot entry
    rw [Option.join_eq_some_iff, holds.filled]
  · rw [← holds.reserved]
    exact filterMap_id_eq_range queue.slots
  · intro slot entry outside
    rw [← holds.reserved] at outside
    rw [fill, List.set_eq_of_length_le outside]
  · intro slot other entry another different
    rw [fill, fill, fill, fill, List.set_comm _ _ different]
  · exact size_eq_length queue

/-- Neither a drained entry nor one that came before its slot was reserved is left; of two entries
in the first slot the later one counts, the second slot stays unfilled, and the third slot comes
last although it was filled first. -/
theorem drained_in_slot_order_refilled :
    let recent : List (Operation String) := [.fill 0 "early", .reserve, .reserve, .reserve,
      .fill 2 "inner", .fill 0 "outer", .fill 0 "again"]
    let history := [.reserve, .fill 0 "old", .drain] ++ recent
    let queue := run history empty
    sinceEmptied history = recent ∧
    LastFilled recent 0 "again" ∧ (∀ entry, ¬ LastFilled recent 1 entry) ∧
    LastFilled recent 2 "inner" ∧
    queue.reserve.1 = 3 ∧ queue.drain.1 = ["again", "inner"] ∧ queue.size = 2 ∧
    queue.fill 3 "late" = queue ∧
    (queue.fill 1 "a").fill 2 "b" = (queue.fill 2 "b").fill 1 "a" := by
  intro recent history queue
  have since : sinceEmptied history = recent := rfl
  have first : LastFilled recent 0 "again" :=
    ⟨[.fill 0 "early", .reserve, .reserve, .reserve, .fill 2 "inner", .fill 0 "outer"], [], rfl,
      by decide, by simp⟩
  have second : ∀ entry, ¬ LastFilled recent 1 entry := by
    rintro entry ⟨before, behind, same, -⟩
    have member : .fill 1 entry ∈ recent := by simp [same]
    simp [recent] at member
  have third : LastFilled recent 2 "inner" :=
    ⟨[.fill 0 "early", .reserve, .reserve, .reserve], [.fill 0 "outer", .fill 0 "again"], rfl,
      by decide, by simp⟩
  obtain ⟨reserved, ⟨held, lastFilled, drained⟩, -, ignored, commutes, size⟩ :=
    drained_in_slot_order history
  rw [since] at reserved drained lastFilled ignored
  have drained : queue.drain.1 = ["again", "inner"] := by
    have unfilled : held 1 = none := by
      refine Option.eq_none_iff_forall_ne_some.mpr fun entry filled => ?_
      exact second entry ((lastFilled _ _).mp filled)
    rw [drained, show reservations recent = 3 from rfl]
    simp [List.range_succ, (lastFilled _ _).mpr first, unfilled, (lastFilled _ _).mpr third]
  exact ⟨since, first, second, third, reserved, drained, by rw [size, drained]; rfl,
    ignored 3 "late" (by decide), commutes 1 2 "a" "b" (by decide)⟩

end TagTemplate.DeferredQueue
