import TagTemplate.Proofs.CallStack.Places
import TagTemplate.Engine

/-!
Slots are scoped.

Reading and filling the slot of a name reach the same entry, and nothing but that entry changes.
Whatever is done between a push and the pop that matches it leaves the frames below as they
were, except for slots that are filled while no newer entry has their name.
-/

namespace TagTemplate.CallStack

/-- What can be done to a call stack. -/
inductive Operation where
  | push
  | pop
  | record (name : String)
  | get (name : String)
  | set (name : String) (value : Json.Value)

namespace Operation

/-- The stack after an operation.  A slot that is not found leaves it as it was. -/
def apply (stack : CallStack) : Operation → CallStack
  | .push => stack.push
  | .pop => stack.pop
  | .record name => stack.record name
  | .get _ => stack
  | .set name value => (stack.set name value).toOption.getD stack

/-- Whether operations close the frames that they open and a number of frames that are open
already, and no other frame. -/
def closes : Nat → List Operation → Bool
  | opened, [] => opened == 0
  | opened, .push :: rest => closes (opened + 1) rest
  | 0, .pop :: _ => false
  | opened + 1, .pop :: rest => closes opened rest
  | opened, _ :: rest => closes opened rest

end Operation

open Operation (closes)

/-- The stack after operations in a row. -/
def run (operations : List Operation) (stack : CallStack) : CallStack :=
  operations.foldl Operation.apply stack

/-- The entries that are newer than the first frames of a stack. -/
def above (depth : Nat) (stack : CallStack) : List Entry :=
  (stack.frames.take (stack.depth - depth)).flatten

/-- Among the operations on a stack, a value is put into the slot of a name while no entry newer
than the first `depth` frames has the name. -/
def Reaches (depth : Nat) (stack : CallStack) (operations : List Operation) (name : String)
    (value : Json.Value) : Prop :=
  ∃ before behind, operations = before ++ .set name value :: behind ∧
    ∀ entry ∈ (run before stack).above depth, entry.name ≠ name

/-- The names are as before, and so are the slots, but for those of newest entries into which a
value has been put. -/
structure KeptBut (reaches : String → Json.Value → Prop) (before after : CallStack) : Prop where
  names : after.names = before.names
  slots : ∀ {position entry changed}, before.entries[position]? = some entry →
    after.entries[position]? = some changed → changed.slot ≠ entry.slot →
    entry.name ∉ (before.entries.take position).map Entry.name ∧
      ∃ value, reaches entry.name value ∧ changed.slot = some value

variable {stack before middle after : CallStack} {name : String} {value : Json.Value}
  {operation : Operation} {rest operations : List Operation} {depth opened : Nat}
  {newer older : List (List Entry)}

theorem above_append (newer older : List (List Entry)) :
    above older.length ⟨newer ++ older⟩ = newer.flatten := by
  simp [above, CallStack.depth]

theorem Reaches.cons (reaches : Reaches depth (operation.apply stack) rest name value) :
    Reaches depth stack (operation :: rest) name value := by
  obtain ⟨before, behind, rfl, unseen⟩ := reaches
  exact ⟨operation :: before, behind, rfl, unseen⟩

theorem Reaches.append (reaches : Reaches depth stack operations name value)
    (rest : List Operation) : Reaches depth stack (operations ++ rest) name value := by
  obtain ⟨before, behind, rfl, unseen⟩ := reaches
  exact ⟨before, behind ++ rest, by simp, unseen⟩

theorem reaches_of_missing (missing : ∀ frame ∈ names ⟨newer⟩, name ∉ frame) :
    Reaches older.length ⟨newer ++ older⟩ (.set name value :: rest) name value := by
  refine ⟨[], rest, rfl, ?_⟩
  intro entry member same
  rw [run, List.foldl_nil, above_append] at member
  obtain ⟨frame, held, member⟩ := List.mem_flatten.mp member
  exact missing _ (List.mem_map_of_mem held) (List.mem_map.mpr ⟨entry, member, same⟩)

theorem exists_entry_of_names (same : after.names = before.names) {position : Nat} {entry : Entry}
    (found : before.entries[position]? = some entry) :
    ∃ other, after.entries[position]? = some other ∧ other.name = entry.name := by
  have named : (after.entries.map Entry.name)[position]? = some entry.name := by
    rw [map_name_entries, same, ← map_name_entries, List.getElem?_map, found]
    rfl
  rw [List.getElem?_map] at named
  exact Option.map_eq_some_iff.mp named

namespace KeptBut

variable {reaches earlier later : String → Json.Value → Prop}

theorem refl (reaches : String → Json.Value → Prop) (stack : CallStack) :
    KeptBut reaches stack stack := by
  refine ⟨rfl, fun found again different => ?_⟩
  rw [found] at again
  cases again
  exact absurd rfl different

theorem mono (kept : KeptBut earlier before after)
    (implies : ∀ name value, earlier name value → reaches name value) :
    KeptBut reaches before after := by
  refine ⟨kept.names, fun found again different => ?_⟩
  obtain ⟨newest, value, reached, filled⟩ := kept.slots found again different
  exact ⟨newest, value, implies _ _ reached, filled⟩

theorem trans (first : KeptBut reaches before middle) (second : KeptBut reaches middle after) :
    KeptBut reaches before after := by
  refine ⟨second.names.trans first.names, ?_⟩
  intro position entry changed found again different
  obtain ⟨between, there, same⟩ := exists_entry_of_names first.names found
  by_cases kept : changed.slot = between.slot
  · obtain ⟨newest, value, reached, filled⟩ := first.slots found there (kept ▸ different)
    exact ⟨newest, value, reached, kept.trans filled⟩
  · obtain ⟨newest, value, reached, filled⟩ := second.slots there again kept
    rw [same, List.map_take, map_name_entries, first.names, ← map_name_entries,
      ← List.map_take] at newest
    exact ⟨newest, value, same ▸ reached, filled⟩

/-- Filling the slot of the newest entry of a name changes nothing else. -/
theorem fill {place : Place} (newest : place.Newest name) (reached : reaches name value) :
    KeptBut reaches place.stack (place.fill value).stack := by
  refine ⟨by simp [CallStack.names, Place.stack, Place.fill], ?_⟩
  intro position entry changed found again different
  rw [Place.entries_stack] at found again ⊢
  change (place.newer ++ { place.entry with slot := some value } :: place.older)[position]? =
    some changed at again
  rcases Nat.lt_trichotomy position place.newer.length with before | rfl | behind
  · rw [List.getElem?_append_left before] at found again
    rw [found] at again
    cases again
    exact absurd rfl different
  · rw [List.getElem?_append_right (Nat.le_refl _), Nat.sub_self] at found again
    cases found
    cases again
    rw [List.take_left, newest.named]
    exact ⟨newest.not_mem_newer, value, reached, rfl⟩
  · obtain ⟨offset, rfl⟩ := Nat.exists_eq_add_of_lt behind
    rw [List.getElem?_append_right (by omega), Nat.add_assoc, Nat.add_sub_cancel_left,
      List.getElem?_cons_succ] at found again
    rw [found] at again
    cases again
    exact absurd rfl different

end KeptBut

theorem apply_of_newest {place : Place} (newest : place.Newest name) :
    (Operation.set name value).apply place.stack = (place.fill value).stack := by
  rw [Operation.apply, set_of_newest newest]
  rfl

/-- A value goes into a slot of the newer frames; if they do not have the name, it reaches the
older frames. -/
theorem apply_set_append (newer older : List (List Entry)) (name : String) (value : Json.Value)
    (rest : List Operation) :
    ∃ newer' older', (Operation.set name value).apply ⟨newer ++ older⟩ = ⟨newer' ++ older'⟩ ∧
      newer'.length = newer.length ∧
      KeptBut (Reaches older.length ⟨newer ++ older⟩ (.set name value :: rest)) ⟨older⟩ ⟨older'⟩ := by
  rcases newest_or_missing ⟨newer⟩ name with ⟨place, same, newest⟩ | missing
  · obtain rfl : newer = place.stack.frames := (congrArg frames same).symm
    refine ⟨(place.fill value).stack.frames, older, ?_, ?_, .refl _ _⟩
    · rw [← Place.stack_atop, ← Place.stack_atop, apply_of_newest (newest.atop older)]
      rfl
    · simp [Place.stack, Place.fill]
  rcases newest_or_missing ⟨older⟩ name with ⟨place, same, newest⟩ | nowhere
  · obtain rfl : older = place.stack.frames := (congrArg frames same).symm
    refine ⟨newer, (place.fill value).stack.frames, ?_, rfl, .fill newest ?_⟩
    · rw [← Place.stack_beneath, ← Place.stack_beneath, apply_of_newest (newest.beneath missing)]
      rfl
    · exact reaches_of_missing missing
  · refine ⟨newer, older, ?_, rfl, .refl _ _⟩
    have none : ∀ frame ∈ names ⟨newer ++ older⟩, name ∉ frame := by
      intro frame member
      rw [names, List.map_append] at member
      exact (List.mem_append.mp member).elim (missing frame) (nowhere frame)
    rw [Operation.apply, set_of_missing none]
    rfl

/-- An operation that does not close the last of the newer frames leaves the older frames where
they are. -/
theorem apply_append (closed : closes opened (operation :: rest) = true)
    (length : newer.length = opened + 1) :
    ∃ opened' newer' older', closes opened' rest = true ∧ newer'.length = opened' + 1 ∧
      operation.apply ⟨newer ++ older⟩ = ⟨newer' ++ older'⟩ ∧
      KeptBut (Reaches older.length ⟨newer ++ older⟩ (operation :: rest)) ⟨older⟩ ⟨older'⟩ := by
  obtain ⟨top, others, rfl⟩ := List.exists_cons_of_length_eq_add_one length
  cases operation with
  | push => exact ⟨opened + 1, [] :: top :: others, older, closed, by simp [length], rfl, .refl _ _⟩
  | pop =>
      cases opened with
      | zero => cases closed
      | succ opened => exact ⟨opened, others, older, closed, by simpa using length, rfl, .refl _ _⟩
  | record name =>
      refine ⟨opened, (⟨name, none⟩ :: top) :: others, older, ?_, length, rfl, .refl _ _⟩
      cases opened <;> exact closed
  | get name =>
      refine ⟨opened, top :: others, older, ?_, length, rfl, .refl _ _⟩
      cases opened <;> exact closed
  | set name value =>
      obtain ⟨newer', older', applied, same, kept⟩ :=
        apply_set_append (top :: others) older name value rest
      refine ⟨opened, newer', older', ?_, same.trans length, applied, kept⟩
      cases opened <;> exact closed

/-- Operations that close all newer frames but one leave this one on top of the older frames, which
have changed only where values have reached them. -/
theorem run_append (closed : closes opened operations = true)
    (length : newer.length = opened + 1) :
    ∃ top older', run operations ⟨newer ++ older⟩ = ⟨top :: older'⟩ ∧
      KeptBut (Reaches older.length ⟨newer ++ older⟩ operations) ⟨older⟩ ⟨older'⟩ := by
  induction operations generalizing opened newer older with
  | nil =>
      obtain rfl : opened = 0 := by simpa [closes] using closed
      obtain ⟨top, rfl⟩ := List.length_eq_one_iff.mp length
      exact ⟨top, older, rfl, .refl _ _⟩
  | cons operation rest ih =>
      obtain ⟨opened', newer', middle, closed, length, applied, here⟩ := apply_append closed length
      have inside : ∃ top older', run rest ⟨newer' ++ middle⟩ = ⟨top :: older'⟩ ∧
          KeptBut (Reaches middle.length ⟨newer' ++ middle⟩ rest) ⟨middle⟩ ⟨older'⟩ :=
        ih closed length
      obtain ⟨top, older', ran, behind⟩ := inside
      have depth : middle.length = older.length := by
        have same := congrArg List.length here.names
        rwa [length_names, length_names] at same
      rw [depth, ← applied] at behind
      refine ⟨top, older', ?_, here.trans (behind.mono fun _ _ reaches => reaches.cons)⟩
      rw [run, List.foldl_cons, applied]
      exact ran

/-- What is done between a push and the pop that matches it. -/
theorem run_between {inner : List Operation} (closed : closes 0 inner = true) (stack : CallStack) :
    let operations := .push :: (inner ++ [.pop])
    KeptBut (Reaches stack.depth stack operations) stack (run operations stack) := by
  obtain ⟨frames⟩ := stack
  have inside : ∃ top older, run inner ⟨[] :: frames⟩ = ⟨top :: older⟩ ∧
      KeptBut (Reaches frames.length ⟨[] :: frames⟩ inner) ⟨frames⟩ ⟨older⟩ :=
    @run_append inner 0 [[]] frames closed rfl
  obtain ⟨top, older, ran, kept⟩ := inside
  have popped : run (.push :: (inner ++ [.pop])) ⟨frames⟩ = ⟨older⟩ := by
    rw [run, List.foldl_cons, List.foldl_append]
    exact congrArg pop ran
  dsimp only
  rw [popped]
  exact kept.mono fun _ _ reaches => Reaches.cons (reaches.append [.pop])

/-- Slots are scoped by name.  A name is recorded exactly if its slot can be read, and exactly if
it can be filled; filling it changes the entry that is read and no other, and a slot that is not
found leaves the engine as it was.  Operations between a push and the pop that matches it leave the
names below as they were, and the slot of an entry below only changes if it is the newest one of its
name below and a value is put into it while no newer entry has the name. -/
theorem slots_scoped (stack : CallStack) :
    (∀ name value,
      (stack.contains name = true ↔ ∃ slot, stack.get name = .ok slot) ∧
      (stack.contains name = true ↔ ∃ changed, stack.set name value = .ok changed)) ∧
    (∀ name value changed, stack.set name value = .ok changed →
      changed.get name = .ok (some value) ∧
      (∀ other, other ≠ name → changed.get other = stack.get other) ∧
      ∃ place : Place, place.Newest name ∧ stack = place.stack ∧
        changed = (place.fill value).stack) ∧
    (∀ name value error (engine : Engine), stack.set name value = .error error →
      engine.callStack = stack → engine.setSlot name value = (.error error, engine)) ∧
    ∀ inner, closes 0 inner = true →
      let operations := .push :: (inner ++ [.pop])
      let after := run operations stack
      after.names = stack.names ∧
      ∀ position entry changed, stack.entries[position]? = some entry →
        after.entries[position]? = some changed → changed.slot ≠ entry.slot →
        entry.name ∉ (stack.entries.take position).map Entry.name ∧
        ∃ value, Reaches stack.depth stack operations entry.name value ∧
          changed.slot = some value := by
  refine ⟨?_, ?_, ?_, ?_⟩
  · intro name value
    rcases newest_or_missing stack name with ⟨place, rfl, newest⟩ | missing
    · have contained : place.stack.contains name = true := by
        rw [contains_iff]
        exact ⟨_, List.mem_map_of_mem (List.mem_append_right _ (.head _)), by
          simp [newest.named]⟩
      simp [contained, get_of_newest newest, set_of_newest newest]
    · have absent : stack.contains name ≠ true := by
        rw [Ne, contains_iff]
        rintro ⟨frame, member, named⟩
        exact missing frame member named
      simp [absent, get_of_missing missing, set_of_missing missing]
  · intro name value changed set
    rcases newest_or_missing stack name with ⟨place, rfl, newest⟩ | missing
    · rw [set_of_newest newest] at set
      cases set
      exact ⟨get_of_newest newest.fill, fun other different => newest.get_fill different,
        place, newest, rfl, rfl⟩
    · rw [set_of_missing missing] at set
      cases set
  · rintro name value error engine failed rfl
    rw [Engine.setSlot, failed]
  · intro inner closed
    have kept := run_between closed stack
    exact ⟨kept.names, fun position entry changed => kept.slots⟩

/-- A stack with two frames, both of which have a row. -/
def rows : CallStack :=
  ⟨[[⟨"cell", none⟩, ⟨"row", none⟩], [⟨"row", some (.string "first")⟩]]⟩

/-- Of three values that are put into rows in a scope, two are put into the newer row below and one
into a row of the scope; the cell below is hidden by that of the scope. -/
theorem slots_scoped_rows :
    let inner := [.record "cell", .set "row" (.string "a"), .set "cell" (.string "b"), .push,
      .record "row", .set "row" (.string "c"), .pop, .set "row" (.string "d")]
    let operations := .push :: (inner ++ [.pop])
    closes 0 inner = true ∧
    run operations rows =
      ⟨[[⟨"cell", none⟩, ⟨"row", some (.string "d")⟩], [⟨"row", some (.string "first")⟩]]⟩ ∧
    (run operations rows).names = rows.names ∧
    "row" ∉ (rows.entries.take 1).map Entry.name ∧
    Reaches 2 rows operations "row" (.string "d") ∧
    (∃ changed, rows.set "row" (.string "x") = .ok changed ∧
      changed.get "row" = .ok (some (.string "x")) ∧ changed.get "cell" = .ok none) ∧
    ∀ engine : Engine, engine.callStack = rows →
      engine.setSlot "table" .null = (.error (.callStackMiss "table"), engine) := by
  obtain ⟨-, filled, missed, between⟩ := slots_scoped rows
  have closed : closes 0 [.record "cell", .set "row" (.string "a"), .set "cell" (.string "b"),
      .push, .record "row", .set "row" (.string "c"), .pop, .set "row" (.string "d")] = true := rfl
  obtain ⟨names, slots⟩ := between _ closed
  obtain ⟨newest, value, reached, same⟩ := slots 1 _ _ rfl rfl (by simp)
  cases same
  obtain ⟨got, others, -⟩ := filled "row" (.string "x") _ rfl
  exact ⟨closed, rfl, names, newest, reached, ⟨_, rfl, got, others "cell" (by decide)⟩,
    fun engine same => missed "table" .null _ engine rfl same⟩

end TagTemplate.CallStack
