/-!
The queue of deferred entries.

A slot is reserved when a deferred tag is met and filled once its call is ready, so
that entries leave the queue in the order in which their tags were met, even where
one tag lies in the body of another.
-/

namespace TagTemplate

/-- Reserved slots in the order of their reservation. -/
structure DeferredQueue (α : Type) where
  slots : List (Option α)

namespace DeferredQueue

variable {α : Type}

def empty : DeferredQueue α := ⟨[]⟩

/-- Reserves the next slot and returns its number. -/
def reserve (queue : DeferredQueue α) : Nat × DeferredQueue α :=
  (queue.slots.length, ⟨queue.slots ++ [none]⟩)

/-- Fills a slot; a slot that has not been reserved is ignored. -/
def fill (slot : Nat) (entry : α) (queue : DeferredQueue α) : DeferredQueue α :=
  ⟨queue.slots.set slot (some entry)⟩

/-- The entries of the filled slots in slot order. -/
def entries (queue : DeferredQueue α) : List α :=
  queue.slots.filterMap id

/-- The number of filled slots. -/
def size (queue : DeferredQueue α) : Nat :=
  queue.slots.countP Option.isSome

def isEmpty (queue : DeferredQueue α) : Bool :=
  queue.size == 0

/-- Takes all entries out and forgets all slots. -/
def drain (queue : DeferredQueue α) : List α × DeferredQueue α :=
  (queue.entries, empty)

theorem entries_reserve (queue : DeferredQueue α) : queue.reserve.2.entries = queue.entries := by
  simp [reserve, entries]

/-- A slot that is filled at once is the last one. -/
theorem fill_reserve (queue : DeferredQueue α) (entry : α) :
    queue.reserve.2.fill queue.reserve.1 entry = ⟨queue.slots ++ [some entry]⟩ := by
  simp [reserve, fill]

theorem mem_entries_fill {queue : DeferredQueue α} {slot : Nat} {entry other : α}
    (member : other ∈ (queue.fill slot entry).entries) : other = entry ∨ other ∈ queue.entries := by
  simp only [fill, entries, List.mem_filterMap, id_eq, exists_eq_right] at member ⊢
  rcases List.mem_or_eq_of_mem_set member with old | same
  · exact .inr old
  · exact .inl (Option.some.inj same)

end DeferredQueue

end TagTemplate
