import Mathlib.Logic.Basic
import TagTemplate.CallStack

/-!
The names on a call stack, and where an entry stands.

Operations on slots keep the names.  The newest entry of a name is the one that is read and
filled.
-/

namespace TagTemplate.CallStack

/-- The names recorded in each frame, newest first. -/
def names (stack : CallStack) : List (List String) :=
  stack.frames.map (List.map Entry.name)

section Names

variable {stack : CallStack} {top : List String} {below : List (List String)}

@[simp] theorem length_names : stack.names.length = stack.depth := by
  simp [names, depth]

@[simp] theorem names_push : stack.push.names = [] :: stack.names := rfl

@[simp] theorem names_pop : stack.pop.names = stack.names.tail := by
  simp [names, pop]

theorem names_record (name : String) (opened : stack.names = top :: below) :
    (stack.record name).names = (name :: top) :: below := by
  obtain ⟨frames⟩ := stack
  cases frames with
  | nil => cases opened
  | cons frame frames =>
      cases opened
      rfl

theorem names_setInFrame {name : String} {value : Json.Value} {frame changed : List Entry}
    (found : setInFrame name value frame = some changed) :
    changed.map Entry.name = frame.map Entry.name := by
  induction frame generalizing changed with
  | nil => cases found
  | cons entry rest ih =>
      rw [setInFrame] at found
      split at found
      · cases found
        rfl
      · obtain ⟨tail, set, rfl⟩ := Option.map_eq_some_iff.mp found
        simp [ih set]

theorem names_setInFrames {name : String} {value : Json.Value} {frames changed : List (List Entry)}
    (found : setInFrames name value frames = some changed) :
    changed.map (List.map Entry.name) = frames.map (List.map Entry.name) := by
  induction frames generalizing changed with
  | nil => cases found
  | cons frame rest ih =>
      rw [setInFrames] at found
      split at found
      · rename_i set
        cases found
        simp [names_setInFrame set]
      · obtain ⟨tail, set, rfl⟩ := Option.map_eq_some_iff.mp found
        simp [ih set]

theorem names_set {name : String} {value : Json.Value} {changed : CallStack}
    (found : stack.set name value = .ok changed) : changed.names = stack.names := by
  rw [set] at found
  split at found
  · rename_i frames set
    cases found
    exact names_setInFrames set
  · cases found

end Names

/-- An entry and what stands around it. -/
structure Place where
  /-- the newer frames -/
  nearer : List (List Entry)
  /-- the newer entries of the frame -/
  front : List Entry
  entry : Entry
  behind : List Entry
  farther : List (List Entry)

namespace Place

variable {place : Place} {name : String} {value : Json.Value}

def stack (place : Place) : CallStack :=
  ⟨place.nearer ++ (place.front ++ place.entry :: place.behind) :: place.farther⟩

def fill (value : Json.Value) (place : Place) : Place :=
  { place with entry := { place.entry with slot := some value } }

/-- The entry is the newest one of a name. -/
structure Newest (name : String) (place : Place) : Prop where
  named : place.entry.name = name
  nearer : ∀ frame ∈ place.nearer, name ∉ frame.map Entry.name
  front : name ∉ place.front.map Entry.name

end Place

variable {name : String} {value : Json.Value}

theorem find?_of_not_mem {entries : List Entry} (missing : name ∉ entries.map Entry.name) :
    entries.find? (fun entry => entry.name == name) = none := by
  rw [List.find?_eq_none]
  intro entry member same
  exact missing (List.mem_map.mpr ⟨entry, member, eq_of_beq same⟩)

theorem setInFrame_of_not_mem {frame : List Entry} (missing : name ∉ frame.map Entry.name) :
    setInFrame name value frame = none := by
  induction frame with
  | nil => rfl
  | cons entry rest ih =>
      obtain ⟨different, missing⟩ := not_or.mp (List.mem_cons.not.mp missing)
      rw [setInFrame, if_neg (by simpa using Ne.symm different), ih missing]
      rfl

theorem setInFrame_append {front behind : List Entry} {entry : Entry}
    (missing : name ∉ front.map Entry.name) (named : entry.name = name) :
    setInFrame name value (front ++ entry :: behind) =
      some (front ++ { entry with slot := some value } :: behind) := by
  induction front with
  | nil => simp [setInFrame, named]
  | cons first rest ih =>
      obtain ⟨different, missing⟩ := not_or.mp (List.mem_cons.not.mp missing)
      rw [List.cons_append, setInFrame, if_neg (by simpa using Ne.symm different), ih missing]
      rfl

theorem setInFrames_append {nearer farther : List (List Entry)} {frame changed : List Entry}
    (missing : ∀ frame ∈ nearer, name ∉ frame.map Entry.name)
    (set : setInFrame name value frame = some changed) :
    setInFrames name value (nearer ++ frame :: farther) = some (nearer ++ changed :: farther) := by
  induction nearer with
  | nil => simp [setInFrames, set]
  | cons first rest ih =>
      obtain ⟨here, missing⟩ := List.forall_mem_cons.mp missing
      rw [List.cons_append, setInFrames, setInFrame_of_not_mem here, ih missing]
      rfl

theorem setInFrames_of_not_mem {frames : List (List Entry)}
    (missing : ∀ frame ∈ frames, name ∉ frame.map Entry.name) :
    setInFrames name value frames = none := by
  induction frames with
  | nil => rfl
  | cons first rest ih =>
      obtain ⟨here, missing⟩ := List.forall_mem_cons.mp missing
      rw [setInFrames, setInFrame_of_not_mem here, ih missing]
      rfl

theorem get_of_newest {place : Place} (newest : place.Newest name) :
    place.stack.get name = .ok place.entry.slot := by
  have nearer : name ∉ place.nearer.flatten.map Entry.name := by
    rw [List.map_flatten]
    simpa using newest.nearer
  simp [get, entries, Place.stack, find?_of_not_mem nearer, find?_of_not_mem newest.front,
    newest.named]

theorem set_of_newest {place : Place} (newest : place.Newest name) :
    place.stack.set name value = .ok (place.fill value).stack := by
  rw [set, Place.stack, setInFrames_append newest.nearer
    (setInFrame_append newest.front newest.named)]
  rfl

theorem exists_newest {stack : CallStack} {nearer farther : List (List String)}
    {front behind : List String}
    (names : stack.names = nearer ++ (front ++ name :: behind) :: farther)
    (none : ∀ frame ∈ nearer, name ∉ frame) (first : name ∉ front) :
    ∃ place : Place, place.stack = stack ∧ place.nearer.length = nearer.length ∧
      place.front.length = front.length ∧ place.Newest name := by
  obtain ⟨frames⟩ := stack
  obtain ⟨newer, rest, rfl, rfl, found⟩ := List.map_eq_append_iff.mp names
  obtain ⟨frame, older, rfl, framed, rfl⟩ := List.map_eq_cons_iff.mp found
  obtain ⟨before, rest, rfl, rfl, ended⟩ := List.map_eq_append_iff.mp framed
  obtain ⟨entry, after, rfl, rfl, rfl⟩ := List.map_eq_cons_iff.mp ended
  exact ⟨⟨newer, before, entry, after, older⟩, rfl, by simp, by simp, rfl, by simpa using none,
    first⟩

theorem get_of_missing {stack : CallStack} (missing : ∀ frame ∈ stack.names, name ∉ frame) :
    stack.get name = .error (.callStackMiss name) := by
  have none : name ∉ stack.entries.map Entry.name := by
    rw [entries, List.map_flatten]
    simpa [names] using missing
  rw [get, find?_of_not_mem none]

theorem set_of_missing {stack : CallStack} (missing : ∀ frame ∈ stack.names, name ∉ frame) :
    stack.set name value = .error (.callStackMiss name) := by
  rw [set, setInFrames_of_not_mem (by simpa [names] using missing)]

/-- A name has a newest entry, or no entry at all. -/
theorem newest_or_missing (stack : CallStack) (name : String) :
    (∃ place : Place, place.stack = stack ∧ place.Newest name) ∨
      ∀ frame ∈ stack.names, name ∉ frame := by
  cases found : stack.names.find? fun frame => decide (name ∈ frame) with
  | none =>
      right
      simpa using List.find?_eq_none.mp found
  | some frame =>
      left
      obtain ⟨member, nearer, farther, split, none⟩ := List.find?_eq_some_iff_append.mp found
      obtain ⟨front, behind, rfl, first⟩ :=
        List.eq_append_cons_of_mem (of_decide_eq_true member)
      obtain ⟨place, same, -, -, newest⟩ := exists_newest split (by simpa using none) first
      exact ⟨place, same, newest⟩

theorem contains_iff {stack : CallStack} :
    stack.contains name = true ↔ ∃ frame ∈ stack.names, name ∈ frame := by
  simp [contains, names]

theorem map_name_entries (stack : CallStack) :
    stack.entries.map Entry.name = stack.names.flatten :=
  List.map_flatten

namespace Place

variable {place : Place}

/-- The newer entries of a stack. -/
def newer (place : Place) : List Entry :=
  place.nearer.flatten ++ place.front

/-- The older entries of a stack. -/
def older (place : Place) : List Entry :=
  place.behind ++ place.farther.flatten

theorem entries_stack (place : Place) :
    place.stack.entries = place.newer ++ place.entry :: place.older := by
  simp [entries, stack, newer, older]

theorem Newest.not_mem_newer (newest : place.Newest name) :
    name ∉ place.newer.map Entry.name := by
  rw [newer, List.map_append, List.map_flatten, List.mem_append, List.mem_flatten]
  rintro (⟨_, mapped, named⟩ | named)
  · obtain ⟨frame, member, rfl⟩ := List.mem_map.mp mapped
    exact newest.nearer frame member named
  · exact newest.front named

theorem Newest.fill (newest : place.Newest name) : (place.fill value).Newest name :=
  ⟨newest.named, newest.nearer, newest.front⟩

/-- Filling a slot does not change what is read under another name. -/
theorem Newest.get_fill {other : String} (newest : place.Newest name) (different : other ≠ name) :
    (place.fill value).stack.get other = place.stack.get other := by
  have skipped : (place.entry.name == other) = false := by
    simpa [newest.named] using Ne.symm different
  have filled : ((place.fill value).entry.name == other) = false := skipped
  have same : (place.fill value).newer = place.newer ∧ (place.fill value).older = place.older :=
    ⟨rfl, rfl⟩
  simp only [get, entries_stack, same, List.find?_append, List.find?_cons, skipped, filled]

/-- The place in a stack with further frames under it. -/
def atop (older : List (List Entry)) (place : Place) : Place :=
  { place with farther := place.farther ++ older }

/-- The place in a stack with further frames on top of it. -/
def beneath (newer : List (List Entry)) (place : Place) : Place :=
  { place with nearer := newer ++ place.nearer }

theorem stack_atop (older : List (List Entry)) (place : Place) :
    (place.atop older).stack = ⟨place.stack.frames ++ older⟩ := by
  simp [atop, stack]

theorem stack_beneath (newer : List (List Entry)) (place : Place) :
    (place.beneath newer).stack = ⟨newer ++ place.stack.frames⟩ := by
  simp [beneath, stack]

theorem Newest.atop (newest : place.Newest name) (older : List (List Entry)) :
    (place.atop older).Newest name :=
  ⟨newest.named, newest.nearer, newest.front⟩

theorem Newest.beneath {newer : List (List Entry)} (newest : place.Newest name)
    (missing : ∀ frame ∈ names ⟨newer⟩, name ∉ frame) : (place.beneath newer).Newest name := by
  refine ⟨newest.named, fun frame member => ?_, newest.front⟩
  rcases List.mem_append.mp member with above | below
  · exact missing _ (List.mem_map_of_mem above)
  · exact newest.nearer frame below

end Place

end TagTemplate.CallStack
