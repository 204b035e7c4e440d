import TagTemplate.Proofs.Pairing.Refinement

/-!
Well-nested text.

A nest is written as segments, and the role of every segment is read off the nest.  Where no
close tag accepts a tag without a body that stands directly in its pair, the stack machine
gives the segments exactly these roles, and so does pairing.
-/

namespace TagTemplate.Pairing

/-- Literals, tags without a body, and pairs around more of them. -/
inductive Nest where
  | nil
  | literal (text : String) (rest : Nest)
  | single (tag : Tag) (rest : Nest)
  | pair (opener : Tag) (body : Nest) (closer : Tag) (rest : Nest)

namespace Nest

def segments : Nest → List Segment
  | nil => []
  | literal text rest => .literal text :: rest.segments
  | single tag rest => .tag tag :: rest.segments
  | pair opener body closer rest =>
    .tag opener :: (body.segments ++ .tag closer :: rest.segments)

/-- The roles of the segments, the first of which stands at position `start`. -/
def roles (start : Nat) : Nest → List (Option Role)
  | nil => []
  | literal _ rest => none :: rest.roles (start + 1)
  | single _ rest => some .selfClosed :: rest.roles (start + 1)
  | pair _ body _ rest =>
    let closer := start + 1 + body.segments.length
    some (.closedAt closer) ::
      (body.roles (start + 1) ++ some (.closes start) :: rest.roles (closer + 1))

/-- The tags without a body that stand outside all pairs. -/
def singles : Nest → List Tag
  | nil => []
  | literal _ rest => rest.singles
  | single tag rest => tag :: rest.singles
  | pair _ _ _ rest => rest.singles

/-- Every close tag names the open tag of its pair, or no tag, and would not accept a tag
without a body that stands directly in the pair. -/
inductive WellNested : Nest → Prop where
  | nil : WellNested .nil
  | literal (text : String) {rest : Nest} (behind : WellNested rest) :
      WellNested (.literal text rest)
  | single {tag : Tag} {rest : Nest} (named : tag.isClose = false)
      (behind : WellNested rest) : WellNested (.single tag rest)
  | pair {opener closer : Tag} {body rest : Nest} (named : opener.isClose = false)
      (unnamed : closer.isClose = true)
      (closes : closer.closeName = "" ∨ closer.closeName = opener.name)
      (alone : ∀ tag ∈ body.singles, closer.closeName ≠ "" ∧ closer.closeName ≠ tag.name)
      (inside : WellNested body) (behind : WellNested rest) :
      WellNested (.pair opener body closer rest)

/-- The tags without a body that stand outside all pairs, as the machine keeps them. -/
def waiting (start : Nat) : Nest → List Waiting
  | nil => []
  | literal _ rest => rest.waiting (start + 1)
  | single tag rest => rest.waiting (start + 1) ++ [⟨start, tag.name⟩]
  | pair _ body _ rest => rest.waiting (start + 1 + body.segments.length + 1)

theorem length_roles (nest : Nest) (start : Nat) :
    (nest.roles start).length = nest.segments.length := by
  induction nest generalizing start with
  | nil => rfl
  | literal text rest ih | single tag rest ih => simp [roles, segments, ih]
  | pair opener body closer rest inner outer => simp [roles, segments, inner, outer]

theorem exists_single_of_waiting {nest : Nest} {start : Nat} {waiting : Waiting}
    (member : waiting ∈ nest.waiting start) : ∃ tag ∈ nest.singles, waiting.name = tag.name := by
  induction nest generalizing start with
  | nil => cases member
  | literal text rest ih => exact ih member
  | pair opener body closer rest inner outer => exact outer member
  | single tag rest ih =>
      rcases List.mem_append.mp member with behind | here
      · obtain ⟨found, single, name⟩ := ih behind
        exact ⟨found, List.mem_cons_of_mem _ single, name⟩
      · cases List.mem_singleton.mp here
        exact ⟨tag, List.mem_cons_self, rfl⟩

namespace WellNested

variable {nest body : Nest} {closer : Tag}

/-- Reading a nest puts the tags without a body on the stack, appends the roles of the nest,
and changes nothing else but what is hidden: every close tag finds its own open tag first. -/
theorem runFrom_segments (wellNested : nest.WellNested) (machine : Machine) :
    ∃ hidden, machine.runFrom nest.segments = some
      { visible := nest.waiting machine.roles.size ++ machine.visible
        hidden
        roles := machine.roles ++ (nest.roles machine.roles.size).toArray } := by
  induction wellNested generalizing machine with
  | nil => exact ⟨machine.hidden, by simp [segments, roles, waiting, Machine.runFrom]⟩
  | literal text behind ih =>
      obtain ⟨hidden, ran⟩ := ih (machine.assign none)
      refine ⟨hidden, Machine.runFrom_cons_iff.mpr ⟨_, .literal text, ?_⟩⟩
      rw [ran]
      simp [waiting, roles, Machine.assign]
  | @single tag rest named behind ih =>
      obtain ⟨hidden, ran⟩ := ih (machine.push tag.name)
      refine ⟨hidden, Machine.runFrom_cons_iff.mpr ⟨_, .opened named, ?_⟩⟩
      rw [ran]
      simp [waiting, roles, Machine.push, Machine.assign]
  | @pair opener closer body rest named unnamed closes alone inside behind inner outer =>
      obtain ⟨buried, ranBody⟩ := inner (machine.push opener.name)
      let opened : Waiting := ⟨machine.roles.size, opener.name⟩
      let above := body.waiting (machine.roles.size + 1)
      let full : Machine := {
        visible := above ++ opened :: machine.visible
        hidden := buried
        roles := machine.roles.push (some .selfClosed) ++
          (body.roles (machine.roles.size + 1)).toArray }
      have reached : (machine.push opener.name).runFrom body.segments = some full := by
        rw [ranBody]
        simp [full, above, opened, Machine.push, Machine.assign]
      have refused : ∀ waiting ∈ above, waiting.answers closer.closeName = false := by
        intro waiting member
        obtain ⟨tag, single, name⟩ := exists_single_of_waiting member
        obtain ⟨someName, otherName⟩ := alone tag single
        rw [← Bool.not_eq_true, Waiting.answers_iff, name]
        simp [someName, otherName]
      have answered : opened.answers closer.closeName = true := Waiting.answers_iff.mpr closes
      have closed : full.Step (.tag closer) (full.take above opened machine.visible) :=
        .paired unnamed rfl refused answered
      have size : full.roles.size = machine.roles.size + 1 + body.segments.length := by
        simp only [full, Array.size_append, Array.size_push, List.size_toArray, length_roles]
      -- the close tag settles the role of the open tag, which lies below those of the body
      have settled : (full.take above opened machine.visible).roles = machine.roles ++
          (some (.closedAt full.roles.size) :: (body.roles (machine.roles.size + 1) ++
            [some (.closes machine.roles.size)])).toArray := by
        apply Array.ext'
        simp [Machine.take, full, opened]
      have taken : (full.take above opened machine.visible).roles.size =
          machine.roles.size + 1 + body.segments.length + 1 := by
        rw [closed.size_eq, size]
      obtain ⟨hidden, ranRest⟩ := outer (full.take above opened machine.visible)
      refine ⟨hidden, Machine.runFrom_cons_iff.mpr ⟨_, .opened named,
        Machine.runFrom_append_iff.mpr ⟨full, reached,
          Machine.runFrom_cons_iff.mpr ⟨_, closed, ?_⟩⟩⟩⟩
      rw [ranRest, taken, settled, size]
      simp [waiting, roles, Machine.take]

end WellNested

end Nest

/-- Well-nested text is recovered exactly: pairing succeeds, every pair is closed by its own
close tag, and every tag without a body closes itself. -/
theorem pairTags_of_wellNested {nest : Nest} (wellNested : nest.WellNested) (d : Delimiters) :
    pairTags nest.segments.toArray d = .ok (nest.roles 0).toArray := by
  obtain ⟨hidden, ran⟩ := wellNested.runFrom_segments .start
  rw [pairTags_of_run nest.segments.toArray d ran]
  simp [Machine.start]

/-- A pair with a namesake without a body inside another pair, closed both by name and by
close tags that name no tag. -/
theorem pairTags_of_wellNested_namesakes :
    let a : Tag := ⟨"a", "", 0, 4⟩
    let b : Tag := ⟨"b", "", 4, 8⟩
    let single : Tag := ⟨"a", "1", 8, 13⟩
    let closeAny : Tag := ⟨"", "", 18, 21⟩
    let closeA : Tag := ⟨"", " a ", 25, 31⟩
    let closeB : Tag := ⟨"", "b", 21, 25⟩
    let nest : Nest := .pair a (.literal "x" (.pair b (.single single
      (.pair a (.literal "y" .nil) closeAny .nil)) closeB .nil)) closeA (.single single .nil)
    nest.WellNested ∧ pairTags nest.segments.toArray .default =
      .ok #[some (.closedAt 8), none, some (.closedAt 7), some .selfClosed, some (.closedAt 6),
        none, some (.closes 4), some (.closes 2), some (.closes 0), some .selfClosed] := by
  intro a b single closeAny closeA closeB nest
  have wellNested : nest.WellNested := by
    refine .pair rfl rfl (.inr (by decide +kernel)) (by simp [Nest.singles]) ?_ (.single rfl .nil)
    refine .literal "x" (.pair rfl rfl (.inr (by decide +kernel)) ?_ ?_ .nil)
    · intro tag member
      cases List.mem_singleton.mp member
      decide +kernel
    · exact .single rfl (.pair rfl rfl (.inl (by decide +kernel)) (by simp [Nest.singles])
        (.literal "y" .nil) .nil)
  exact ⟨wellNested, pairTags_of_wellNested wellNested .default⟩

end TagTemplate.Pairing
