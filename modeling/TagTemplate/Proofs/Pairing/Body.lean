import TagTemplate.Proofs.Pairing.Nesting

/-!
The stack machine inside the body of a pair.

While the open tag of a pair is on the stack, nothing below it is taken, so that the
machine does on the body what it would do on the body alone.
-/

namespace TagTemplate

/-- A role in a text that has `offset` more segments in front. -/
def Role.shift (offset : Nat) : Role → Role
  | .unresolved => .unresolved
  | .selfClosed => .selfClosed
  | .dangling => .dangling
  | .closes opener => .closes (offset + opener)
  | .closedAt closer => .closedAt (offset + closer)

namespace Pairing

def Waiting.shift (offset : Nat) (waiting : Waiting) : Waiting :=
  { waiting with index := offset + waiting.index }

theorem Waiting.answers_shift (offset : Nat) {wanted : String} {waiting : Waiting} :
    (waiting.shift offset).answers wanted = waiting.answers wanted := rfl

namespace Machine

variable {machine next outer inner after : Machine} {segment : Segment}
  {segments body : List Segment} {guard waiting opener : Waiting}
  {above below : List Waiting} {index : Nat}

theorem Step.mem_visible (rule : machine.Step segment next) (member : waiting ∈ next.visible)
    (earlier : waiting.index < machine.roles.size) : waiting ∈ machine.visible := by
  cases rule with
  | literal text => exact member
  | dangling unnamed refused => exact member
  | opened named =>
      rcases List.mem_cons.mp member with rfl | member
      · exact absurd earlier (Nat.lt_irrefl _)
      · exact member
  | paired unnamed stack refused answered =>
      rw [stack]
      exact List.mem_append_right _ (List.mem_cons_of_mem _ member)

/-- What has left the stack does not come back. -/
theorem mem_visible_of_runFrom (ran : machine.runFrom segments = some next)
    (member : waiting ∈ next.visible) (earlier : waiting.index < machine.roles.size) :
    waiting ∈ machine.visible := by
  induction segments generalizing machine with
  | nil =>
      cases ran
      exact member
  | cons segment segments ih =>
      obtain ⟨middle, rule, rest⟩ := runFrom_cons_iff.mp ran
      have grown := rule.size_eq
      exact rule.mem_visible (ih rest (by omega)) earlier

theorem role_assign_eq {role : Option Role} (bound : index < machine.roles.size) :
    (machine.assign role).roles[index]? = machine.roles[index]? := by
  rw [assign, Array.getElem?_push_lt bound, Array.getElem?_eq_getElem bound]

theorem role_take_eq (bound : index < machine.roles.size) (other : index ≠ opener.index) :
    (machine.take above opener below).roles[index]? = machine.roles[index]? := by
  simp only [take]
  grind

theorem Step.role_eq (rule : machine.Step segment next) (bound : index < machine.roles.size)
    (decided : ∀ waiting ∈ machine.visible, waiting.index ≠ index) :
    next.roles[index]? = machine.roles[index]? := by
  cases rule with
  | literal text => exact role_assign_eq bound
  | opened named => exact role_assign_eq bound
  | dangling unnamed refused => exact role_assign_eq bound
  | @paired tag above below opener unnamed stack refused answered =>
      exact role_take_eq bound (decided opener (by simp [stack])).symm

/-- A run leaves the role of a segment alone that is not on the stack. -/
theorem role_eq_of_runFrom (ran : machine.runFrom segments = some next)
    (bound : index < machine.roles.size)
    (decided : ∀ waiting ∈ machine.visible, waiting.index ≠ index) :
    next.roles[index]? = machine.roles[index]? := by
  induction segments generalizing machine with
  | nil =>
      cases ran
      rfl
  | cons segment segments ih =>
      obtain ⟨middle, rule, rest⟩ := runFrom_cons_iff.mp ran
      have grown := rule.size_eq
      have stillDecided : ∀ waiting ∈ middle.visible, waiting.index ≠ index := by
        intro waiting member same
        exact decided waiting (rule.mem_visible member (by omega)) same
      rw [ih rest (by omega) stillDecided, rule.role_eq bound decided]

/-- The outer machine has `guard` on its stack, above `below`, and all that it has read
since is what the inner machine has read. -/
structure Embeds (guard : Waiting) (below : List Waiting) (outer inner : Machine) : Prop where
  visible : outer.visible =
    inner.visible.map (Waiting.shift (guard.index + 1)) ++ guard :: below
  hidden : ∀ waiting ∈ inner.hidden, waiting.shift (guard.index + 1) ∈ outer.hidden
  size : outer.roles.size = guard.index + 1 + inner.roles.size
  roles : ∀ index < inner.roles.size, outer.roles[guard.index + 1 + index]? =
    inner.roles[index]?.map (Option.map (Role.shift (guard.index + 1)))

namespace Embeds

theorem enter (machine : Machine) (name : String) :
    Embeds ⟨machine.roles.size, name⟩ machine.visible (machine.push name) start where
  visible := rfl
  hidden := by simp [start]
  size := by simp [Machine.push, Machine.assign, start]
  roles := by simp [start]

theorem assign (embeds : Embeds guard below outer inner) (role : Option Role) :
    Embeds guard below (outer.assign (role.map (Role.shift (guard.index + 1))))
      (inner.assign role) where
  visible := embeds.visible
  hidden := embeds.hidden
  size := by simp [Machine.assign, embeds.size, Nat.add_assoc]
  roles := by
    intro index bound
    have size := embeds.size
    have roles := embeds.roles index
    simp only [Machine.assign, Array.size_push, Array.getElem?_push] at bound ⊢
    split <;> split <;> first | rfl | omega | exact roles (by omega)

theorem push (embeds : Embeds guard below outer inner) (name : String) :
    Embeds guard below (outer.push name) (inner.push name) where
  visible := by
    simp [Machine.push, Machine.assign, Waiting.shift, embeds.visible, embeds.size]
  hidden := embeds.hidden
  size := (embeds.assign (some .selfClosed)).size
  roles := (embeds.assign (some .selfClosed)).roles

theorem take (embeds : Embeds guard below outer inner)
    {innerAbove innerBelow : List Waiting} {taken : Waiting}
    (bound : taken.index < inner.roles.size) :
    Embeds guard below
      (outer.take (innerAbove.map (Waiting.shift (guard.index + 1)))
        (taken.shift (guard.index + 1))
        (innerBelow.map (Waiting.shift (guard.index + 1)) ++ guard :: below))
      (inner.take innerAbove taken innerBelow) where
  visible := rfl
  hidden := by
    intro waiting member
    rcases List.mem_append.mp member with upper | buried
    · exact List.mem_append_left _ (List.mem_map_of_mem upper)
    · exact List.mem_append_right _ (embeds.hidden waiting buried)
  size := by simp [Machine.take, embeds.size, Nat.add_assoc]
  roles := by
    intro index inside
    have size := embeds.size
    have roles := embeds.roles index
    simp only [Machine.take, Waiting.shift, Array.size_push, Array.size_setIfInBounds,
      Array.getElem?_push, Array.getElem?_setIfInBounds] at inside ⊢
    by_cases last : index = inner.roles.size
    · rw [if_pos (by omega), if_pos last]
      rfl
    · rw [if_neg (by omega), if_neg last]
      by_cases same : taken.index = index
      · rw [if_pos (by omega), if_pos same, if_pos (by omega), if_pos (by omega), size]
        rfl
      · rw [if_neg (by omega), if_neg same]
        exact roles (by omega)

/-- A close tag that leaves the guard on the stack takes a tag above it. -/
theorem stack_cases (embeds : Embeds guard below outer inner) (fresh : guard ∉ below)
    {rest : List Waiting} (stack : outer.visible = above ++ opener :: rest)
    (kept : guard ∈ rest) :
    ∃ innerAbove taken innerBelow, inner.visible = innerAbove ++ taken :: innerBelow ∧
      above = innerAbove.map (Waiting.shift (guard.index + 1)) ∧
      opener = taken.shift (guard.index + 1) ∧
      rest = innerBelow.map (Waiting.shift (guard.index + 1)) ++ guard :: below := by
  have parts := embeds.visible
  rw [stack] at parts
  rcases List.append_eq_append_iff.mp parts with ⟨lower, split, tail⟩ | ⟨lower, split, tail⟩
  · cases lower with
    | nil =>
        -- the close tag would have taken the guard itself
        cases tail
        exact absurd kept fresh
    | cons first lower =>
        cases tail
        obtain ⟨innerAbove, innerRest, whole, rfl, mapped⟩ := List.map_eq_append_iff.mp split
        obtain ⟨taken, innerBelow, rfl, rfl, rfl⟩ := List.map_eq_cons_iff.mp mapped
        exact ⟨innerAbove, taken, innerBelow, whole, rfl, rfl, rfl⟩
  · have inside : guard ∈ below := by
      cases lower with
      | nil =>
          cases tail
          exact kept
      | cons first lower =>
          cases tail
          exact List.mem_append_right _ (List.mem_cons_of_mem _ kept)
    exact absurd inside fresh

theorem step (embeds : Embeds guard below outer inner) (fresh : guard ∉ below)
    (known : ∀ waiting ∈ inner.visible, waiting.index < inner.roles.size)
    (rule : outer.Step segment after) (kept : guard ∈ after.visible) :
    ∃ next, inner.Step segment next ∧ Embeds guard below after next := by
  cases rule with
  | literal text => exact ⟨_, .literal text, embeds.assign none⟩
  | opened named => exact ⟨_, .opened named, embeds.push _⟩
  | dangling unnamed refused =>
      refine ⟨_, .dangling unnamed ?_, embeds.assign (some .dangling)⟩
      intro waiting member
      rw [← Waiting.answers_shift (guard.index + 1)]
      apply refused
      rcases List.mem_append.mp member with seen | buried
      · rw [embeds.visible]
        simp [List.mem_map_of_mem seen]
      · exact List.mem_append_right _ (embeds.hidden waiting buried)
  | paired unnamed stack refused answered =>
      obtain ⟨innerAbove, taken, innerBelow, innerStack, rfl, rfl, rfl⟩ :=
        embeds.stack_cases fresh stack kept
      have bound := known taken (by simp [innerStack])
      refine ⟨_, .paired unnamed innerStack ?_ answered, embeds.take bound⟩
      intro waiting member
      rw [← Waiting.answers_shift (guard.index + 1)]
      exact refused _ (List.mem_map_of_mem member)

/-- What the machine reads while the guard stays on the stack, it reads alone as well. -/
theorem run (embeds : Embeds guard below outer start) (fresh : guard ∉ below)
    (ran : outer.runFrom body = some after) (kept : guard ∈ after.visible) :
    ∃ inner, Machine.run body = some inner ∧ Embeds guard below after inner := by
  induction body using List.reverseRecOn generalizing after with
  | nil =>
      cases ran
      exact ⟨start, rfl, embeds⟩
  | append_singleton body segment ih =>
      obtain ⟨middle, earlier, last⟩ := runFrom_append_iff.mp ran
      obtain ⟨_, rule, done⟩ := runFrom_cons_iff.mp last
      cases done
      have reached := size_eq_of_runFrom earlier
      have size := embeds.size
      obtain ⟨inner, ranInner, embedsInner⟩ :=
        ih earlier (rule.mem_visible kept (by omega))
      obtain ⟨next, ruleInner, embedsNext⟩ :=
        embedsInner.step fresh (fun _ => index_lt_of_run ranInner) rule kept
      refine ⟨next, ?_, embedsNext⟩
      rw [run_concat, ranInner]
      exact step_eq_some_iff.mpr ruleInner

end Embeds

theorem Step.visible_subset {tag : Tag} (rule : machine.Step (.tag tag) next)
    (unnamed : tag.isClose = true) : next.visible ⊆ machine.visible := by
  cases rule with
  | opened named => simp [named] at unnamed
  | dangling unnamed refused => exact List.Subset.refl _
  | @paired _ above below opener unnamed stack refused answered =>
      rw [stack]
      exact List.Subset.trans (List.subset_cons_self opener below)
        (List.subset_append_right above _)

theorem Step.eq_take (rule : machine.Step segment next)
    (closes : RoleAt next.roles machine.roles.size (.closes index)) :
    ∃ above opener below, machine.visible = above ++ opener :: below ∧ opener.index = index ∧
      next = machine.take above opener below := by
  cases rule with
  | literal text => simp [RoleAt, Machine.assign] at closes
  | opened named => simp [RoleAt, Machine.push, Machine.assign] at closes
  | dangling unnamed refused => simp [RoleAt, Machine.assign] at closes
  | @paired tag above below opener unnamed stack refused answered =>
      refine ⟨above, opener, below, stack, ?_, rfl⟩
      simp only [RoleAt, Machine.take, Array.getElem?_push, Array.size_setIfInBounds,
        if_true] at closes
      cases closes
      rfl

theorem Step.eq_push {tag : Tag} (rule : machine.Step (.tag tag) next)
    (named : tag.isClose = false) : next = machine.push tag.name := by
  cases rule with
  | opened named => rfl
  | paired unnamed stack refused answered => simp [named] at unnamed
  | dangling unnamed refused => simp [named] at unnamed

/-- A pair closes with a tag from the stack, and the roles between the two are final. -/
theorem taken_of_closes {tag : Tag} {closed : Machine} (ran : Machine.run segments = some machine)
    (rule : machine.Step (.tag tag) closed) (unnamed : tag.isClose = true)
    (ranBehind : closed.runFrom body = some next)
    (paired : RoleAt next.roles machine.roles.size (.closes index)) :
    (∃ opener ∈ machine.visible, opener.index = index) ∧
      ∀ inside, index < inside → inside < machine.roles.size →
        next.roles[inside]? = machine.roles[inside]? := by
  have size := rule.size_eq
  have closes : RoleAt closed.roles machine.roles.size (.closes index) := by
    have decided : ∀ waiting ∈ closed.visible, waiting.index ≠ machine.roles.size := by
      intro waiting member
      exact Nat.ne_of_lt (index_lt_of_run ran (rule.visible_subset unnamed member))
    rw [RoleAt, ← role_eq_of_runFrom ranBehind (by omega) decided]
    exact paired
  obtain ⟨above, opener, below, stack, taken, rfl⟩ := rule.eq_take closes
  refine ⟨⟨opener, by simp [stack], taken⟩, ?_⟩
  intro inside before bound
  have beneath : ∀ waiting ∈ below, waiting.index ≠ inside := by
    intro waiting member
    have lower := (invariant_of_run ran).index_lt_of_below stack member
    omega
  rw [role_eq_of_runFrom ranBehind (by omega) beneath, role_take_eq bound (by omega)]

/-- The machine reads the body of a pair as it reads the body alone. -/
theorem run_body {front behind : List Segment} {openTag closeTag : Tag}
    (ran : Machine.run (front ++ .tag openTag :: (body ++ .tag closeTag :: behind)) = some machine)
    (paired : RoleAt machine.roles (front.length + 1 + body.length) (.closes front.length)) :
    ∃ inner, Machine.run body = some inner ∧ ∀ index < body.length,
      machine.roles[front.length + 1 + index]? =
        inner.roles[index]?.map (Option.map (Role.shift (front.length + 1))) := by
  have nested := (invariant_of_run ran).nested
  obtain ⟨_, opens, closes, openFound, closeFound, named, unnamed, _⟩ :=
    nested.matched (nested.partner.mpr paired)
  have sameOpen : openTag = opens := by simpa using openFound
  have sameClose : closeTag = closes := by
    rw [List.getElem?_append_right (by omega), Nat.add_assoc, Nat.add_sub_cancel_left,
      Nat.add_comm, List.getElem?_cons_succ] at closeFound
    simpa using closeFound
  subst sameOpen sameClose
  obtain ⟨opened, ranFront, ran⟩ := runFrom_append_iff.mp ran
  obtain ⟨entered, ruleOpen, ran⟩ := runFrom_cons_iff.mp ran
  obtain ⟨reached, ranBody, ran⟩ := runFrom_append_iff.mp ran
  obtain ⟨closed, ruleClose, ranBehind⟩ := runFrom_cons_iff.mp ran
  have ranReached : Machine.run (front ++ .tag openTag :: body) = some reached :=
    runFrom_append_iff.mpr ⟨opened, ranFront, runFrom_cons_iff.mpr ⟨entered, ruleOpen, ranBody⟩⟩
  have size : opened.roles.size = front.length := by
    simpa [start] using size_eq_of_runFrom ranFront
  have enteredSize := ruleOpen.size_eq
  have reachedSize : reached.roles.size = front.length + 1 + body.length := by
    rw [size_eq_of_runFrom ranBody, enteredSize, size]
  rw [← reachedSize] at paired
  obtain ⟨⟨opener, shown, taken⟩, final⟩ :=
    taken_of_closes ranReached ruleClose unnamed ranBehind paired
  -- what the close tag takes was there before the body: it is the open tag of the pair
  have guard := mem_visible_of_runFrom ranBody shown (by omega)
  rw [ruleOpen.eq_push named] at ranBody guard
  have fresh : opener ∉ opened.visible := by
    intro member
    have bound := index_lt_of_run ranFront member
    omega
  have same : opener = ⟨opened.roles.size, openTag.name⟩ :=
    (List.mem_cons.mp guard).resolve_right fresh
  subst same
  obtain ⟨inner, ranInner, embeds⟩ := (Embeds.enter opened openTag.name).run fresh ranBody shown
  refine ⟨inner, ranInner, ?_⟩
  intro index inside
  have innerSize : inner.roles.size = body.length := by
    simpa [start] using size_eq_of_runFrom ranInner
  rw [final _ (by omega) (by omega)]
  simpa only [size] using embeds.roles index (by omega)

end Machine

end Pairing

end TagTemplate
