import TagTemplate.Proofs.Pairing.Machine

/-!
The pairs of a finished table nest, and every tag has found its place in it.
-/

namespace TagTemplate.Pairing

/-- The segment at a position is a tag with this role. -/
abbrev RoleAt (roles : Roles) (index : Nat) (role : Role) : Prop :=
  roles[index]? = some (some role)

/-- A table of roles in which the tags of a text are paired without crossing. -/
structure Nested (segments : List Segment) (roles : Roles) : Prop where
  size : roles.size = segments.length
  literal : ∀ {index : Nat} {text}, segments[index]? = some (.literal text) →
    roles[index]? = some none
  closer : ∀ {index : Nat} {tag}, segments[index]? = some (.tag tag) → tag.isClose = true →
    RoleAt roles index .dangling ∨ ∃ opener, RoleAt roles index (.closes opener)
  opener : ∀ {index : Nat} {tag}, segments[index]? = some (.tag tag) → tag.isClose = false →
    RoleAt roles index .selfClosed ∨ ∃ closer, RoleAt roles index (.closedAt closer)
  partner : ∀ {opener closer}, RoleAt roles opener (.closedAt closer) ↔
    RoleAt roles closer (.closes opener)
  matched : ∀ {opener closer}, RoleAt roles opener (.closedAt closer) →
    opener < closer ∧ ∃ openTag closeTag, segments[opener]? = some (.tag openTag) ∧
      segments[closer]? = some (.tag closeTag) ∧ openTag.isClose = false ∧
      closeTag.isClose = true ∧
      (closeTag.closeName = "" ∨ closeTag.closeName = openTag.name)
  noncrossing : ∀ {opener closer inner innerCloser},
    RoleAt roles opener (.closedAt closer) → RoleAt roles inner (.closedAt innerCloser) →
    opener < inner → closer < inner ∨ innerCloser < closer

/-- The roles of segments that belong to no pair. -/
inductive Unpaired : Segment → Option Role → Prop where
  | literal (text : String) : Unpaired (.literal text) none
  | opened {tag : Tag} (named : tag.isClose = false) : Unpaired (.tag tag) (some .selfClosed)
  | dangling {tag : Tag} (unnamed : tag.isClose = true) : Unpaired (.tag tag) (some .dangling)

variable {segments : List Segment} {roles : Roles} {segment : Segment} {role : Option Role}
  {index opener closer : Nat}

theorem RoleAt.ne_of_roleAt {found given : Role} (first : RoleAt roles index found)
    (second : RoleAt roles opener given) (different : found ≠ given) : index ≠ opener := by
  rintro rfl
  rw [RoleAt, first] at second
  cases second
  exact different rfl

theorem getElem?_concat_iff {found : Segment} :
    (segments ++ [segment])[index]? = some found ↔
      segments[index]? = some found ∨ (index = segments.length ∧ segment = found) := by
  rcases Nat.lt_trichotomy index segments.length with before | rfl | behind
  · rw [List.getElem?_append_left before]
    simp [Nat.ne_of_lt before]
  · simp
  · rw [List.getElem?_eq_none (by simp; omega), List.getElem?_eq_none (by omega)]
    simp [Nat.ne_of_gt behind]

theorem roleAt_push_iff {found : Role} :
    RoleAt (roles.push role) index found ↔
      RoleAt roles index found ∨ (index = roles.size ∧ role = some found) := by
  rw [RoleAt, Array.getElem?_push]
  split
  · rename_i last
    simp [last, RoleAt]
  · rename_i other
    simp [other]

theorem roleAt_take_iff {found : Role} (bound : opener < roles.size) :
    RoleAt ((roles.setIfInBounds opener (some (.closedAt roles.size))).push
        (some (.closes opener))) index found ↔
      (index = roles.size ∧ found = .closes opener) ∨
        (index = opener ∧ found = .closedAt roles.size) ∨
        (index ≠ opener ∧ RoleAt roles index found) := by
  rw [roleAt_push_iff, RoleAt, Array.getElem?_setIfInBounds, Array.size_setIfInBounds]
  by_cases same : opener = index
  · subst same
    simp only [if_true, if_pos bound, Option.some.injEq, eq_comm (a := found), Nat.ne_of_lt bound]
    simp
  · rw [if_neg same]
    simp [Ne.symm same, eq_comm (a := found), or_comm, RoleAt]

theorem RoleAt.lt_size {found : Role} (given : RoleAt roles index found) :
    index < roles.size :=
  (Array.getElem?_eq_some_iff.mp given).1

namespace Nested

theorem empty : Nested [] #[] where
  size := rfl
  literal := by simp
  closer := by simp
  opener := by simp
  partner := by simp [RoleAt]
  matched := by simp [RoleAt]
  noncrossing := by simp [RoleAt]

theorem concat (nested : Nested segments roles) (unpaired : Unpaired segment role) :
    Nested (segments ++ [segment]) (roles.push role) where
  size := by simp [nested.size]
  literal := by
    intro index text found
    rcases getElem?_concat_iff.mp found with earlier | ⟨rfl, rfl⟩
    · have given := nested.literal earlier
      grind
    · cases unpaired
      simp [← nested.size]
  closer := by
    intro index tag found unnamed
    simp only [roleAt_push_iff]
    rcases getElem?_concat_iff.mp found with earlier | ⟨rfl, rfl⟩
    · rcases nested.closer earlier unnamed with given | ⟨opener, given⟩
      · exact .inl (.inl given)
      · exact .inr ⟨opener, .inl given⟩
    · cases unpaired with
      | opened named => simp [named] at unnamed
      | dangling => exact .inl (.inr ⟨nested.size.symm, rfl⟩)
  opener := by
    intro index tag found named
    simp only [roleAt_push_iff]
    rcases getElem?_concat_iff.mp found with earlier | ⟨rfl, rfl⟩
    · rcases nested.opener earlier named with given | ⟨closer, given⟩
      · exact .inl (.inl given)
      · exact .inr ⟨closer, .inl given⟩
    · cases unpaired with
      | opened => exact .inl (.inr ⟨nested.size.symm, rfl⟩)
      | dangling unnamed => simp [unnamed] at named
  partner := by
    intro opener closer
    simp only [roleAt_push_iff]
    cases unpaired <;> simpa using nested.partner
  matched := by
    intro opener closer given
    have earlier : RoleAt roles opener (.closedAt closer) := by
      rcases roleAt_push_iff.mp given with earlier | ⟨_, same⟩
      · exact earlier
      · cases unpaired <;> cases same
    obtain ⟨before, openTag, closeTag, openFound, closeFound, agree⟩ := nested.matched earlier
    exact ⟨before, openTag, closeTag, getElem?_concat_iff.mpr (.inl openFound),
      getElem?_concat_iff.mpr (.inl closeFound), agree⟩
  noncrossing := by
    intro opener closer inner innerCloser outerGiven innerGiven
    simp only [roleAt_push_iff] at outerGiven innerGiven
    cases unpaired <;>
      simp only [Option.some.injEq, reduceCtorEq, and_false, or_false] at outerGiven innerGiven <;>
      exact nested.noncrossing outerGiven innerGiven

/-- A close tag may be paired with an open tag that no pair encloses yet. -/
theorem pair (nested : Nested segments roles) {openTag closeTag : Tag}
    (found : segments[opener]? = some (.tag openTag)) (named : openTag.isClose = false)
    (waits : RoleAt roles opener .selfClosed) (unnamed : closeTag.isClose = true)
    (agree : closeTag.closeName = "" ∨ closeTag.closeName = openTag.name)
    (exposed : ∀ {outer closer}, RoleAt roles outer (.closedAt closer) → outer < opener →
      closer < opener) :
    Nested (segments ++ [.tag closeTag])
      ((roles.setIfInBounds opener (some (.closedAt roles.size))).push
        (some (.closes opener))) where
  size := by simp [nested.size]
  literal := by
    intro index text isLiteral
    have bound := waits.lt_size
    rcases getElem?_concat_iff.mp isLiteral with earlier | ⟨_, same⟩
    · have given := nested.literal earlier
      grind
    · cases same
  closer := by
    intro index tag isTag isCloser
    simp only [roleAt_take_iff waits.lt_size]
    rcases getElem?_concat_iff.mp isTag with earlier | ⟨last, _⟩
    · have different : index ≠ opener := by grind
      rcases nested.closer earlier isCloser with given | ⟨partner, given⟩
      · exact .inl (.inr (.inr ⟨different, given⟩))
      · exact .inr ⟨partner, .inr (.inr ⟨different, given⟩)⟩
    · exact .inr ⟨opener, .inl ⟨last.trans nested.size.symm, rfl⟩⟩
  opener := by
    intro index tag isTag isOpener
    simp only [roleAt_take_iff waits.lt_size]
    rcases getElem?_concat_iff.mp isTag with earlier | ⟨_, same⟩
    · by_cases taken : index = opener
      · exact .inr ⟨roles.size, .inr (.inl ⟨taken, rfl⟩)⟩
      · rcases nested.opener earlier isOpener with given | ⟨partner, given⟩
        · exact .inl (.inr (.inr ⟨taken, given⟩))
        · exact .inr ⟨partner, .inr (.inr ⟨taken, given⟩)⟩
    · cases same
      simp [unnamed] at isOpener
  partner := by
    intro first last
    simp only [roleAt_take_iff waits.lt_size]
    constructor
    · rintro (⟨_, clash⟩ | ⟨rfl, same⟩ | ⟨_, earlier⟩)
      · cases clash
      · cases same
        exact .inl ⟨rfl, rfl⟩
      · have closes := nested.partner.mp earlier
        exact .inr (.inr ⟨closes.ne_of_roleAt waits (by simp), closes⟩)
    · rintro (⟨rfl, same⟩ | ⟨_, clash⟩ | ⟨_, earlier⟩)
      · cases same
        exact .inr (.inl ⟨rfl, rfl⟩)
      · cases clash
      · have closedAt := nested.partner.mpr earlier
        exact .inr (.inr ⟨closedAt.ne_of_roleAt waits (by simp), closedAt⟩)
  matched := by
    intro first last given
    rcases (roleAt_take_iff waits.lt_size).mp given with ⟨_, clash⟩ | ⟨rfl, same⟩ | ⟨_, earlier⟩
    · cases clash
    · cases same
      exact ⟨waits.lt_size, openTag, closeTag, getElem?_concat_iff.mpr (.inl found),
        getElem?_concat_iff.mpr (.inr ⟨nested.size, rfl⟩), named, unnamed, agree⟩
    · obtain ⟨before, openTag, closeTag, openFound, closeFound, facts⟩ := nested.matched earlier
      exact ⟨before, openTag, closeTag, getElem?_concat_iff.mpr (.inl openFound),
        getElem?_concat_iff.mpr (.inl closeFound), facts⟩
  noncrossing := by
    intro outer outerCloser inner innerCloser outerGiven innerGiven before
    rcases (roleAt_take_iff waits.lt_size).mp outerGiven with
      ⟨_, clash⟩ | ⟨rfl, same⟩ | ⟨_, outerEarlier⟩
    · cases clash
    · -- the new pair is the outer one: all closed pairs end before it does
      cases same
      rcases (roleAt_take_iff waits.lt_size).mp innerGiven with
        ⟨_, clash⟩ | ⟨same, _⟩ | ⟨_, innerEarlier⟩
      · cases clash
      · omega
      · exact .inr (nested.partner.mp innerEarlier).lt_size
    · rcases (roleAt_take_iff waits.lt_size).mp innerGiven with
        ⟨_, clash⟩ | ⟨rfl, same⟩ | ⟨_, innerEarlier⟩
      · cases clash
      · exact .inl (exposed outerEarlier before)
      · exact nested.noncrossing outerEarlier innerEarlier before

end Nested

namespace Machine

/-- What holds of the machine between two segments. -/
structure Invariant (segments : List Segment) (machine : Machine) : Prop where
  nested : Nested segments machine.roles
  waiting : ∀ waiting ∈ machine.visible ++ machine.hidden,
    RoleAt machine.roles waiting.index .selfClosed ∧
      ∃ tag, segments[waiting.index]? = some (.tag tag) ∧ tag.isClose = false ∧
        tag.name = waiting.name
  complete : ∀ {index}, RoleAt machine.roles index .selfClosed →
    ∃ waiting ∈ machine.visible ++ machine.hidden, waiting.index = index
  ordered : machine.visible.Pairwise fun upper lower => lower.index < upper.index
  exposed : ∀ waiting ∈ machine.visible, ∀ {opener closer},
    RoleAt machine.roles opener (.closedAt closer) → opener < waiting.index →
      closer < waiting.index
  buried : ∀ waiting ∈ machine.hidden, ∃ opener closer,
    RoleAt machine.roles opener (.closedAt closer) ∧ opener < waiting.index ∧
      waiting.index < closer

variable {machine next : Machine} {name : String} {above below : List Waiting}
  {waiting : Waiting}

theorem Invariant.start : Invariant [] start where
  nested := .empty
  waiting := by simp [Machine.start]
  complete := by simp [Machine.start, RoleAt]
  ordered := .nil
  exposed := by simp [Machine.start]
  buried := by simp [Machine.start]

theorem Invariant.assign (invariant : Invariant segments machine)
    (unpaired : Unpaired segment role) (closed : role ≠ some .selfClosed) :
    Invariant (segments ++ [segment]) (machine.assign role) where
  nested := invariant.nested.concat unpaired
  waiting := by
    intro waiting member
    obtain ⟨given, tag, found, facts⟩ := invariant.waiting waiting member
    exact ⟨roleAt_push_iff.mpr (.inl given), tag, getElem?_concat_iff.mpr (.inl found), facts⟩
  complete := by
    intro index given
    rcases roleAt_push_iff.mp given with earlier | ⟨_, same⟩
    · exact invariant.complete earlier
    · exact absurd same closed
  ordered := invariant.ordered
  exposed := by
    intro waiting member opener closer given
    rcases roleAt_push_iff.mp given with earlier | ⟨_, same⟩
    · exact invariant.exposed waiting member earlier
    · cases unpaired <;> cases same
  buried := by
    intro waiting member
    obtain ⟨opener, closer, given, inside⟩ := invariant.buried waiting member
    exact ⟨opener, closer, roleAt_push_iff.mpr (.inl given), inside⟩

theorem Invariant.push (invariant : Invariant segments machine) {tag : Tag}
    (named : tag.isClose = false) :
    Invariant (segments ++ [.tag tag]) (machine.push tag.name) where
  nested := invariant.nested.concat (.opened named)
  waiting := by
    intro waiting member
    rcases List.mem_cons.mp member with rfl | member
    · exact ⟨roleAt_push_iff.mpr (.inr ⟨rfl, rfl⟩), tag,
        getElem?_concat_iff.mpr (.inr ⟨invariant.nested.size, rfl⟩), named, rfl⟩
    · obtain ⟨given, tag, found, facts⟩ := invariant.waiting waiting member
      exact ⟨roleAt_push_iff.mpr (.inl given), tag, getElem?_concat_iff.mpr (.inl found), facts⟩
  complete := by
    intro index given
    rcases roleAt_push_iff.mp given with earlier | ⟨last, _⟩
    · obtain ⟨waiting, member, same⟩ := invariant.complete earlier
      exact ⟨waiting, List.mem_cons_of_mem _ member, same⟩
    · exact ⟨⟨machine.roles.size, tag.name⟩, List.mem_cons_self, last.symm⟩
  ordered := by
    refine .cons ?_ invariant.ordered
    intro waiting member
    exact (invariant.waiting waiting (List.mem_append_left _ member)).1.lt_size
  exposed := by
    intro waiting member opener closer given before
    have earlier : RoleAt machine.roles opener (.closedAt closer) := by
      rcases roleAt_push_iff.mp given with earlier | ⟨_, clash⟩
      · exact earlier
      · cases clash
    rcases List.mem_cons.mp member with rfl | member
    · exact (invariant.nested.partner.mp earlier).lt_size
    · exact invariant.exposed waiting member earlier before
  buried := by
    intro waiting member
    obtain ⟨opener, closer, given, inside⟩ := invariant.buried waiting member
    exact ⟨opener, closer, roleAt_push_iff.mpr (.inl given), inside⟩

theorem Invariant.index_lt_of_above (invariant : Invariant segments machine)
    {opener : Waiting} (stack : machine.visible = above ++ opener :: below)
    (member : waiting ∈ above) : opener.index < waiting.index := by
  have ordered := invariant.ordered
  rw [stack] at ordered
  exact (List.pairwise_append.mp ordered).2.2 waiting member opener List.mem_cons_self

theorem Invariant.index_lt_of_below (invariant : Invariant segments machine)
    {opener : Waiting} (stack : machine.visible = above ++ opener :: below)
    (member : waiting ∈ below) : waiting.index < opener.index := by
  have ordered := invariant.ordered
  rw [stack] at ordered
  exact List.rel_of_pairwise_cons (List.pairwise_append.mp ordered).2.1 member

/-- A tag that a closed pair hides is none of those on the stack. -/
theorem Invariant.hidden_ne (invariant : Invariant segments machine) {shown : Waiting}
    (visible : shown ∈ machine.visible) (member : waiting ∈ machine.hidden) :
    waiting.index ≠ shown.index := by
  obtain ⟨opener, closer, given, before, after⟩ := invariant.buried waiting member
  intro same
  have outside := invariant.exposed shown visible given (same ▸ before)
  omega

theorem Invariant.take (invariant : Invariant segments machine) {tag : Tag}
    {opener : Waiting} (unnamed : tag.isClose = true)
    (stack : machine.visible = above ++ opener :: below)
    (answered : opener.answers tag.closeName = true) :
    Invariant (segments ++ [.tag tag]) (machine.take above opener below) := by
  have shown : opener ∈ machine.visible := by simp [stack]
  obtain ⟨waits, openTag, found, named, sameName⟩ :=
    invariant.waiting opener (List.mem_append_left _ shown)
  have bound := waits.lt_size
  have different : ∀ waiting ∈ below ++ (above ++ machine.hidden),
      waiting.index ≠ opener.index := by
    intro waiting member
    simp only [List.mem_append] at member
    rcases member with lower | upper | buried
    · exact Nat.ne_of_lt (invariant.index_lt_of_below stack lower)
    · exact Nat.ne_of_gt (invariant.index_lt_of_above stack upper)
    · exact invariant.hidden_ne shown buried
  have kept : ∀ waiting ∈ below ++ (above ++ machine.hidden),
      waiting ∈ machine.visible ++ machine.hidden := by
    intro waiting member
    grind
  constructor
  case nested =>
    have agree := Waiting.answers_iff.mp answered
    rw [← sameName] at agree
    exact invariant.nested.pair found named waits unnamed agree (invariant.exposed opener shown)
  case waiting =>
    intro waiting member
    obtain ⟨given, tag, found, facts⟩ := invariant.waiting waiting (kept waiting member)
    exact ⟨(roleAt_take_iff bound).mpr (.inr (.inr ⟨different waiting member, given⟩)), tag,
      getElem?_concat_iff.mpr (.inl found), facts⟩
  case complete =>
    intro index given
    rcases (roleAt_take_iff bound).mp given with ⟨_, clash⟩ | ⟨_, clash⟩ | ⟨other, earlier⟩
    · cases clash
    · cases clash
    · obtain ⟨waiting, member, same⟩ := invariant.complete earlier
      have notOpener : waiting ≠ opener := fun equal => other (by rw [← same, equal])
      refine ⟨waiting, ?_, same⟩
      show waiting ∈ below ++ (above ++ machine.hidden)
      grind
  case ordered =>
    have ordered := invariant.ordered
    rw [stack] at ordered
    exact (List.pairwise_cons.mp (List.pairwise_append.mp ordered).2.1).2
  case exposed =>
    intro waiting member first last given before
    have lower := invariant.index_lt_of_below stack member
    have shown : waiting ∈ machine.visible := by
      rw [stack]
      exact List.mem_append_right _ (List.mem_cons_of_mem _ member)
    rcases (roleAt_take_iff bound).mp given with ⟨_, clash⟩ | ⟨rfl, _⟩ | ⟨_, earlier⟩
    · cases clash
    · omega
    · exact invariant.exposed waiting shown earlier before
  case buried =>
    intro waiting member
    rcases List.mem_append.mp member with upper | buried
    · have seen : waiting ∈ machine.visible ++ machine.hidden := by simp [stack, upper]
      exact ⟨opener.index, machine.roles.size,
        (roleAt_take_iff bound).mpr (.inr (.inl ⟨rfl, rfl⟩)),
        invariant.index_lt_of_above stack upper, (invariant.waiting waiting seen).1.lt_size⟩
    · obtain ⟨first, last, given, inside⟩ := invariant.buried waiting buried
      have other := given.ne_of_roleAt waits (by simp)
      exact ⟨first, last, (roleAt_take_iff bound).mpr (.inr (.inr ⟨other, given⟩)), inside⟩

theorem Invariant.step (invariant : Invariant segments machine)
    (rule : machine.Step segment next) : Invariant (segments ++ [segment]) next := by
  cases rule with
  | literal text => exact invariant.assign (.literal text) (by simp)
  | opened named => exact invariant.push named
  | paired unnamed stack refused answered => exact invariant.take unnamed stack answered
  | dangling unnamed refused => exact invariant.assign (.dangling unnamed) (by simp)

theorem invariant_of_run (ran : run segments = some machine) : Invariant segments machine :=
  run_induction .start (fun _ _ _ _ invariant rule => invariant.step rule) ran

theorem index_lt_of_run (ran : run segments = some machine) (member : waiting ∈ machine.visible) :
    waiting.index < machine.roles.size :=
  ((invariant_of_run ran).waiting waiting (List.mem_append_left _ member)).1.lt_size

end Machine

end TagTemplate.Pairing
