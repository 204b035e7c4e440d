import TagTemplate.Proofs.Pairing.Nesting

/-!
The second pass decides whether the pairs of a table nest.

It compares each pair with the innermost pair that is open.  That is enough, since the pairs on
its stack end the later the further out they are, also when a table has pairs that end in front
of their beginning.
-/

namespace TagTemplate.Pairing

/-- A pair begins inside another one and ends behind it. -/
def Conflict (roles : Roles) (outer inner : Nat) : Prop :=
  ∃ outerCloser innerCloser, RoleAt roles outer (.closedAt outerCloser) ∧
    RoleAt roles inner (.closedAt innerCloser) ∧ outer < inner ∧ inner < outerCloser ∧
    outerCloser < innerCloser

/-- A stack of pairs on the way through a table: pairs that begin in front of a position, among
them all that do not end there, and none of them ends behind the next one of the stack. -/
structure Opened (roles : Roles) (index : Nat) (opened : List (Nat × Nat)) : Prop where
  given : ∀ pair ∈ opened, RoleAt roles pair.1 (.closedAt pair.2) ∧ pair.1 < index
  complete : ∀ {opener closer}, RoleAt roles opener (.closedAt closer) → opener < index →
    index ≤ closer → (opener, closer) ∈ opened
  outward : opened.Pairwise fun inner outer => inner.2 ≤ outer.2

variable {segments : Array Segment} {roles : Roles} {opened rest : List (Nat × Nat)}
  {pair : Nat × Nat} {index closer outer inner : Nat}

theorem mem_of_leaveClosed (member : pair ∈ leaveClosed index opened) : pair ∈ opened :=
  (List.dropWhile_suffix _).subset member

theorem mem_leaveClosed (member : pair ∈ opened) (ahead : index < pair.2) :
    pair ∈ leaveClosed index opened := by
  rw [← List.takeWhile_append_dropWhile (p := fun pair => decide (pair.2 ≤ index))
    (l := opened)] at member
  rcases List.mem_append.mp member with closed | left
  · have ended := List.mem_takeWhile_imp closed
    rw [decide_eq_true_eq] at ended
    omega
  · exact left

theorem lt_of_leaveClosed (left : leaveClosed index opened = pair :: rest) : index < pair.2 := by
  have head := List.head?_dropWhile_not (fun pair : Nat × Nat => decide (pair.2 ≤ index)) opened
  rw [show opened.dropWhile _ = pair :: rest from left] at head
  simpa using head

namespace Opened

theorem start (roles : Roles) : Opened roles 0 [] where
  given := by simp
  complete := by omega
  outward := .nil

/-- The innermost pair that is left ends before all others that are left. -/
theorem le_of_leaveClosed (entered : Opened roles index opened)
    (left : leaveClosed index opened = pair :: rest) {other : Nat × Nat}
    (member : other ∈ leaveClosed index opened) : pair.2 ≤ other.2 := by
  have outward := entered.outward.sublist (List.dropWhile_sublist fun pair => pair.2 ≤ index)
  rw [show opened.dropWhile _ = pair :: rest from left] at outward
  rw [left] at member
  rcases List.mem_cons.mp member with rfl | behind
  · exact Nat.le_refl _
  · exact List.rel_of_pairwise_cons outward behind

/-- Past a position where no pair begins, the closed pairs are gone. -/
theorem skip (entered : Opened roles index opened)
    (other : ∀ closer, ¬ RoleAt roles index (.closedAt closer)) :
    Opened roles (index + 1) (leaveClosed index opened) where
  given pair member := by
    obtain ⟨given, before⟩ := entered.given pair (mem_of_leaveClosed member)
    exact ⟨given, by omega⟩
  complete := by
    intro opener closer given before ahead
    rcases Nat.lt_succ_iff_lt_or_eq.mp before with before | rfl
    · exact mem_leaveClosed (entered.complete given before (by omega)) ahead
    · exact absurd given (other closer)
  outward := entered.outward.sublist (List.dropWhile_sublist _)

/-- A pair that ends in all pairs that are left is put on top of them. -/
theorem enter (entered : Opened roles index opened) (here : RoleAt roles index (.closedAt closer))
    (inside : ∀ pair ∈ leaveClosed index opened, closer ≤ pair.2) :
    Opened roles (index + 1) ((index, closer) :: leaveClosed index opened) where
  given pair member := by
    rcases List.mem_cons.mp member with rfl | member
    · exact ⟨here, Nat.lt_succ_self index⟩
    · obtain ⟨given, before⟩ := entered.given pair (mem_of_leaveClosed member)
      exact ⟨given, by omega⟩
  complete := by
    intro opener ender given before ahead
    rcases Nat.lt_succ_iff_lt_or_eq.mp before with before | rfl
    · exact .tail _ (mem_leaveClosed (entered.complete given before (by omega)) ahead)
    · rw [RoleAt, here] at given
      cases given
      exact .head _
  outward := .cons inside (entered.outward.sublist (List.dropWhile_sublist _))

/-- A pair that ends in all pairs that are left is in conflict with none in front of it. -/
theorem no_conflict (entered : Opened roles index opened)
    (here : RoleAt roles index (.closedAt closer))
    (inside : ∀ pair ∈ leaveClosed index opened, closer ≤ pair.2) :
    ¬ Conflict roles outer index := by
  rintro ⟨outerCloser, innerCloser, given, again, before, ahead, behind⟩
  rw [RoleAt, here] at again
  cases again
  have left := mem_leaveClosed (entered.complete given before (by omega)) ahead
  have within : closer ≤ outerCloser := inside _ left
  omega

end Opened

/-- What the second pass says about a table: that no pairs are in conflict, or with which pair the
first conflict arises. -/
def Judges (segments : Array Segment) (d : Delimiters) (roles : Roles) :
    Except TemplateError Unit → Prop
  | .ok () => ∀ outer inner, ¬ Conflict roles outer inner
  | .error error => ∃ outer inner, Conflict roles outer inner ∧
      error = crossed segments d outer inner ∧
      ∀ earlier later, Conflict roles earlier later → inner ≤ later

theorem checkFrom_judges (d : Delimiters) {left : List (Option Role)}
    (ahead : ∀ offset : Nat, left[offset]? = roles[index + offset]?)
    (entered : Opened roles index opened)
    (quiet : ∀ outer inner, inner < index → ¬ Conflict roles outer inner) :
    Judges segments d roles (checkFrom segments d index opened left) := by
  induction left generalizing index opened with
  | nil =>
      intro outer inner conflict
      obtain ⟨-, closer, -, given, -⟩ := id conflict
      refine quiet outer inner (Nat.lt_of_not_le fun beyond => ?_) conflict
      have none := ahead (inner - index)
      rw [Nat.add_sub_cancel' beyond, given] at none
      cases none
  | cons role left ih =>
      have here : roles[index]? = some role := (ahead 0).symm
      have later : ∀ offset : Nat, left[offset]? = roles[index + 1 + offset]? := by
        intro offset
        rw [Nat.add_right_comm]
        exact ahead (offset + 1)
      have extend (next : ∀ outer, ¬ Conflict roles outer index) :
          ∀ outer inner, inner < index + 1 → ¬ Conflict roles outer inner := by
        intro outer inner bound
        rcases Nat.lt_succ_iff_lt_or_eq.mp bound with before | rfl
        · exact quiet outer inner before
        · exact next outer
      unfold checkFrom
      split
      · contradiction
      · rename_i closer _ same
        cases same
        split
        · rename_i empty
          have inside : ∀ pair ∈ leaveClosed index opened, closer ≤ pair.2 := by simp [empty]
          refine ih later ?_ (extend fun _ => entered.no_conflict here inside)
          simpa only [empty] using entered.enter here inside
        · rename_i outer outerCloser others stack
          have top : (outer, outerCloser) ∈ leaveClosed index opened := by simp [stack]
          obtain ⟨given, before⟩ := entered.given _ (mem_of_leaveClosed top)
          split
          · rename_i beyond
            refine ⟨outer, index, ⟨outerCloser, closer, given, here, before,
              lt_of_leaveClosed stack, beyond⟩, rfl, fun earlier later conflict => ?_⟩
            exact Nat.le_of_not_lt fun sooner => quiet earlier later sooner conflict
          · rename_i within
            have inside : ∀ pair ∈ leaveClosed index opened, closer ≤ pair.2 := fun pair member =>
              (Nat.le_of_not_lt within).trans (entered.le_of_leaveClosed stack member)
            refine ih later ?_ (extend fun _ => entered.no_conflict here inside)
            simpa only [stack] using entered.enter here inside
      · rename_i different same
        cases same
        have other : ∀ closer, ¬ RoleAt roles index (.closedAt closer) := by
          intro closer given
          rw [RoleAt, here] at given
          exact different closer (Option.some.inj given)
        refine ih later (entered.skip other) (extend fun _ conflict => ?_)
        obtain ⟨-, closer, -, given, -⟩ := conflict
        exact other closer given

theorem checkNesting_judges (segments : Array Segment) (d : Delimiters) (roles : Roles) :
    Judges segments d roles (checkNesting segments d roles) :=
  checkFrom_judges d (by simp) (.start roles) (by omega)

/-- The second pass accepts pairs that nest. -/
theorem checkNesting_of_nested {done : List Segment} (nested : Nested done roles)
    (d : Delimiters) : checkNesting segments d roles = .ok () := by
  have judged := checkNesting_judges segments d roles
  cases checked : checkNesting segments d roles with
  | ok => rfl
  | error error =>
      rw [checked] at judged
      obtain ⟨_, _, ⟨_, _, outerGiven, innerGiven, before, _, _⟩, -⟩ := judged
      rcases nested.noncrossing outerGiven innerGiven before with apart | around <;> omega

/-- The second pass accepts a table exactly if each pair that begins inside another one ends there
too.  Otherwise it reports two pairs of which this is not true, and the second of them is the first
pair of the table at which this happens. -/
theorem checkNesting_decides (segments : Array Segment) (d : Delimiters) (roles : Roles) :
    (checkNesting segments d roles = .ok () ↔
      ∀ outer inner outerCloser innerCloser, RoleAt roles outer (.closedAt outerCloser) →
        RoleAt roles inner (.closedAt innerCloser) → outer < inner → inner < outerCloser →
        innerCloser ≤ outerCloser) ∧
    ∀ error, checkNesting segments d roles = .error error →
      ∃ outer inner outerCloser innerCloser,
        error = .nesting (refAt segments d outer) (refAt segments d inner) ∧
        RoleAt roles outer (.closedAt outerCloser) ∧ RoleAt roles inner (.closedAt innerCloser) ∧
        outer < inner ∧ inner < outerCloser ∧ outerCloser < innerCloser ∧
        ∀ earlier later earlierCloser laterCloser,
          RoleAt roles earlier (.closedAt earlierCloser) →
          RoleAt roles later (.closedAt laterCloser) → earlier < later → later < earlierCloser →
          earlierCloser < laterCloser → inner ≤ later := by
  have judged := checkNesting_judges segments d roles
  cases checked : checkNesting segments d roles with
  | ok =>
      rw [checked] at judged
      refine ⟨⟨fun _ outer inner outerCloser innerCloser outerGiven innerGiven before inside => ?_,
        fun _ => rfl⟩, nofun⟩
      exact Nat.le_of_not_lt fun behind => judged outer inner
        ⟨outerCloser, innerCloser, outerGiven, innerGiven, before, inside, behind⟩
  | error error =>
      rw [checked] at judged
      obtain ⟨outer, inner, conflict, same, first⟩ := judged
      obtain ⟨outerCloser, innerCloser, outerGiven, innerGiven, before, inside, behind⟩ := conflict
      refine ⟨⟨nofun, fun nests => ?_⟩, ?_⟩
      · have within := nests _ _ _ _ outerGiven innerGiven before inside
        omega
      · rintro _ ⟨⟩
        refine ⟨outer, inner, outerCloser, innerCloser, same, outerGiven, innerGiven, before,
          inside, behind, ?_⟩
        intro earlier later earlierCloser laterCloser earlierGiven laterGiven before inside behind
        exact first earlier later
          ⟨earlierCloser, laterCloser, earlierGiven, laterGiven, before, inside, behind⟩

/-- In a table in which one pair ends in front of its beginning, the last pair is in conflict with
both pairs that it begins in, and is the first one that is in conflict with any. -/
theorem checkNesting_decides_backwards :
    let segments := #[.tag ⟨"a", "", 0, 4⟩, .literal "x", .tag ⟨"b", "", 5, 9⟩,
      .tag ⟨"c", "", 9, 13⟩, .tag ⟨"d", "", 13, 17⟩]
    let roles : Roles := #[some (.closedAt 6), none, some (.closedAt 5), some (.closedAt 1),
      some (.closedAt 7)]
    checkNesting segments .default roles =
      .error (.nesting ⟨"\x7bb:\x7d", 5⟩ ⟨"\x7bd:\x7d", 13⟩) ∧
    ∃ outer inner outerCloser innerCloser, RoleAt roles outer (.closedAt outerCloser) ∧
      RoleAt roles inner (.closedAt innerCloser) ∧ outer < inner ∧ inner < outerCloser ∧
      outerCloser < innerCloser ∧ inner ≤ 4 := by
  intro segments roles
  have failed : checkNesting segments .default roles =
      .error (.nesting ⟨"\x7bb:\x7d", 5⟩ ⟨"\x7bd:\x7d", 13⟩) := by
    decide +kernel
  obtain ⟨outer, inner, outerCloser, innerCloser, -, outerGiven, innerGiven, before, inside, behind,
    first⟩ := (checkNesting_decides segments .default roles).2 _ failed
  exact ⟨failed, outer, inner, outerCloser, innerCloser, outerGiven, innerGiven, before, inside,
    behind, first 0 4 6 7 rfl rfl (by decide) (by decide) (by decide)⟩

end TagTemplate.Pairing
