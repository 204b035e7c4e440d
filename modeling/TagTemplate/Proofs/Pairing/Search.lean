import TagTemplate.Proofs.Pairing.Nesting

/-!
Looking backwards over the table of the first pass.

A look backwards meets exactly the tags that are on the stack of the machine, and the
tags inside the pairs that it steps over are exactly the hidden ones.
-/

namespace TagTemplate.Pairing

/-- A role as the first pass keeps it: an open tag is undecided until it is closed. -/
def awaiting : Option Role → Option Role
  | some .selfClosed => some .unresolved
  | role => role

/-- A table of the first pass at the point that the machine has reached. -/
structure Tracks (segments : Array Segment) (machine : Machine) (roles : Roles) : Prop where
  invariant : machine.Invariant (segments.toList.take machine.roles.size)
  reached : ∀ {index : Nat}, index < machine.roles.size →
    roles[index]? = machine.roles[index]?.map awaiting
  ahead : ∀ {index : Nat}, machine.roles.size ≤ index →
    roles[index]? = (undecided segments)[index]?

variable {segments : Array Segment} {roles : Roles} {machine next : Machine}
  {segment : Segment} {close : Tag} {index opener closer limit : Nat}

theorem Nested.decided {done : List Segment} (nested : Nested done roles) :
    ¬ RoleAt roles index .unresolved := by
  intro given
  have bound := nested.size ▸ given.lt_size
  cases found : done[index] with
  | literal text =>
      have role := nested.literal (List.getElem?_eq_some_iff.mpr ⟨bound, found⟩)
      simp [RoleAt, role] at given
  | tag tag =>
      have found := List.getElem?_eq_some_iff.mpr ⟨bound, found⟩
      cases named : tag.isClose with
      | true =>
          rcases nested.closer found named with role | ⟨_, role⟩ <;> simp [RoleAt, role] at given
      | false =>
          rcases nested.opener found named with role | ⟨_, role⟩ <;> simp [RoleAt, role] at given

theorem awaiting_eq_closes_iff {role : Option Role} :
    awaiting role = some (.closes opener) ↔ role = some (.closes opener) := by
  rcases role with _ | _ | _ | _ | _ | _ <;> simp [awaiting]

theorem awaiting_eq_unresolved_iff {role : Option Role} :
    awaiting role = some .unresolved ↔ role = some .selfClosed ∨ role = some .unresolved := by
  rcases role with _ | _ | _ | _ | _ | _ <;> simp [awaiting]

namespace Tracks

theorem closes_iff (tracks : Tracks segments machine roles) (bound : index < machine.roles.size) :
    RoleAt roles index (.closes opener) ↔ RoleAt machine.roles index (.closes opener) := by
  simp [RoleAt, tracks.reached bound, awaiting_eq_closes_iff]

theorem unresolved_iff (tracks : Tracks segments machine roles)
    (bound : index < machine.roles.size) :
    RoleAt roles index .unresolved ↔ RoleAt machine.roles index .selfClosed := by
  have decided : machine.roles[index]? ≠ some (some .unresolved) :=
    tracks.invariant.nested.decided
  simp only [RoleAt, tracks.reached bound, Option.map_eq_some_iff, awaiting_eq_unresolved_iff]
  constructor
  · rintro ⟨role, found, rfl | rfl⟩
    · exact found
    · exact absurd found decided
  · intro found
    exact ⟨_, found, .inl rfl⟩

/-- The partners that the table offers are the unmatched tags of the machine. -/
theorem isPartner_iff (tracks : Tracks segments machine roles)
    (bound : index < machine.roles.size) :
    isPartner segments roles close index = true ↔
      ∃ waiting ∈ machine.visible ++ machine.hidden, waiting.index = index ∧
        waiting.answers close.closeName = true := by
  have done : ∀ {tag}, (segments.toList.take machine.roles.size)[index]? = some (.tag tag) ↔
      segments[index]? = some (.tag tag) := by
    intro tag
    rw [List.getElem?_take_of_lt bound, Array.getElem?_toList]
  constructor
  · intro partner
    rw [isPartner] at partner
    split at partner
    · rename_i openTag undecided found
      obtain ⟨waiting, member, same⟩ :=
        tracks.invariant.complete ((tracks.unresolved_iff bound).mp undecided)
      obtain ⟨_, tag, foundAgain, _, sameName⟩ := tracks.invariant.waiting waiting member
      rw [same, done, found] at foundAgain
      cases foundAgain
      simp only [accepts, Bool.and_eq_true] at partner
      refine ⟨waiting, member, same, ?_⟩
      rw [Waiting.answers, ← sameName]
      exact partner.2
    · contradiction
  · rintro ⟨waiting, member, rfl, answered⟩
    obtain ⟨waits, tag, found, named, sameName⟩ := tracks.invariant.waiting waiting member
    have undecided : roles[waiting.index]? = some (some .unresolved) :=
      (tracks.unresolved_iff bound).mpr waits
    rw [isPartner, undecided, done.mp found]
    simp only [accepts, named, sameName, Bool.not_false, Bool.true_and]
    exact answered

end Tracks

/-- No closed pair spans the gap before a position. -/
def Machine.Outermost (machine : Machine) (limit : Nat) : Prop :=
  ∀ opener closer, RoleAt machine.roles opener (.closedAt closer) → opener < limit →
    closer < limit

/-- What a look backwards over the positions below a limit has to report: the nearest
tag on the stack that answers, or else pairs that cover the hidden tags. -/
def Search.Reports (machine : Machine) (wanted : String) (limit : Nat) : Search → Prop
  | .partner opener => ∃ waiting ∈ machine.visible, waiting.index = opener ∧ opener < limit ∧
      waiting.answers wanted = true ∧ ∀ upper ∈ machine.visible, opener < upper.index →
        upper.index < limit → upper.answers wanted = false
  | .none passed => (∀ waiting ∈ machine.visible, waiting.index < limit →
        waiting.answers wanted = false) ∧
      (∀ pair ∈ passed, RoleAt machine.roles pair.1 (.closedAt pair.2)) ∧
      ∀ waiting ∈ machine.hidden, waiting.index < limit → ∃ pair ∈ passed,
        pair.1 < waiting.index ∧ waiting.index < pair.2

namespace Search.Reports

variable {done : List Segment} {wanted : String} {result : Search}

theorem zero : (Search.none []).Reports machine wanted 0 := by
  simp [Reports]

/-- A close tag is stepped over together with its pair. -/
theorem passing (invariant : machine.Invariant done)
    (paired : RoleAt machine.roles opener (.closedAt closer))
    (reports : result.Reports machine wanted opener) :
    (result.passing (opener, closer)).Reports machine wanted (closer + 1) := by
  have closes := invariant.nested.partner.mp paired
  have before := (invariant.nested.matched paired).1
  have outside : ∀ waiting ∈ machine.visible ++ machine.hidden,
      waiting.index ≠ opener ∧ waiting.index ≠ closer := by
    intro waiting member
    have waits := (invariant.waiting waiting member).1
    exact ⟨waits.ne_of_roleAt paired (by simp), waits.ne_of_roleAt closes (by simp)⟩
  have shown : ∀ waiting ∈ machine.visible, waiting.index < closer + 1 →
      waiting.index < opener := by
    intro waiting member below
    have apart := outside waiting (List.mem_append_left _ member)
    have exposed := invariant.exposed waiting member paired
    omega
  cases result with
  | partner found =>
      obtain ⟨waiting, member, same, below, answered, refused⟩ := reports
      refine ⟨waiting, member, same, by omega, answered, fun upper upperMember above under => ?_⟩
      exact refused upper upperMember above (shown upper upperMember under)
  | none passed =>
      obtain ⟨refused, pairs, covered⟩ := reports
      refine ⟨fun waiting member below => refused waiting member (shown waiting member below),
        ?_, ?_⟩
      · intro pair member
        rcases List.mem_cons.mp member with rfl | member
        · exact paired
        · exact pairs pair member
      · intro waiting member below
        have apart := outside waiting (List.mem_append_right _ member)
        by_cases earlier : waiting.index < opener
        · obtain ⟨pair, passedPair, inside⟩ := covered waiting member earlier
          exact ⟨pair, List.mem_cons_of_mem _ passedPair, inside⟩
        · exact ⟨(opener, closer), List.mem_cons_self, by dsimp only; omega, by dsimp only; omega⟩

theorem succ (exposed : ∀ waiting ∈ machine.hidden, waiting.index ≠ limit)
    (quiet : ∀ waiting ∈ machine.visible, waiting.index = limit →
      waiting.answers wanted = false)
    (reports : result.Reports machine wanted limit) :
    result.Reports machine wanted (limit + 1) := by
  cases result with
  | partner found =>
      obtain ⟨waiting, member, same, below, answered, refused⟩ := reports
      refine ⟨waiting, member, same, by omega, answered, fun upper upperMember above under => ?_⟩
      by_cases last : upper.index = limit
      · exact quiet upper upperMember last
      · exact refused upper upperMember above (by omega)
  | none passed =>
      obtain ⟨refused, pairs, covered⟩ := reports
      refine ⟨fun waiting member below => ?_, pairs, fun waiting member below => ?_⟩
      · by_cases last : waiting.index = limit
        · exact quiet waiting member last
        · exact refused waiting member (by omega)
      · have apart := exposed waiting member
        exact covered waiting member (by omega)

end Search.Reports

/-- The gap before a pair is no more enclosed than the gap behind it. -/
theorem Machine.Outermost.before {done : List Segment} (invariant : machine.Invariant done)
    (outermost : machine.Outermost (closer + 1))
    (paired : RoleAt machine.roles opener (.closedAt closer)) : machine.Outermost opener := by
  intro first last given before
  have inside := (invariant.nested.matched paired).1
  have ends := outermost first last given (by omega)
  rcases invariant.nested.noncrossing given paired before with apart | around
  · exact apart
  · omega

theorem Machine.Outermost.hidden_ne {done : List Segment} (invariant : machine.Invariant done)
    (outermost : machine.Outermost (index + 1)) :
    ∀ waiting ∈ machine.hidden, waiting.index ≠ index := by
  intro waiting member same
  obtain ⟨first, last, given, before, after⟩ := invariant.buried waiting member
  have ends := outermost first last given (by omega)
  omega

theorem Machine.Outermost.pred (outermost : machine.Outermost (index + 1))
    (passed : ∀ opener, ¬ RoleAt machine.roles opener (.closedAt index)) :
    machine.Outermost index := by
  intro first last given before
  have ends := outermost first last given (by omega)
  have different : last ≠ index := by
    rintro rfl
    exact passed first given
  omega

namespace Tracks

theorem reports_partner (tracks : Tracks segments machine roles)
    (reached : index + 1 ≤ machine.roles.size) (outermost : machine.Outermost (index + 1))
    (partner : isPartner segments roles close index = true) :
    (Search.partner index).Reports machine close.closeName (index + 1) := by
  obtain ⟨waiting, member, same, answered⟩ := (tracks.isPartner_iff reached).mp partner
  have shown : waiting ∈ machine.visible := by
    rcases List.mem_append.mp member with shown | buried
    · exact shown
    · exact absurd same (outermost.hidden_ne tracks.invariant waiting buried)
  exact ⟨waiting, shown, same, by omega, answered, fun upper _ above below => by omega⟩

theorem refused_of_not_partner (tracks : Tracks segments machine roles)
    (reached : index + 1 ≤ machine.roles.size)
    (silent : ¬ isPartner segments roles close index = true) {waiting : Waiting}
    (member : waiting ∈ machine.visible) (same : waiting.index = index) :
    waiting.answers close.closeName = false := by
  by_contra answered
  exact silent ((tracks.isPartner_iff reached).mpr
    ⟨waiting, List.mem_append_left _ member, same, by simpa using answered⟩)

theorem search_reports (tracks : Tracks segments machine roles) (bound : Nat)
    (reached : min index bound ≤ machine.roles.size)
    (outermost : machine.Outermost (min index bound)) :
    (search segments roles close index bound).Reports machine close.closeName
      (min index bound) := by
  have invariant := tracks.invariant
  induction index generalizing bound with
  | zero => simpa [search] using Search.Reports.zero
  | succ index ih =>
      rw [search]
      by_cases inside : bound ≤ index
      · have limit : min (index + 1) bound = min index bound := by omega
        rw [if_pos inside, limit]
        exact ih bound (limit ▸ reached) (limit ▸ outermost)
      · have limit : min (index + 1) bound = index + 1 := by omega
        have here : min index bound = index := by omega
        rw [limit] at reached outermost ⊢
        rw [if_neg inside]
        split
        · rename_i opener closes
          have paired := invariant.nested.partner.mpr ((tracks.closes_iff reached).mp closes)
          have before := (invariant.nested.matched paired).1
          have below : min index opener = opener := by omega
          have result := ih opener (by omega)
            (below.symm ▸ outermost.before invariant paired)
          rw [below] at result
          exact result.passing invariant paired
        · rename_i unpaired
          have apart : ∀ opener, ¬ RoleAt machine.roles opener (.closedAt index) :=
            fun opener given => unpaired opener
              ((tracks.closes_iff reached).mpr (invariant.nested.partner.mp given))
          by_cases partner : isPartner segments roles close index = true
          · rw [if_pos partner]
            exact tracks.reports_partner reached outermost partner
          · rw [if_neg partner]
            have result := ih bound (by omega) (here.symm ▸ outermost.pred apart)
            rw [here] at result
            exact result.succ (outermost.hidden_ne invariant)
              fun _ member same => tracks.refused_of_not_partner reached partner member same

end Tracks

end TagTemplate.Pairing
