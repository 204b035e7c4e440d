import TagTemplate.Proofs.Pairing.Search
import TagTemplate.Proofs.Pairing.SecondPass

/-!
The two passes over a text have the outcome of the stack machine.
-/

namespace TagTemplate.Pairing

variable {segments : Array Segment} {roles : Roles} {machine next : Machine}
  {segment : Segment} {close : Tag}

theorem lastPartner_eq_none_iff {low count : Nat} :
    lastPartner segments roles close low count = none ↔
      ∀ index, low ≤ index → index < low + count →
        isPartner segments roles close index = false := by
  induction count with
  | zero => simp only [lastPartner, true_iff]; omega
  | succ count ih =>
      rw [lastPartner]
      split
      · rename_i partner
        simp only [reduceCtorEq, false_iff, not_forall]
        exact ⟨low + count, by omega, by omega, by simp [partner]⟩
      · rename_i refused
        rw [ih]
        constructor
        · intro earlier index lower upper
          by_cases last : index = low + count
          · simpa [last] using refused
          · exact earlier index lower (by omega)
        · intro all index lower upper
          exact all index lower (by omega)

theorem crossing_eq_none_iff {passed : List (Nat × Nat)} :
    crossing segments roles close passed = none ↔
      ∀ pair ∈ passed, ∀ index, pair.1 < index → index < pair.2 →
        isPartner segments roles close index = false := by
  simp only [crossing, List.findSome?_eq_none_iff, Option.map_eq_none_iff,
    lastPartner_eq_none_iff]
  constructor
  · intro none pair member index lower upper
    exact none pair member index (by omega) (by omega)
  · intro none pair member index lower upper
    exact none pair member index (by omega) (by omega)

namespace Tracks

theorem start : Tracks segments .start (undecided segments) where
  invariant := .start
  reached := by simp [Machine.start]
  ahead := fun _ => rfl

/-- The table follows the machine when it changes nothing but the roles that a step
gives. -/
theorem step {after : Roles} (tracks : Tracks segments machine roles)
    (found : segments[machine.roles.size]? = some segment) (rule : machine.Step segment next)
    (reached : ∀ {index : Nat}, index < machine.roles.size + 1 →
      after[index]? = next.roles[index]?.map awaiting)
    (ahead : ∀ {index : Nat}, machine.roles.size + 1 ≤ index → after[index]? = roles[index]?) :
    Tracks segments next after := by
  have size := rule.size_eq
  have extended : segments.toList.take next.roles.size =
      segments.toList.take machine.roles.size ++ [segment] := by
    rw [size, List.take_add_one, Array.getElem?_toList, found]
    rfl
  constructor
  case invariant =>
    rw [extended]
    exact tracks.invariant.step rule
  case reached =>
    intro index bound
    exact reached (size ▸ bound)
  case ahead =>
    intro index bound
    rw [ahead (by omega)]
    exact tracks.ahead (by omega)

theorem assign (tracks : Tracks segments machine roles) {role : Option Role} {after : Roles}
    (found : segments[machine.roles.size]? = some segment)
    (rule : machine.Step segment next) (roles_eq : next.roles = machine.roles.push role)
    (same : ∀ {index : Nat}, index ≠ machine.roles.size → after[index]? = roles[index]?)
    (here : after[machine.roles.size]? = some (awaiting role)) :
    Tracks segments next after := by
  refine tracks.step found rule ?_ fun ahead => same (by omega)
  intro index bound
  rw [roles_eq]
  by_cases last : index = machine.roles.size
  · simp [last, here]
  · rw [same last, tracks.reached (by omega)]
    grind

theorem undecided_here (found : segments[machine.roles.size]? = some segment)
    (tracks : Tracks segments machine roles) :
    roles[machine.roles.size]? = some (segment.tag?.map fun _ => .unresolved) := by
  rw [tracks.ahead (Nat.le_refl _), undecided, Array.getElem?_map, found]
  rfl

theorem bound (tracks : Tracks segments machine roles)
    (found : segments[machine.roles.size]? = some segment) : machine.roles.size < roles.size := by
  have here := undecided_here found tracks
  exact (Array.getElem?_eq_some_iff.mp here).1

/-- A look from the next position reports about the whole stack. -/
theorem search_here (tracks : Tracks segments machine roles) (close : Tag) :
    (search segments roles close machine.roles.size machine.roles.size).Reports machine
      close.closeName machine.roles.size := by
  have outermost : machine.Outermost machine.roles.size := fun _ _ given _ =>
    (tracks.invariant.nested.partner.mp given).lt_size
  have self : min machine.roles.size machine.roles.size = machine.roles.size := Nat.min_self _
  rw [← self] at outermost
  simpa only [self] using tracks.search_reports machine.roles.size (Nat.min_le_left _ _) outermost

theorem search_of_stack (tracks : Tracks segments machine roles) {above below : List Waiting}
    {opener : Waiting} (stack : machine.visible = above ++ opener :: below)
    (refused : ∀ waiting ∈ above, waiting.answers close.closeName = false)
    (answered : opener.answers close.closeName = true) :
    search segments roles close machine.roles.size machine.roles.size =
      .partner opener.index := by
  have reports := tracks.search_here close
  have shown : opener ∈ machine.visible := by simp [stack]
  have bound : opener.index < machine.roles.size :=
    (tracks.invariant.waiting opener (List.mem_append_left _ shown)).1.lt_size
  cases result : search segments roles close machine.roles.size machine.roles.size with
  | none passed =>
      rw [result] at reports
      have silent := reports.1 opener shown bound
      simp [answered] at silent
  | partner found =>
      rw [result] at reports
      obtain ⟨waiting, member, rfl, _, accepted, skipped⟩ := reports
      rw [stack] at member
      rcases List.mem_append.mp member with upper | member
      · simp [refused waiting upper] at accepted
      · rcases List.mem_cons.mp member with rfl | lower
        · rfl
        · have under := tracks.invariant.index_lt_of_below stack lower
          have silent := skipped opener shown under bound
          simp [answered] at silent

theorem search_of_refused (tracks : Tracks segments machine roles)
    (refused : ∀ waiting ∈ machine.visible, waiting.answers close.closeName = false) :
    ∃ passed, search segments roles close machine.roles.size machine.roles.size = .none passed ∧
      (∀ pair ∈ passed, RoleAt machine.roles pair.1 (.closedAt pair.2)) ∧
      ∀ waiting ∈ machine.hidden, ∃ pair ∈ passed,
        pair.1 < waiting.index ∧ waiting.index < pair.2 := by
  have reports := tracks.search_here close
  cases result : search segments roles close machine.roles.size machine.roles.size with
  | partner found =>
      rw [result] at reports
      obtain ⟨waiting, member, _, _, answered, _⟩ := reports
      simp [refused waiting member] at answered
  | none passed =>
      rw [result] at reports
      refine ⟨passed, rfl, reports.2.1, fun waiting member => ?_⟩
      exact reports.2.2 waiting member
        (tracks.invariant.waiting waiting (List.mem_append_right _ member)).1.lt_size

theorem pairStep_of_step (tracks : Tracks segments machine roles) (d : Delimiters)
    (found : segments[machine.roles.size]? = some segment) (rule : machine.Step segment next) :
    ∃ after, pairStep segments d roles machine.roles.size = .ok after ∧
      Tracks segments next after := by
  have here := undecided_here found tracks
  have bound := tracks.bound found
  rw [pairStep, found]
  cases rule with
  | literal text =>
      exact ⟨roles, rfl, tracks.assign found (.literal text) rfl (fun _ => rfl) here⟩
  | opened named =>
      refine ⟨roles, by simp [named], ?_⟩
      exact tracks.assign found (.opened named) rfl (fun _ => rfl) here
  | @dangling tag unnamed refused =>
      obtain ⟨passed, result, pairs, _⟩ := tracks.search_of_refused fun waiting member =>
        refused waiting (List.mem_append_left _ member)
      have quiet : crossing segments roles tag passed = none := by
        rw [crossing_eq_none_iff]
        intro pair member index _ upper
        by_contra partner
        have ends := (tracks.invariant.nested.partner.mp (pairs pair member)).lt_size
        obtain ⟨waiting, known, _, answered⟩ :=
          (tracks.isPartner_iff (by omega)).mp (eq_true_of_ne_false partner)
        simp [refused waiting known] at answered
      refine ⟨roles.setIfInBounds machine.roles.size (some .dangling), ?_, ?_⟩
      · simp [unnamed, pairClose, result, quiet]
      · refine tracks.assign found (.dangling unnamed refused) rfl ?_ ?_
        · intro index other
          rw [Array.getElem?_setIfInBounds_ne other.symm]
        · simp [bound, awaiting]
  | @paired tag above below opener unnamed stack refused answered =>
      have result := tracks.search_of_stack stack refused answered
      have shown : opener ∈ machine.visible := by simp [stack]
      have earlier := (tracks.invariant.waiting opener (List.mem_append_left _ shown)).1.lt_size
      refine ⟨(roles.setIfInBounds opener.index (some (.closedAt machine.roles.size))).setIfInBounds
        machine.roles.size (some (.closes opener.index)), ?_, ?_⟩
      · simp [unnamed, pairClose, result]
      · refine tracks.step found (.paired unnamed stack refused answered) ?_ ?_
        · intro index below
          have kept := @tracks.reached index
          simp only [Machine.take]
          grind [awaiting]
        · intro index above
          grind

theorem pairStep_of_stuck (tracks : Tracks segments machine roles) (d : Delimiters)
    (found : segments[machine.roles.size]? = some segment) (stuck : machine.step segment = none) :
    ∃ outer inner, pairStep segments d roles machine.roles.size =
      .error (crossed segments d outer inner) := by
  obtain ⟨tag, rfl, unnamed, refused, waiting, member, answered⟩ := Machine.step_eq_none stuck
  obtain ⟨passed, result, pairs, covered⟩ := tracks.search_of_refused refused
  have known : waiting ∈ machine.visible ++ machine.hidden := List.mem_append_right _ member
  have partner : isPartner segments roles tag waiting.index = true :=
    (tracks.isPartner_iff (tracks.invariant.waiting waiting known).1.lt_size).mpr
      ⟨waiting, known, rfl, answered⟩
  cases crosses : crossing segments roles tag passed with
  | none =>
      obtain ⟨pair, passedPair, lower, upper⟩ := covered waiting member
      have silent := crossing_eq_none_iff.mp crosses pair passedPair waiting.index lower upper
      simp [partner] at silent
  | some pair =>
      refine ⟨pair.1, pair.2, ?_⟩
      rw [pairStep, found]
      simp [unnamed, pairClose, result, crosses]

end Tracks

/-- The first pass over the segments below `count` and the machine on the same
segments. -/
theorem pairUpTo_refines (segments : Array Segment) (d : Delimiters) {count : Nat}
    (bound : count ≤ segments.size) :
    match Machine.run (segments.toList.take count) with
    | some machine => machine.roles.size = count ∧
      ∃ roles, (List.range count).foldlM (pairStep segments d) (undecided segments) = .ok roles ∧
        Tracks segments machine roles
    | none => ∃ outer inner,
      (List.range count).foldlM (pairStep segments d) (undecided segments) =
        .error (crossed segments d outer inner) := by
  induction count with
  | zero => exact ⟨rfl, undecided segments, rfl, .start⟩
  | succ count ih =>
      have reached := ih (by omega)
      have found : segments[count]? = some segments[count] := Array.getElem?_eq_getElem bound
      have extended : segments.toList.take (count + 1) =
          segments.toList.take count ++ [segments[count]] := by
        rw [List.take_add_one, Array.getElem?_toList, found]
        rfl
      rw [extended, Machine.run_concat, List.range_succ, List.foldlM_append]
      cases ran : Machine.run (segments.toList.take count) with
      | none =>
          rw [ran] at reached
          obtain ⟨outer, inner, failed⟩ := reached
          exact ⟨outer, inner, by rw [failed]; rfl⟩
      | some machine =>
          rw [ran] at reached
          obtain ⟨rfl, roles, passed, tracks⟩ := reached
          rw [passed]
          have one (index : Nat) : (Except.ok roles >>= fun roles =>
              [index].foldlM (pairStep segments d) roles) = pairStep segments d roles index := by
            simp only [List.foldlM_cons, List.foldlM_nil, bind_pure]
            rfl
          rw [one, Option.bind_some]
          cases stepped : machine.step segments[machine.roles.size] with
          | none => exact tracks.pairStep_of_stuck d found stepped
          | some next =>
              have rule := Machine.step_eq_some_iff.mp stepped
              obtain ⟨after, stepped, follows⟩ := tracks.pairStep_of_step d found rule
              exact ⟨rule.size_eq, after, stepped, follows⟩

theorem Tracks.settle_eq (tracks : Tracks segments machine roles)
    (complete : machine.roles.size = segments.size) : settle roles = machine.roles := by
  apply Array.ext_getElem?
  intro index
  rw [settle, Array.getElem?_map]
  by_cases bound : index < machine.roles.size
  · have decided : machine.roles[index]? ≠ some (some .unresolved) :=
      tracks.invariant.nested.decided
    rw [tracks.reached bound, Array.getElem?_eq_getElem bound] at *
    rcases role : machine.roles[index] with _ | _ | _ | _ | _ | _ <;> simp_all [awaiting]
  · have beyond : (undecided segments)[index]? = none := by
      rw [undecided, Array.getElem?_map, Array.getElem?_eq_none (by omega)]
      rfl
    rw [tracks.ahead (by omega), beyond, Array.getElem?_eq_none (by omega)]
    rfl

/-- The roles that the first pass leaves are those of the machine, once the open tags that nobody
has closed close themselves. -/
theorem pairAll_of_run (segments : Array Segment) (d : Delimiters)
    (ran : Machine.run segments.toList = some machine) :
    ∃ reached, pairAll segments d = .ok reached ∧ settle reached = machine.roles := by
  have refines := pairUpTo_refines segments d (Nat.le_refl _)
  rw [← Array.length_toList, List.take_length, ran] at refines
  obtain ⟨complete, reached, passed, tracks⟩ := refines
  rw [pairAll, ← Array.length_toList]
  exact ⟨reached, passed, tracks.settle_eq complete⟩

theorem pairAll_of_stuck (segments : Array Segment) (d : Delimiters)
    (stuck : Machine.run segments.toList = none) :
    ∃ outer inner, pairAll segments d = .error (crossed segments d outer inner) := by
  have refines := pairUpTo_refines segments d (Nat.le_refl _)
  rw [← Array.length_toList, List.take_length, stuck] at refines
  rw [pairAll, ← Array.length_toList]
  exact refines

theorem checkNesting_of_pairAll {d : Delimiters} (passed : pairAll segments d = .ok roles) :
    checkNesting segments d (settle roles) = .ok () := by
  cases ran : Machine.run segments.toList with
  | none =>
      obtain ⟨outer, inner, failed⟩ := pairAll_of_stuck segments d ran
      rw [passed] at failed
      contradiction
  | some machine =>
      obtain ⟨reached, again, same⟩ := pairAll_of_run segments d ran
      rw [passed] at again
      cases again
      rw [same]
      exact checkNesting_of_nested (Machine.invariant_of_run ran).nested d

/-- Pairing the tags of a text is its first pass, after which the open tags that nobody has closed
close themselves. -/
theorem pairTags_eq_map (segments : Array Segment) (d : Delimiters) :
    pairTags segments d = (pairAll segments d).map settle := by
  rw [pairTags]
  cases passed : pairAll segments d with
  | error error => rfl
  | ok roles =>
      simp only [bind, Except.bind, checkNesting_of_pairAll passed]
      rfl

theorem pairTags_of_run (segments : Array Segment) (d : Delimiters)
    (ran : Machine.run segments.toList = some machine) :
    pairTags segments d = .ok machine.roles := by
  obtain ⟨reached, passed, same⟩ := pairAll_of_run segments d ran
  rw [pairTags_eq_map, passed, ← same]
  rfl

theorem pairTags_of_stuck (segments : Array Segment) (d : Delimiters)
    (stuck : Machine.run segments.toList = none) :
    ∃ outer inner, pairTags segments d = .error (crossed segments d outer inner) := by
  obtain ⟨outer, inner, failed⟩ := pairAll_of_stuck segments d stuck
  exact ⟨outer, inner, by rw [pairTags_eq_map, failed]; rfl⟩

theorem pairTags_eq_error_iff {d : Delimiters} {error : TemplateError} :
    pairTags segments d = .error error ↔ pairAll segments d = .error error := by
  rw [pairTags_eq_map]
  cases pairAll segments d <;> simp [Except.map]

/-- The second pass never objects: it accepts what the first pass leaves, so that a text is refused
exactly if the first pass refuses it, and with its error. -/
theorem second_pass_accepts (segments : Array Segment) (d : Delimiters) :
    (∀ reached, pairAll segments d = .ok reached →
      checkNesting segments d (settle reached) = .ok ()) ∧
    ∀ error, pairTags segments d = .error error ↔ pairAll segments d = .error error :=
  ⟨fun _ => checkNesting_of_pairAll, fun _ => pairTags_eq_error_iff⟩

/-- The close tag of the first pair steps over the second one, in which an open tag of its own name
is left. -/
theorem second_pass_accepts_skipped :
    let segments (last : String) := #[.tag ⟨"a", "", 0, 4⟩, .tag ⟨"b", "", 4, 8⟩,
      .tag ⟨"a", "", 8, 12⟩, .tag ⟨"", "b", 12, 16⟩, .tag ⟨"", "a", 16, 20⟩, .tag ⟨"", last, 20, 24⟩]
    let reached : Roles := #[some (.closedAt 4), some (.closedAt 3), some .unresolved,
      some (.closes 1), some (.closes 0), some .dangling]
    pairAll (segments "b") .default = .ok reached ∧
    checkNesting (segments "b") .default (settle reached) = .ok () ∧
    pairTags (segments "a") .default = .error (.nesting ⟨"\x7ba:\x7d", 0⟩ ⟨"\x7ba:\x7d", 8⟩) := by
  intro segments reached
  have passed : pairAll (segments "b") .default = .ok reached := by decide +kernel
  have failed : pairAll (segments "a") .default =
      .error (.nesting ⟨"\x7ba:\x7d", 0⟩ ⟨"\x7ba:\x7d", 8⟩) := by
    decide +kernel
  exact ⟨passed, (second_pass_accepts _ _).1 _ passed, ((second_pass_accepts _ _).2 _).mpr failed⟩

/-- Pairing the tags of a text is running the stack machine on it: both give the same
table, and pairing reports a crossing exactly when the machine stops. -/
theorem pairTags_eq_machine (segments : Array Segment) (d : Delimiters) :
    match Machine.run segments.toList with
    | some machine => pairTags segments d = .ok machine.roles
    | none => ∃ outer inner, pairTags segments d = .error (.nesting outer inner) := by
  split
  · rename_i machine ran
    exact pairTags_of_run segments d ran
  · rename_i stuck
    obtain ⟨outer, inner, failed⟩ := pairTags_of_stuck segments d stuck
    exact ⟨_, _, failed⟩

theorem run_of_pairTags {d : Delimiters} (accepted : pairTags segments d = .ok roles) :
    ∃ machine, Machine.run segments.toList = some machine ∧ machine.roles = roles := by
  cases ran : Machine.run segments.toList with
  | none =>
      obtain ⟨outer, inner, failed⟩ := pairTags_of_stuck segments d ran
      rw [failed] at accepted
      contradiction
  | some machine =>
      rw [pairTags_of_run segments d ran] at accepted
      cases accepted
      exact ⟨machine, rfl, rfl⟩

theorem nested_of_pairTags {d : Delimiters} (accepted : pairTags segments d = .ok roles) :
    Nested segments.toList roles := by
  obtain ⟨machine, ran, rfl⟩ := run_of_pairTags accepted
  exact (Machine.invariant_of_run ran).nested

/-- In a table without an error every segment has found its place: literals have no role,
close tags dangle or end a pair, open tags close themselves or point at a close tag
behind them that answers to their name.  Each close tag of a pair belongs to one open
tag, and no two pairs cross. -/
theorem pairTags_sound {d : Delimiters} (accepted : pairTags segments d = .ok roles) :
    roles.size = segments.size ∧
    (∀ (index : Nat) text, segments[index]? = some (.literal text) → roles[index]? = some none) ∧
    (∀ index, ¬ RoleAt roles index .unresolved) ∧
    (∀ (index : Nat) tag, segments[index]? = some (.tag tag) → tag.isClose = true →
      RoleAt roles index .dangling ∨ ∃ opener, RoleAt roles index (.closes opener)) ∧
    (∀ (index : Nat) tag, segments[index]? = some (.tag tag) → tag.isClose = false →
      RoleAt roles index .selfClosed ∨ ∃ closer closeTag,
        RoleAt roles index (.closedAt closer) ∧ index < closer ∧ closer < segments.size ∧
        segments[closer]? = some (.tag closeTag) ∧ closeTag.isClose = true ∧
        RoleAt roles closer (.closes index) ∧
        (closeTag.closeName = "" ∨ closeTag.closeName = tag.name)) ∧
    (∀ closer opener, RoleAt roles closer (.closes opener) →
      ∃! index, RoleAt roles index (.closedAt closer)) ∧
    (∀ opener closer inner innerCloser, RoleAt roles opener (.closedAt closer) →
      RoleAt roles inner (.closedAt innerCloser) → opener < inner →
      closer < inner ∨ innerCloser < closer) := by
  have nested := nested_of_pairTags accepted
  refine ⟨nested.size, ?_, fun _ => nested.decided, ?_, ?_, ?_, ?_⟩
  · intro index text found
    exact nested.literal (by simpa using found)
  · intro index tag found unnamed
    exact nested.closer (by simpa using found) unnamed
  · intro index tag found named
    rcases nested.opener (by simpa using found) named with given | ⟨closer, given⟩
    · exact .inl given
    · obtain ⟨before, openTag, closeTag, openFound, closeFound, _, unnamed, agree⟩ :=
        nested.matched given
      rw [Array.getElem?_toList] at openFound closeFound
      rw [found] at openFound
      cases openFound
      exact .inr ⟨closer, closeTag, given, before, (Array.getElem?_eq_some_iff.mp closeFound).1,
        closeFound, unnamed, nested.partner.mp given, agree⟩
  · intro closer opener given
    refine ⟨opener, nested.partner.mpr given, fun other alsoGiven => ?_⟩
    have same := nested.partner.mp alsoGiven
    rw [RoleAt, given] at same
    cases same
    rfl
  · intro opener closer inner innerCloser outerGiven innerGiven before
    exact nested.noncrossing outerGiven innerGiven before

/-- An anonymous close tag inside a named pair, and a close tag that dangles. -/
theorem pairTags_sound_anonymous :
    pairTags #[.tag ⟨"a", "", 0, 4⟩, .tag ⟨"b", "", 4, 8⟩, .literal "x", .tag ⟨"", "", 9, 12⟩,
        .tag ⟨"", " a ", 12, 18⟩, .tag ⟨"", "z", 18, 22⟩] .default =
      .ok #[some (.closedAt 4), some (.closedAt 3), none, some (.closes 1), some (.closes 0),
        some .dangling] ∧
    ∃! index, RoleAt #[some (.closedAt 4), some (.closedAt 3), none, some (.closes 1),
      some (.closes 0), some .dangling] index (.closedAt 4) := by
  have accepted : pairTags #[.tag ⟨"a", "", 0, 4⟩, .tag ⟨"b", "", 4, 8⟩, .literal "x",
        .tag ⟨"", "", 9, 12⟩, .tag ⟨"", " a ", 12, 18⟩, .tag ⟨"", "z", 18, 22⟩] .default =
      .ok #[some (.closedAt 4), some (.closedAt 3), none, some (.closes 1), some (.closes 0),
        some .dangling] := by
    decide +kernel
  obtain ⟨_, _, _, _, _, unique, _⟩ := pairTags_sound accepted
  exact ⟨accepted, unique 4 0 rfl⟩

end TagTemplate.Pairing
