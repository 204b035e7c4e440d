import TagTemplate.Proofs.Lexing.Lossless
import TagTemplate.Proofs.Pairing.Body
import TagTemplate.Proofs.Pairing.Refinement

/-!
What becomes of a close tag that finds no open tag.

It dangles only where every earlier open tag that it accepts has been closed in front of it.
If one of them is still unmatched inside a closed pair, the error names that pair and that
tag, and quotes both where they stand in the text.
-/

namespace TagTemplate

/-- What a reference to a tag says stands in a text, at the byte that it gives. -/
def TagRef.Quotes (text : String) (tag : TagRef) : Prop :=
  ∃ before after, text = before ++ tag.written ++ after ∧ before.utf8ByteSize = tag.offset

namespace Pairing

variable {segments : Array Segment} {roles : Roles} {machine next : Machine} {d : Delimiters}
  {done rest : List Segment} {close tag : Tag} {role : Role} {index opener outer inner : Nat}
  {error : TemplateError}

namespace Machine

/-- The role of a tag that does not wait for a close tag is final. -/
theorem Invariant.role_of_runFrom (invariant : Invariant done machine)
    (ran : machine.runFrom rest = some next) (given : RoleAt machine.roles index role)
    (final : role ≠ .selfClosed) : RoleAt next.roles index role := by
  rw [RoleAt, role_eq_of_runFrom ran given.lt_size]
  · exact given
  · intro waiting member
    have waits := (invariant.waiting waiting (List.mem_append_left _ member)).1
    exact waits.ne_of_roleAt given final.symm

/-- A close tag dangles only if the open tags in front of it that it accepts have been closed
in front of it. -/
theorem closed_of_dangling (ran : run (done ++ .tag close :: rest) = some machine)
    (dangles : RoleAt machine.roles done.length .dangling)
    (found : done[opener]? = some (.tag tag)) (named : tag.isClose = false)
    (accepted : close.closeName = "" ∨ close.closeName = tag.name) :
    ∃ closer, closer < done.length ∧ RoleAt machine.roles opener (.closedAt closer) := by
  have whole := invariant_of_run ran
  obtain ⟨before, passed, behind⟩ := runFrom_append_iff.mp ran
  obtain ⟨next, rule, left⟩ := runFrom_cons_iff.mp behind
  have invariant := invariant_of_run passed
  have size := invariant.nested.size
  have here : (done ++ .tag close :: rest)[done.length]? = some (.tag close) := by simp
  cases rule with
  | opened isOpen =>
      rcases whole.nested.opener here isOpen with waits | ⟨closer, closed⟩
      · exact absurd rfl (waits.ne_of_roleAt dangles (by simp))
      · exact absurd rfl (closed.ne_of_roleAt dangles (by simp))
  | @paired _ above below partner unnamed stack refused answered =>
      have reached : RoleAt (before.take above partner below).roles done.length
          (.closes partner.index) := by
        rw [← size]
        exact roleAt_push_iff.mpr (.inr ⟨by simp, rfl⟩)
      have closes := (invariant.take unnamed stack answered).role_of_runFrom left reached (by simp)
      exact absurd rfl (closes.ne_of_roleAt dangles (by simp))
  | dangling unnamed refused =>
      rcases invariant.nested.opener found named with waits | ⟨closer, closed⟩
      · obtain ⟨waiting, member, same⟩ := invariant.complete waits
        obtain ⟨-, other, foundAgain, -, sameName⟩ := invariant.waiting waiting member
        rw [same, found] at foundAgain
        cases foundAgain
        have answers := Waiting.answers_iff.mpr (sameName ▸ accepted)
        simp [refused waiting member] at answers
      · have ends := (invariant.nested.partner.mp closed).lt_size
        exact ⟨closer, size ▸ ends, invariant.role_of_runFrom behind closed (by simp)⟩

end Machine

/-- A close tag that dangles leaves nothing open in front of it that it could have closed: each
earlier open tag of its name, or each earlier open tag at all if it names none, has been closed
by an earlier close tag. -/
theorem closed_before_dangling (accepted : pairTags segments d = .ok roles)
    (found : segments[index]? = some (.tag close)) (dangles : RoleAt roles index .dangling)
    (earlier : opener < index) (opens : segments[opener]? = some (.tag tag))
    (named : tag.isClose = false) (wanted : close.closeName = "" ∨ tag.name = close.closeName) :
    ∃ closer, closer < index ∧ RoleAt roles opener (.closedAt closer) := by
  obtain ⟨machine, ran, rfl⟩ := run_of_pairTags accepted
  obtain ⟨bound, here⟩ := List.getElem?_eq_some_iff.mp (Array.getElem?_toList.trans found)
  have length : (segments.toList.take index).length = index := List.length_take_of_le bound.le
  have split : segments.toList.take index ++ .tag close :: segments.toList.drop (index + 1) =
      segments.toList := by
    rw [← here, List.getElem_cons_drop, List.take_append_drop]
  rw [← split] at ran
  rw [← length] at dangles ⊢
  refine Machine.closed_of_dangling ran dangles ?_ named (wanted.imp_right Eq.symm)
  rw [List.getElem?_take_of_lt earlier, Array.getElem?_toList, opens]

/-- Both tags are closed when the last close tag, which would accept either, is read. -/
theorem closed_before_dangling_anonymous :
    pairTags #[.tag ⟨"a", "", 0, 4⟩, .tag ⟨"b", "", 4, 8⟩, .tag ⟨"", " b ", 8, 14⟩,
        .tag ⟨"", "", 14, 17⟩, .tag ⟨"", " ", 17, 21⟩, .tag ⟨"c", "", 21, 25⟩] .default =
      .ok #[some (.closedAt 3), some (.closedAt 2), some (.closes 1), some (.closes 0),
        some .dangling, some .selfClosed] ∧
    ∃ closer, closer < 4 ∧ RoleAt #[some (.closedAt 3), some (.closedAt 2), some (.closes 1),
      some (.closes 0), some .dangling, some .selfClosed] 0 (.closedAt closer) := by
  have accepted : pairTags #[.tag ⟨"a", "", 0, 4⟩, .tag ⟨"b", "", 4, 8⟩,
        .tag ⟨"", " b ", 8, 14⟩, .tag ⟨"", "", 14, 17⟩, .tag ⟨"", " ", 17, 21⟩,
        .tag ⟨"c", "", 21, 25⟩] .default =
      .ok #[some (.closedAt 3), some (.closedAt 2), some (.closes 1), some (.closes 0),
        some .dangling, some .selfClosed] := by
    decide +kernel
  have dangles : RoleAt #[some (.closedAt 3), some (.closedAt 2), some (.closes 1),
      some (.closes 0), some .dangling, some .selfClosed] 4 .dangling := rfl
  exact ⟨accepted, closed_before_dangling accepted rfl dangles (by decide) rfl rfl
    (.inl (by decide))⟩

/-- The roles with which the first pass reaches a position. -/
def rolesBefore (segments : Array Segment) (d : Delimiters) (index : Nat) :
    Except TemplateError Roles :=
  (List.range index).foldlM (pairStep segments d) (undecided segments)

/-- An open tag inside a closed pair is still unmatched when a close tag behind the pair, which
accepts it, is reached at a position. -/
structure Crossing (segments : Array Segment) (roles : Roles) (index : Nat) where
  outer : Nat
  inner : Nat
  closer : Nat
  outerTag : Tag
  innerTag : Tag
  closerTag : Tag
  close : Tag
  enters : outer < inner
  leaves : inner < closer
  behind : closer < index
  outerFound : segments[outer]? = some (.tag outerTag)
  outerOpens : outerTag.isClose = false
  closerFound : segments[closer]? = some (.tag closerTag)
  closerCloses : closerTag.isClose = true
  paired : RoleAt roles outer (.closedAt closer)
  innerFound : segments[inner]? = some (.tag innerTag)
  innerOpens : innerTag.isClose = false
  unmatched : RoleAt roles inner .unresolved
  closeFound : segments[index]? = some (.tag close)
  closes : close.isClose = true
  accepted : close.closeName = "" ∨ close.closeName = innerTag.name

/-- The error that names the pair and the tag in it. -/
def Crossing.report (d : Delimiters) (crossing : Crossing segments roles index) : TemplateError :=
  .nesting (crossing.outerTag.ref d) (crossing.innerTag.ref d)

theorem rolesBefore_succ (segments : Array Segment) (d : Delimiters) (index : Nat) :
    rolesBefore segments d (index + 1) =
      rolesBefore segments d index >>= fun roles => pairStep segments d roles index := by
  simp [rolesBefore, List.range_succ]

/-- A pass that fails has failed at some position, with the roles that it had until then. -/
theorem exists_pairStep_of_error {count : Nat}
    (failed : rolesBefore segments d count = .error error) :
    ∃ index reached, index < count ∧ rolesBefore segments d index = .ok reached ∧
      pairStep segments d reached index = .error error := by
  induction count with
  | zero => cases failed
  | succ count ih =>
      rw [rolesBefore_succ] at failed
      cases before : rolesBefore segments d count with
      | error earlier =>
          rw [before] at failed
          cases failed
          obtain ⟨index, reached, bound, facts⟩ := ih before
          exact ⟨index, reached, Nat.lt_succ_of_lt bound, facts⟩
      | ok reached =>
          rw [before] at failed
          exact ⟨count, reached, Nat.lt_succ_self count, before, failed⟩

theorem pairStep_eq_error (failed : pairStep segments d roles index = .error error) :
    ∃ close passed outer inner, segments[index]? = some (.tag close) ∧ close.isClose = true ∧
      search segments roles close index index = .none passed ∧
      crossing segments roles close passed = some (outer, inner) ∧
      error = crossed segments d outer inner := by
  unfold pairStep at failed
  split at failed
  · rename_i close found
    split at failed
    · rename_i unnamed
      unfold pairClose at failed
      split at failed
      · cases failed
      · rename_i passed searched
        split at failed
        · rename_i outer inner crosses
          cases failed
          exact ⟨close, passed, outer, inner, found, unnamed, searched, crosses, rfl⟩
        · cases failed
    · cases failed
  · cases failed

theorem lastPartner_eq_some {low count : Nat}
    (found : lastPartner segments roles close low count = some index) :
    low ≤ index ∧ index < low + count ∧ isPartner segments roles close index = true := by
  induction count with
  | zero => cases found
  | succ count ih =>
      rw [lastPartner] at found
      split at found
      · rename_i partner
        cases found
        exact ⟨by omega, by omega, partner⟩
      · obtain ⟨lower, upper, partner⟩ := ih found
        exact ⟨lower, by omega, partner⟩

theorem crossing_eq_some {passed : List (Nat × Nat)}
    (crosses : crossing segments roles close passed = some (outer, inner)) :
    ∃ closer, (outer, closer) ∈ passed ∧ outer < inner ∧ inner < closer ∧
      isPartner segments roles close inner = true := by
  obtain ⟨⟨opener, closer⟩, member, hidden⟩ := List.exists_of_findSome?_eq_some crosses
  obtain ⟨index, last, same⟩ := Option.map_eq_some_iff.mp hidden
  cases same
  obtain ⟨lower, upper, partner⟩ := lastPartner_eq_some last
  exact ⟨closer, member, by omega, by omega, partner⟩

theorem isPartner_eq_true (partner : isPartner segments roles close index = true) :
    ∃ opener, segments[index]? = some (.tag opener) ∧ opener.isClose = false ∧
      RoleAt roles index .unresolved ∧
      (close.closeName = "" ∨ close.closeName = opener.name) := by
  unfold isPartner at partner
  split at partner
  · rename_i opener unresolved found
    simp only [accepts, Bool.and_eq_true, Bool.not_eq_true', Bool.or_eq_true, String.isEmpty_iff,
      beq_iff_eq] at partner
    exact ⟨opener, found, partner.1, unresolved, partner.2.imp_right Eq.symm⟩
  · cases partner

theorem refAt_of_tag (d : Delimiters) (found : segments[index]? = some (.tag tag)) :
    refAt segments d index = tag.ref d := by
  simp [refAt, found]

/-- What the first pass reports is a crossing. -/
theorem Tracks.crossing_of_error (tracks : Tracks segments machine roles)
    (failed : pairStep segments d roles machine.roles.size = .error error) :
    ∃ crossing : Crossing segments roles machine.roles.size, crossing.report d = error := by
  obtain ⟨close, passed, outer, inner, closeFound, closes, searched, crosses, rfl⟩ :=
    pairStep_eq_error failed
  obtain ⟨closer, member, enters, leaves, partner⟩ := crossing_eq_some crosses
  obtain ⟨innerTag, innerFound, innerOpens, unmatched, accepted⟩ := isPartner_eq_true partner
  -- Every pair that the look backwards has stepped over is closed.
  have reports := tracks.search_here close
  rw [searched] at reports
  have closed : RoleAt machine.roles outer (.closedAt closer) := reports.2.1 _ member
  have behind := (tracks.invariant.nested.partner.mp closed).lt_size
  obtain ⟨-, outerTag, closerTag, outerFound, closerFound, outerOpens, closerCloses, -⟩ :=
    tracks.invariant.nested.matched closed
  rw [List.getElem?_take_of_lt closed.lt_size, Array.getElem?_toList] at outerFound
  rw [List.getElem?_take_of_lt behind, Array.getElem?_toList] at closerFound
  have paired : RoleAt roles outer (.closedAt closer) := by
    rw [RoleAt, tracks.reached closed.lt_size, closed]
    rfl
  let crossing : Crossing segments roles machine.roles.size := {
    outer, inner, closer, outerTag, innerTag, closerTag, close, enters, leaves, behind,
    outerFound, outerOpens, closerFound, closerCloses, paired, innerFound, innerOpens, unmatched,
    closeFound, closes, accepted }
  refine ⟨crossing, ?_⟩
  rw [Crossing.report, crossed, refAt_of_tag d outerFound, refAt_of_tag d innerFound]

theorem exists_crossing_of_error (failed : pairTags segments d = .error error) :
    ∃ index roles, rolesBefore segments d index = .ok roles ∧
      ∃ crossing : Crossing segments roles index, crossing.report d = error := by
  obtain ⟨index, roles, bound, reached, stopped⟩ :=
    exists_pairStep_of_error (pairTags_eq_error_iff.mp failed)
  have refines := pairUpTo_refines segments d bound.le
  refine ⟨index, roles, reached, ?_⟩
  split at refines
  · obtain ⟨size, others, again, tracks⟩ := refines
    cases reached.symm.trans again
    subst size
    exact tracks.crossing_of_error stopped
  · obtain ⟨_, _, before⟩ := refines
    cases reached.symm.trans before

end Pairing

theorem Lossless.quotes {d : Delimiters} {text : String} {segments : List Segment} {index : Nat}
    {tag : Tag} (lossless : Lossless d text segments)
    (found : segments[index]? = some (.tag tag)) : (tag.ref d).Quotes text := by
  obtain ⟨-, before, after, same, start, -⟩ := lossless.spans found
  exact ⟨before, after, same, start⟩

/-- A text is refused only for a crossing: some close tag of it accepts an open tag that is
unmatched when the close tag is reached, and that lies inside a pair closed before.  The error
quotes the open tag of the pair and the unmatched one, in this order. -/
theorem parse_fails_at_crossing {d : Delimiters} (valid : d.validate = .ok ()) {text : String}
    {error : TemplateError} (failed : Document.parse d text = .error error) :
    ∃ index roles, Pairing.rolesBefore (d.tokenize text).toArray d index = .ok roles ∧
      ∃ crossing : Pairing.Crossing (d.tokenize text).toArray roles index,
        error = .nesting (crossing.outerTag.ref d) (crossing.innerTag.ref d) ∧
        (crossing.outerTag.ref d).Quotes text ∧ (crossing.innerTag.ref d).Quotes text ∧
        (crossing.outerTag.ref d).offset < (crossing.innerTag.ref d).offset := by
  have unpaired : Pairing.pairTags (d.tokenize text).toArray d = .error error := by
    cases paired : Pairing.pairTags (d.tokenize text).toArray d <;>
      rw [Document.parse, paired] at failed <;> cases failed
    rfl
  obtain ⟨index, roles, reached, crossing, same⟩ := Pairing.exists_crossing_of_error unpaired
  have lossless := (Delimiters.Delimiting.of_validate valid).lossless text
  have outer : (d.tokenize text)[crossing.outer]? = some (.tag crossing.outerTag) := by
    simpa using crossing.outerFound
  have inner : (d.tokenize text)[crossing.inner]? = some (.tag crossing.innerTag) := by
    simpa using crossing.innerFound
  have apart := lossless.increasing outer inner crossing.enters
  have long := (lossless.spans outer).1
  refine ⟨index, roles, reached, crossing, same.symm, lossless.quotes outer, lossless.quotes inner,
    ?_⟩
  exact Nat.lt_of_lt_of_le long apart

/-- The tag that stays open lies two pairs deep, behind a character of two bytes. -/
theorem parse_fails_at_crossing_buried :
    Delimiters.default.validate = .ok () ∧
      Document.parse .default "é\x7ba:\x7d\x7bb:\x7d\x7bc: \x7d\x7b:b\x7d\x7b:a\x7d\x7b:c\x7d" =
        .error (.nesting ⟨"\x7ba:\x7d", 2⟩ ⟨"\x7bc: \x7d", 10⟩) ∧
      TagRef.Quotes "é\x7ba:\x7d\x7bb:\x7d\x7bc: \x7d\x7b:b\x7d\x7b:a\x7d\x7b:c\x7d"
        ⟨"\x7bc: \x7d", 10⟩ := by
  have valid : Delimiters.default.validate = .ok () := by decide
  have failed : Document.parse .default
      "é\x7ba:\x7d\x7bb:\x7d\x7bc: \x7d\x7b:b\x7d\x7b:a\x7d\x7b:c\x7d" =
        .error (.nesting ⟨"\x7ba:\x7d", 2⟩ ⟨"\x7bc: \x7d", 10⟩) := by
    decide +kernel
  obtain ⟨index, roles, -, crossing, same, -, quoted, -⟩ := parse_fails_at_crossing valid failed
  rw [← (TemplateError.nesting.inj same).2] at quoted
  exact ⟨valid, failed, quoted⟩

end TagTemplate
