import Mathlib.Algebra.BigOperators.Intervals
import Mathlib.Order.Lattice.Nat
import TagTemplate.Proofs.Forest

/-!
How deeply the pairs of a document nest.

A pair is open from its open tag up to its close tag.  The number of pairs that are open at
one position, at its largest, is the height of the forest of the document.
-/

namespace TagTemplate

namespace Document

/-- Whether the pair that opens at one position is open at another. -/
def spans (document : Document) (opener index : Nat) : Bool :=
  (document.closer? opener).any fun closer => opener ≤ index && index < closer

/-- The number of pairs from a range that are open at a position. -/
def openIn (document : Document) (start stop index : Nat) : Nat :=
  ((Finset.Ico start stop).filter fun opener => document.spans opener index).card

/-- How deeply matched pairs are nested at the deepest position. -/
def nesting (document : Document) : Nat :=
  (Finset.range document.size).sup (document.openIn 0 document.size)

end Document

namespace Forest

def height : Forest → Nat
  | nil => 0
  | text _ rest => rest.height
  | dangling _ rest => rest.height
  | single _ _ rest => rest.height
  | pair _ _ _ _ body rest => max (body.height + 1) rest.height

/-- The number of pairs that are open at a position. -/
def openAt (index : Nat) : Forest → Nat
  | nil => 0
  | text _ rest => rest.openAt index
  | dangling _ rest => rest.openAt index
  | single _ _ rest => rest.openAt index
  | pair opener _ closer _ body rest =>
    (if opener ≤ index ∧ index < closer then 1 else 0) + body.openAt index + rest.openAt index

end Forest

namespace Document

variable {document : Document} {forest : Forest} {d : Delimiters}
  {start stop index opener closer middle : Nat}

theorem openIn_self (here : Nat) : document.openIn here here index = 0 := by
  simp [openIn]

theorem openIn_eq_add (before : start < stop) :
    document.openIn start stop index =
      (if document.spans start index then 1 else 0) + document.openIn (start + 1) stop index := by
  simp only [openIn, Finset.card_filter]
  exact Finset.sum_eq_sum_Ico_succ_bot before _

theorem openIn_append (first : start ≤ middle) (second : middle ≤ stop) :
    document.openIn start stop index =
      document.openIn start middle index + document.openIn middle stop index := by
  simp only [openIn, Finset.card_filter]
  exact (Finset.sum_Ico_consecutive _ first second).symm

theorem spans_of_closer (paired : document.closer? opener = some closer) :
    document.spans opener index = decide (opener ≤ index ∧ index < closer) := by
  simp [spans, paired]

theorem closer?_of_role (role : document.role? opener = some (.closedAt closer)) :
    document.closer? opener = some closer := by
  simp [closer?, role]

theorem spans_of_no_tag (nested : Pairing.Nested document.segments.toList document.roles)
    (closed : document.openTag? opener = none) : document.spans opener index = false := by
  cases role : document.role? opener with
  | none => simp [spans, closer?, role]
  | some own =>
      cases own with
      | closedAt closer =>
          obtain ⟨_, openTag, _, found, _, named, _⟩ := nested.matched (role?_eq_some_iff.mp role)
          rw [Array.getElem?_toList] at found
          rw [openTag?_eq_some_iff.mpr ⟨found, named⟩] at closed
          cases closed
      | _ => simp [spans, closer?, role]

namespace Forms

theorem openAt_eq_zero (forms : document.Forms start stop forest)
    (outside : index < start ∨ stop ≤ index) : forest.openAt index = 0 := by
  induction forms with
  | nil here => rfl
  | text found behind ih | dangling found unnamed role behind ih
  | single found named role behind ih =>
      have reach := behind.le
      exact ih (by omega)
  | pair found named role inside closeFound unnamed behind inner outer =>
      have reachInside := inside.le
      have reachBehind := behind.le
      rw [Forest.openAt, inner (by omega), outer (by omega), if_neg (by omega)]

/-- The pairs that open in a range are those of its forest. -/
theorem openIn_eq (nested : Pairing.Nested document.segments.toList document.roles)
    (forms : document.Forms start stop forest) (index : Nat) :
    document.openIn start stop index = forest.openAt index := by
  induction forms with
  | nil here => exact openIn_self here
  | @text start stop s rest found behind ih =>
      have closed : document.openTag? start = none := by simp [openTag?, tag?, found, Segment.tag?]
      rw [openIn_eq_add behind.le, spans_of_no_tag nested closed, ih]
      simp [Forest.openAt]
  | @dangling start stop tag rest found unnamed role behind ih =>
      have closed : document.openTag? start = none := by
        simp [openTag?, tag?, found, Segment.tag?, unnamed]
      rw [openIn_eq_add behind.le, spans_of_no_tag nested closed, ih]
      simp [Forest.openAt]
  | @single start stop tag rest found named role behind ih =>
      have alone : document.spans start index = false := by simp [spans, closer?, role]
      rw [openIn_eq_add behind.le, alone, ih]
      simp [Forest.openAt]
  | @pair start stop closer tag closeTag inner rest found named role inside closeFound unnamed
      behind ihInner ihRest =>
      have reachInside := inside.le
      have reachBehind := behind.le
      have closed : document.openTag? closer = none := by
        simp [openTag?, tag?, closeFound, Segment.tag?, unnamed]
      rw [openIn_eq_add (by omega), openIn_append reachInside (by omega),
        openIn_eq_add reachBehind, spans_of_no_tag nested closed,
        spans_of_closer (closer?_of_role role), ihInner, ihRest]
      simp [Forest.openAt, Nat.add_assoc]

theorem openAt_le_height (forms : document.Forms start stop forest) (index : Nat) :
    forest.openAt index ≤ forest.height := by
  induction forms with
  | nil here => exact Nat.le_refl 0
  | text found behind ih | dangling found unnamed role behind ih
  | single found named role behind ih => exact ih
  | @pair start stop closer tag closeTag inner rest found named role inside closeFound unnamed
      behind ihInner ihRest =>
      simp only [Forest.openAt, Forest.height]
      -- a position in front of the close tag is behind no pair of the rest, and one behind it
      -- is in no pair of the body
      by_cases before : index < closer
      · have none : rest.openAt index = 0 := behind.openAt_eq_zero (.inl (by omega))
        split <;> omega
      · have none : inner.openAt index = 0 := inside.openAt_eq_zero (.inr (by omega))
        rw [if_neg (by omega)]
        omega

theorem exists_openAt_eq_height (forms : document.Forms start stop forest) :
    ∃ index, forest.openAt index = forest.height := by
  induction forms with
  | nil here => exact ⟨here, rfl⟩
  | text found behind ih | dangling found unnamed role behind ih
  | single found named role behind ih => exact ih
  | @pair start stop closer tag closeTag inner rest found named role inside closeFound unnamed
      behind ihInner ihRest =>
      obtain ⟨within, deepest⟩ := ihInner
      obtain ⟨beyond, highest⟩ := ihRest
      have reach := inside.le
      have apart : closer + 1 ≤ beyond ∨ rest.openAt beyond = 0 := by
        rcases Nat.lt_or_ge beyond (closer + 1) with before | behindIt
        · exact .inr (behind.openAt_eq_zero (.inl before))
        · exact .inl behindIt
      have framed : start + 1 ≤ within ∧ within < closer ∨ inner.openAt within = 0 := by
        by_cases strictly : start + 1 ≤ within ∧ within < closer
        · exact .inl strictly
        · exact .inr (inside.openAt_eq_zero (by omega))
      simp only [Forest.openAt, Forest.height]
      -- the deepest position is one of the rest, the open tag itself, or one of the body
      by_cases taller : inner.height + 1 ≤ rest.height
      · refine ⟨beyond, ?_⟩
        rw [inside.openAt_eq_zero (.inr (by omega)), if_neg (by omega)]
        omega
      · by_cases flat : inner.height = 0
        · refine ⟨start, ?_⟩
          rw [inside.openAt_eq_zero (.inl (by omega)), behind.openAt_eq_zero (.inl (by omega)),
            if_pos (by omega)]
          omega
        · refine ⟨within, ?_⟩
          rw [behind.openAt_eq_zero (.inl (by omega)), if_pos (by omega)]
          omega

theorem nesting_eq (nested : Pairing.Nested document.segments.toList document.roles)
    (forms : document.Forms 0 document.size forest) : document.nesting = forest.height := by
  apply le_antisymm
  · apply Finset.sup_le
    intro index _
    rw [forms.openIn_eq nested]
    exact forms.openAt_le_height index
  · obtain ⟨index, deepest⟩ := forms.exists_openAt_eq_height
    by_cases within : index < document.size
    · rw [← deepest, ← forms.openIn_eq nested index]
      exact Finset.le_sup (Finset.mem_range.mpr within)
    · rw [← deepest, forms.openAt_eq_zero (.inr (by omega))]
      exact Nat.zero_le _

end Forms

end Document

end TagTemplate
