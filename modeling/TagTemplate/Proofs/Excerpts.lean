import Mathlib.Data.List.Pairwise
import Mathlib.Order.Bounds.Basic
import TagTemplate.Text.Excerpt

/-!
Excerpts are cut between characters.

The boundaries of a text are listed upwards.  So the last one up to a position is the greatest one,
and the first one from a position on is the least one; both ends of an excerpt are found this way,
and searching byte by byte finds the same ones.
-/

namespace TagTemplate.Text

/-- A byte position at which a character of a text begins or the text ends. -/
def IsBoundary (source : String) (position : Nat) : Prop :=
  String.Pos.Raw.IsValid source ⟨position⟩

/-- A search goes down from a position byte by byte and ends at the first boundary. -/
inductive Descent (source : String) : Nat → Nat → Prop where
  | found {position : Nat} (reached : IsBoundary source position) :
      Descent source position position
  | down {position boundary : Nat} (within : ¬ IsBoundary source (position + 1))
      (further : Descent source position boundary) : Descent source (position + 1) boundary

/-- A search goes up from a position byte by byte and ends at the first boundary. -/
inductive Ascent (source : String) : Nat → Nat → Prop where
  | found {position : Nat} (reached : IsBoundary source position) :
      Ascent source position position
  | up {position boundary : Nat} (within : ¬ IsBoundary source position)
      (further : Ascent source (position + 1) boundary) : Ascent source position boundary

variable {source : String} {cs : List Char} {here position boundary start stop : Nat}

theorem byteLength_append (cs more : List Char) :
    byteLength (cs ++ more) = byteLength cs + byteLength more := by
  rw [byteLength_eq, byteLength_eq, byteLength_eq, String.ofList_append,
    String.utf8ByteSize_append]

theorem byteLength_toList (text : String) : byteLength text.toList = text.utf8ByteSize := by
  rw [byteLength_eq, String.ofList_toList]

theorem mem_boundariesFrom :
    position ∈ boundariesFrom here cs ↔ ∃ count, position = here + byteLength (cs.take count) := by
  induction cs generalizing here with
  | nil => simp [boundariesFrom, byteLength]
  | cons c cs ih =>
      rw [boundariesFrom, List.mem_cons, ih]
      constructor
      · rintro (rfl | ⟨count, rfl⟩)
        · exact ⟨0, rfl⟩
        · exact ⟨count + 1, Nat.add_assoc ..⟩
      · rintro ⟨count | count, rfl⟩
        · exact .inl rfl
        · exact .inr ⟨count, (Nat.add_assoc ..).symm⟩

theorem mem_boundariesFrom_toList :
    position ∈ boundariesFrom 0 source.toList ↔ IsBoundary source position := by
  rw [mem_boundariesFrom, IsBoundary, String.Pos.Raw.isValid_iff_exists_take_toList]
  simp [byteLength_eq]

theorem boundariesFrom_ascending (here : Nat) (cs : List Char) :
    (boundariesFrom here cs).Pairwise (· < ·) := by
  induction cs generalizing here with
  | nil => exact List.pairwise_singleton ..
  | cons c cs ih =>
      refine List.pairwise_cons.mpr ⟨fun position member => ?_, ih _⟩
      obtain ⟨count, rfl⟩ := mem_boundariesFrom.mp member
      have size := c.utf8Size_pos
      omega

theorem isBoundary_zero (source : String) : IsBoundary source 0 :=
  mem_boundariesFrom_toList.mp (mem_boundariesFrom.mpr ⟨0, rfl⟩)

theorem isBoundary_size (source : String) : IsBoundary source source.utf8ByteSize := by
  refine mem_boundariesFrom_toList.mp (mem_boundariesFrom.mpr ⟨source.toList.length, ?_⟩)
  simp [byteLength_eq]

theorem isGreatest_boundaryBelow (source : String) (position : Nat) :
    IsGreatest {boundary | IsBoundary source boundary ∧ boundary ≤ position}
      (boundaryBelow source.toList position) := by
  let below := (boundariesFrom 0 source.toList).filter (· ≤ position)
  have member {boundary : Nat} :
      boundary ∈ below ↔ IsBoundary source boundary ∧ boundary ≤ position := by
    rw [List.mem_filter, mem_boundariesFrom_toList, decide_eq_true_eq]
  have some : below ≠ [] :=
    List.ne_nil_of_mem (member.mpr ⟨isBoundary_zero source, Nat.zero_le _⟩)
  have last : boundaryBelow source.toList position = below.getLast some := by
    rw [boundaryBelow, List.getLastD_eq_getLast?, List.getLast?_eq_some_getLast some]
    rfl
  have ascending : below.Pairwise (· ≤ ·) :=
    ((boundariesFrom_ascending 0 source.toList).filter _).imp Nat.le_of_lt
  rw [last]
  exact ⟨member.mp (List.getLast_mem some), fun boundary below =>
    ascending.rel_getLast (member.mpr below)⟩

theorem isLeast_boundaryAbove (inside : position ≤ source.utf8ByteSize) :
    IsLeast {boundary | IsBoundary source boundary ∧ position ≤ boundary}
      (boundaryAbove source.toList position) := by
  cases found : (boundariesFrom 0 source.toList).find? (position ≤ ·) with
  | none =>
      have listed := mem_boundariesFrom_toList.mpr (isBoundary_size source)
      have short := List.find?_eq_none.mp found _ listed
      simp [inside] at short
  | some first =>
      rw [boundaryAbove, found, Option.getD_some]
      obtain ⟨reached, earlier, later, listed, short⟩ := List.find?_eq_some_iff_append.mp found
      have ascending := boundariesFrom_ascending 0 source.toList
      rw [listed, List.pairwise_append] at ascending
      constructor
      · have member : first ∈ boundariesFrom 0 source.toList := by simp [listed]
        exact ⟨mem_boundariesFrom_toList.mp member, of_decide_eq_true reached⟩
      · rintro boundary ⟨isBoundary, above⟩
        have member := mem_boundariesFrom_toList.mpr isBoundary
        rw [listed, List.mem_append, List.mem_cons] at member
        rcases member with passed | rfl | behind
        · have below := short boundary passed
          simp [above] at below
        · exact Nat.le_refl _
        · exact Nat.le_of_lt ((List.pairwise_cons.mp ascending.2.1).1 boundary behind)

theorem descent_of_isGreatest
    (greatest : IsGreatest {below | IsBoundary source below ∧ below ≤ position} boundary) :
    Descent source position boundary := by
  obtain ⟨⟨isBoundary, below⟩, upper⟩ := greatest
  obtain ⟨distance, rfl⟩ := Nat.exists_eq_add_of_le below
  induction distance with
  | zero => exact .found isBoundary
  | succ distance ih =>
      refine .down (fun within => ?_) (ih (fun other lower => ?_) (Nat.le_add_right ..))
      · have above : boundary + distance + 1 ≤ boundary := upper ⟨within, Nat.le_refl _⟩
        omega
      · exact upper ⟨lower.1, Nat.le_succ_of_le lower.2⟩

theorem ascent_of_isLeast
    (least : IsLeast {above | IsBoundary source above ∧ position ≤ above} boundary) :
    Ascent source position boundary := by
  obtain ⟨⟨isBoundary, above⟩, lower⟩ := least
  obtain ⟨distance, rfl⟩ := Nat.exists_eq_add_of_le above
  induction distance generalizing position with
  | zero => exact .found isBoundary
  | succ distance ih =>
      rw [← Nat.add_assoc, Nat.add_right_comm] at isBoundary lower ⊢
      refine .up (fun within => ?_) (ih (fun other higher => ?_) isBoundary (Nat.le_add_right ..))
      · have below : position + 1 + distance ≤ position := lower ⟨within, Nat.le_refl _⟩
        omega
      · exact lower ⟨higher.1, Nat.le_of_succ_le higher.2⟩

/-- Two boundaries of a text cut it into three texts. -/
theorem exists_cut (first : IsBoundary source start) (second : IsBoundary source stop)
    (ordered : start ≤ stop) : ∃ before shown after : String, source = before ++ shown ++ after ∧
      before.utf8ByteSize = start ∧ (before ++ shown).utf8ByteSize = stop := by
  obtain ⟨before, rest, rfl, startsAt⟩ := String.Pos.Raw.isValid_iff_exists_append.mp first
  obtain ⟨front, after, same, stopsAt⟩ := String.Pos.Raw.isValid_iff_exists_append.mp second
  obtain rfl : start = before.utf8ByteSize := congrArg String.Pos.Raw.byteIdx startsAt
  obtain rfl : stop = front.utf8ByteSize := congrArg String.Pos.Raw.byteIdx stopsAt
  have lists := congrArg String.toList same
  rw [String.toList_append, String.toList_append] at lists
  rcases List.append_eq_append_iff.mp lists with ⟨shown, longer, -⟩ | ⟨surplus, longer, -⟩
  · have whole : front = before ++ .ofList shown := by
      rw [← String.toList_inj, longer, String.toList_append, String.toList_ofList]
    exact ⟨before, .ofList shown, after, by rw [← whole, same], rfl, by rw [whole]⟩
  · -- The second boundary comes first only where both are the same.
    have whole : before = front ++ .ofList surplus := by
      rw [← String.toList_inj, longer, String.toList_append, String.toList_ofList]
    rw [whole, String.utf8ByteSize_append] at ordered
    have nothing : String.ofList surplus = "" := by
      rw [← String.utf8ByteSize_eq_zero_iff]
      omega
    rw [nothing, String.append_empty] at whole
    exact ⟨before, "", rest, by simp, rfl, by simp [whole]⟩

theorem sliceFrom_append (here start stop : Nat) (cs more : List Char) :
    sliceFrom here start stop (cs ++ more) =
      sliceFrom here start stop cs ++ sliceFrom (here + byteLength cs) start stop more := by
  induction cs generalizing here with
  | nil => rfl
  | cons c cs ih =>
      rw [List.cons_append, sliceFrom, sliceFrom, byteLength, ih, Nat.add_assoc]
      split <;> rfl

theorem sliceFrom_eq_self (from_start : start ≤ here) (to_stop : here + byteLength cs ≤ stop) :
    sliceFrom here start stop cs = cs := by
  induction cs generalizing here with
  | nil => rfl
  | cons c cs ih =>
      have size := c.utf8Size_pos
      rw [byteLength] at to_stop
      rw [sliceFrom, ih (by omega) (by omega), if_pos (by simp; omega)]

theorem sliceFrom_of_before (ends : here + byteLength cs ≤ start) :
    sliceFrom here start stop cs = [] := by
  induction cs generalizing here with
  | nil => rfl
  | cons c cs ih =>
      have size := c.utf8Size_pos
      rw [byteLength] at ends
      rw [sliceFrom, ih (by omega), if_neg (by simp; omega)]

theorem sliceFrom_of_behind (begins : stop ≤ here) : sliceFrom here start stop cs = [] := by
  induction cs generalizing here with
  | nil => rfl
  | cons c cs ih =>
      rw [sliceFrom, ih (by omega), if_neg (by simp; omega)]

theorem slice_cut (before shown after : List Char) :
    slice (before ++ shown ++ after) (byteLength before) (byteLength (before ++ shown)) = shown := by
  rw [slice, sliceFrom_append, sliceFrom_append, sliceFrom_of_before (by omega), byteLength_append,
    sliceFrom_eq_self (by omega) (by omega), sliceFrom_of_behind (by omega), List.nil_append,
    List.append_nil]

/-- Characters are lines with a line feed between them, and replacing each line feed puts the
replacement between the same lines. -/
theorem exists_lines_chars (replacement cs : List Char) : ∃ lines : List (List Char), lines ≠ [] ∧
    (∀ line ∈ lines, '\n' ∉ line) ∧ cs = ['\n'].intercalate lines ∧
    cs.flatMap (fun c => if c == '\n' then replacement else [c]) =
      replacement.intercalate lines := by
  induction cs with
  | nil => exact ⟨[[]], by simp, by simp, by simp, by simp⟩
  | cons c cs ih =>
      obtain ⟨lines, some, single, same, replaced⟩ := ih
      obtain ⟨line, more, rfl⟩ := List.exists_cons_of_ne_nil some
      rw [List.flatMap_cons, replaced, same]
      by_cases feed : c = '\n'
      · subst feed
        refine ⟨[] :: line :: more, by simp, by simpa using single, ?_, ?_⟩
        · rw [List.intercalate_cons_cons, List.nil_append, List.singleton_append]
        · rw [List.intercalate_cons_cons, List.nil_append]
          rfl
      · refine ⟨(c :: line) :: more, by simp, ?_, ?_, ?_⟩
        · simpa [Ne.symm feed] using single
        · rw [List.intercalate_cons_cons_left]
        · rw [if_neg (by simpa using feed), List.intercalate_cons_cons_left, List.singleton_append]

theorem exists_lines (replacement text : String) : ∃ lines : List String,
    (∀ line ∈ lines, '\n' ∉ line.toList) ∧ text = "\n".intercalate lines ∧
    text.toList.flatMap (fun c => if c == '\n' then replacement.toList else [c]) =
      (replacement.intercalate lines).toList := by
  obtain ⟨lines, -, single, same, replaced⟩ := exists_lines_chars replacement.toList text.toList
  have asChars : (lines.map String.ofList).map String.toList = lines := by
    simp [Function.comp_def]
  refine ⟨lines.map String.ofList, ?_, ?_, ?_⟩
  · intro line member
    obtain ⟨chars, held, rfl⟩ := List.mem_map.mp member
    rw [String.toList_ofList]
    exact single chars held
  · rw [← String.toList_inj, String.toList_intercalate, asChars]
    exact same
  · rw [String.toList_intercalate, asChars, replaced]

theorem feed_not_mem_excerpt (source : String) (offset radius : Nat) :
    '\n' ∉ (excerpt source offset radius).toList := by
  have ellipsis (cut : Prop) [Decidable cut] : '\n' ∉ if cut then "...".toList else [] := by
    split <;> decide
  rw [excerpt, String.toList_ofList, List.mem_append, List.mem_append, List.mem_flatMap]
  rintro ((front | ⟨c, -, spelled⟩) | behind)
  · exact ellipsis _ front
  · by_cases feed : c = '\n'
    · subst feed
      exact absurd spelled (by decide)
    · rw [if_neg (by simpa using feed), List.mem_singleton] at spelled
      exact feed spelled.symm
  · exact ellipsis _ behind

theorem toList_excerpt {source before shown after : String} {offset radius : Nat}
    (split : source = before ++ shown ++ after)
    (starts : before.utf8ByteSize =
      boundaryBelow source.toList (min offset source.utf8ByteSize - radius))
    (stops : (before ++ shown).utf8ByteSize = boundaryAbove source.toList
      (min (min offset source.utf8ByteSize + radius) source.utf8ByteSize)) :
    (excerpt source offset radius).toList =
      (if 0 < before.utf8ByteSize then "...".toList else []) ++
        shown.toList.flatMap (fun c => if c == '\n' then ['\\', 'n'] else [c]) ++
        (if (before ++ shown).utf8ByteSize < source.utf8ByteSize then "...".toList else []) := by
  have sliced : slice source.toList before.utf8ByteSize (before ++ shown).utf8ByteSize =
      shown.toList := by
    rw [split, ← byteLength_toList, ← byteLength_toList, String.toList_append, String.toList_append]
    exact slice_cut ..
  rw [excerpt, String.toList_ofList]
  simp only [byteLength_toList, ← starts, ← stops, sliced]

/-- An excerpt is well cut, for every text, offset and radius.  It shows the part of the text
between two character boundaries: the greatest one that is not above the start of the window around
the offset, and the least one that is not below its end.  Searching byte by byte from the ends of
the window reaches both.  Line feeds are spelled out, so that the excerpt is a single line, and an
ellipsis stands exactly on the sides on which text is left out. -/
theorem excerpt_well_cut (source : String) (offset radius : Nat) :
    let size := source.utf8ByteSize
    let middle := min offset size
    ∃ before shown after : String, source = before ++ shown ++ after ∧
      let start := before.utf8ByteSize
      let stop := (before ++ shown).utf8ByteSize
      IsGreatest {boundary | IsBoundary source boundary ∧ boundary ≤ middle - radius} start ∧
      Descent source (middle - radius) start ∧
      IsLeast {boundary | IsBoundary source boundary ∧ min (middle + radius) size ≤ boundary}
        stop ∧
      Ascent source (min (middle + radius) size) stop ∧
      (∃ lines : List String, (∀ line ∈ lines, '\n' ∉ line.toList) ∧
        shown = "\n".intercalate lines ∧
        excerpt source offset radius = (if 0 < start then "..." else "") ++
          "\\n".intercalate lines ++ (if stop < size then "..." else "")) ∧
      '\n' ∉ (excerpt source offset radius).toList := by
  intro size middle
  have greatest := isGreatest_boundaryBelow source (middle - radius)
  have least := isLeast_boundaryAbove (Nat.min_le_right (middle + radius) size)
  have ordered : boundaryBelow source.toList (middle - radius) ≤
      boundaryAbove source.toList (min (middle + radius) size) := by
    have below : boundaryBelow source.toList (middle - radius) ≤ middle - radius := greatest.1.2
    have above := least.1.2
    omega
  obtain ⟨before, shown, after, split, starts, stops⟩ :=
    exists_cut greatest.1.1 least.1.1 ordered
  have text := toList_excerpt split starts stops
  rw [← starts] at greatest
  rw [← stops] at least
  obtain ⟨lines, single, same, spelled⟩ := exists_lines "\\n" shown
  refine ⟨before, shown, after, split, greatest, descent_of_isGreatest greatest, least,
    ascent_of_isLeast least, ⟨lines, single, same, ?_⟩, feed_not_mem_excerpt source offset radius⟩
  rw [← String.toList_inj, text, String.toList_append, String.toList_append, ← spelled,
    apply_ite String.toList, apply_ite String.toList]
  rfl

end TagTemplate.Text
