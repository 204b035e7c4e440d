import TagTemplate.Proofs.RawBody

/-!
The forest of the tags of a document.

Pairs do not cross, so that a range of segments which no pair leaves is a forest: the body
of a pair is such a range again, and so is what comes behind it.  The outline of a range
and its segments are read off its forest, and the body of a pair has the same forest when
its raw text is parsed alone.
-/

namespace TagTemplate

/-- The same name and parameter, maybe at another position. -/
structure Tag.SameText (tag copy : Tag) : Prop where
  name : tag.name = copy.name
  param : tag.param = copy.param

theorem Tag.SameText.refl (tag : Tag) : tag.SameText tag :=
  ⟨rfl, rfl⟩

theorem Tag.SameText.trans {tag middle copy : Tag} (first : tag.SameText middle)
    (second : middle.SameText copy) : tag.SameText copy :=
  ⟨first.name.trans second.name, first.param.trans second.param⟩

theorem Tag.SameText.text_eq {d : Delimiters} {tag copy : Tag} (same : tag.SameText copy) :
    (Segment.tag tag).text d = (Segment.tag copy).text d := by
  rw [Segment.text, Segment.text, same.name, same.param]

/-- What a range of segments consists of, from its first segment on. -/
inductive Forest where
  | nil
  | text (text : String) (rest : Forest)
  | dangling (tag : Tag) (rest : Forest)
  /-- an open tag without a body -/
  | single (index : Nat) (tag : Tag) (rest : Forest)
  | pair (index : Nat) (tag : Tag) (closer : Nat) (closeTag : Tag) (body rest : Forest)

namespace Forest

/-- What evaluation meets; the bodies of pairs are left to their tags. -/
def items : Forest → List Item
  | nil => []
  | text s rest => .text s :: rest.items
  | dangling tag rest => .dangling tag :: rest.items
  | single index tag rest => .call index tag none :: rest.items
  | pair index tag closer _ _ rest => .call index tag (some closer) :: rest.items

def segments : Forest → List Segment
  | nil => []
  | text s rest => .literal s :: rest.segments
  | dangling tag rest => .tag tag :: rest.segments
  | single _ tag rest => .tag tag :: rest.segments
  | pair _ tag _ closeTag body rest =>
    .tag tag :: (body.segments ++ .tag closeTag :: rest.segments)

/-- The positions of the open tags, in the order of the source. -/
def indices : Forest → List Nat
  | nil => []
  | text _ rest => rest.indices
  | dangling _ rest => rest.indices
  | single index _ rest => index :: rest.indices
  | pair index _ _ _ body rest => index :: (body.indices ++ rest.indices)

/-- The same tags and texts at other positions. -/
inductive Alike : Forest → Forest → Prop where
  | nil : Alike .nil .nil
  | text (s : String) {rest other : Forest} (behind : Alike rest other) :
      Alike (.text s rest) (.text s other)
  | dangling {tag copy : Tag} {rest other : Forest} (same : tag.SameText copy)
      (behind : Alike rest other) : Alike (.dangling tag rest) (.dangling copy other)
  | single {index place : Nat} {tag copy : Tag} {rest other : Forest} (same : tag.SameText copy)
      (behind : Alike rest other) : Alike (.single index tag rest) (.single place copy other)
  | pair {index place closer closing : Nat} {tag copy closeTag closeCopy : Tag}
      {body inner rest other : Forest} (same : tag.SameText copy) (inside : Alike body inner)
      (closeSame : closeTag.SameText closeCopy) (behind : Alike rest other) :
      Alike (.pair index tag closer closeTag body rest)
        (.pair place copy closing closeCopy inner other)

theorem Alike.refl (forest : Forest) : forest.Alike forest := by
  induction forest with
  | nil => exact .nil
  | text s rest ih => exact .text s ih
  | dangling tag rest ih => exact .dangling (.refl tag) ih
  | single index tag rest ih => exact .single (.refl tag) ih
  | pair index tag closer closeTag body rest inner outer =>
      exact .pair (.refl tag) inner (.refl closeTag) outer

theorem Alike.trans {forest middle copy : Forest} (first : forest.Alike middle)
    (second : middle.Alike copy) : forest.Alike copy := by
  induction first generalizing copy with
  | nil => exact second
  | text s behind ih =>
      cases second with
      | text _ behind => exact .text s (ih behind)
  | dangling same behind ih =>
      cases second with
      | dangling again behind => exact .dangling (same.trans again) (ih behind)
  | single same behind ih =>
      cases second with
      | single again behind => exact .single (same.trans again) (ih behind)
  | pair same inside closeSame behind inner outer =>
      cases second with
      | pair again within closeAgain behind =>
          exact .pair (same.trans again) (inner within) (closeSame.trans closeAgain)
            (outer behind)

theorem Alike.detokenize_eq {forest copy : Forest} (alike : forest.Alike copy)
    (d : Delimiters) : d.detokenize forest.segments = d.detokenize copy.segments := by
  suffices texts : forest.segments.map (Segment.text d) = copy.segments.map (Segment.text d) by
    rw [Delimiters.detokenize, texts, Delimiters.detokenize]
  induction alike with
  | nil => rfl
  | text s behind ih => simp [segments, ih]
  | dangling same behind ih | single same behind ih => simp [segments, ih, same.text_eq]
  | pair same inside closeSame behind inner outer =>
      simp [segments, inner, outer, same.text_eq, closeSame.text_eq]

end Forest

namespace Document

variable {document body : Document} {forest : Forest} {d : Delimiters}
  {start stop index first origin : Nat} {segment : Segment} {tag : Tag}

/-- The open tag at a position. -/
def openTag? (document : Document) (index : Nat) : Option Tag :=
  (document.tag? index).filter fun tag => !tag.isClose

/-- The range of segments from `start` to `stop` consists of a forest. -/
inductive Forms (document : Document) : Nat → Nat → Forest → Prop where
  | nil (here : Nat) : Forms document here here .nil
  | text {start stop : Nat} {s : String} {rest : Forest}
      (found : document.segments[start]? = some (.literal s))
      (behind : Forms document (start + 1) stop rest) : Forms document start stop (.text s rest)
  | dangling {start stop : Nat} {tag : Tag} {rest : Forest}
      (found : document.segments[start]? = some (.tag tag)) (unnamed : tag.isClose = true)
      (role : document.role? start = some .dangling)
      (behind : Forms document (start + 1) stop rest) :
      Forms document start stop (.dangling tag rest)
  | single {start stop : Nat} {tag : Tag} {rest : Forest}
      (found : document.segments[start]? = some (.tag tag)) (named : tag.isClose = false)
      (role : document.role? start = some .selfClosed)
      (behind : Forms document (start + 1) stop rest) :
      Forms document start stop (.single start tag rest)
  | pair {start stop closer : Nat} {tag closeTag : Tag} {inner rest : Forest}
      (found : document.segments[start]? = some (.tag tag)) (named : tag.isClose = false)
      (role : document.role? start = some (.closedAt closer))
      (inside : Forms document (start + 1) closer inner)
      (closeFound : document.segments[closer]? = some (.tag closeTag))
      (unnamed : closeTag.isClose = true)
      (behind : Forms document (closer + 1) stop rest) :
      Forms document start stop (.pair start tag closer closeTag inner rest)

/-- No pair lies partly in a range. -/
def Closed (document : Document) (start stop : Nat) : Prop :=
  ∀ opener closer, document.role? opener = some (.closedAt closer) →
    (start ≤ opener ∧ opener < stop ↔ start ≤ closer ∧ closer < stop)

theorem openTag?_eq_some_iff :
    document.openTag? index = some tag ↔
      document.segments[index]? = some (.tag tag) ∧ tag.isClose = false := by
  rw [openTag?, Option.filter_eq_some_iff, tag?, Option.bind_eq_some_iff]
  constructor
  · rintro ⟨⟨segment, found, isTag⟩, named⟩
    cases segment <;> cases isTag
    exact ⟨found, by simpa using named⟩
  · rintro ⟨found, named⟩
    exact ⟨⟨_, found, rfl⟩, by simpa using named⟩

theorem lt_size_of_openTag? (found : document.openTag? index = some tag) :
    index < document.size :=
  (Array.getElem?_eq_some_iff.mp (openTag?_eq_some_iff.mp found).1).1

section Existence

variable {closer : Nat} {role : Role}

theorem Closed.skip (closed : document.Closed start stop)
    (unpaired : ∀ role, document.role? start = some role →
      role = .selfClosed ∨ role = .dangling)
    (partner : ∀ {opener closer}, document.role? opener = some (.closedAt closer) →
      document.role? closer = some (.closes opener)) :
    document.Closed (start + 1) stop := by
  intro opener closer paired
  have opens : opener ≠ start := by
    rintro rfl
    rcases unpaired _ paired with wrong | wrong <;> cases wrong
  have closes : closer ≠ start := by
    rintro rfl
    rcases unpaired _ (partner paired) with wrong | wrong <;> cases wrong
  have both := closed opener closer paired
  omega

variable (nested : Pairing.Nested document.segments.toList document.roles)

include nested

theorem Closed.inside (closed : document.Closed start stop) (starts : start < stop)
    (paired : document.role? start = some (.closedAt closer)) :
    document.Closed (start + 1) closer ∧ document.Closed (closer + 1) stop := by
  have opens := role?_eq_some_iff.mp paired
  have outer := (nested.matched opens).1
  have reach := closed start closer paired
  constructor <;> intro inner innerCloser innerPaired <;>
    have innerOpens := role?_eq_some_iff.mp innerPaired
  all_goals
    have before := (nested.matched innerOpens).1
    have within := closed inner innerCloser innerPaired
    have same : inner = start → innerCloser = closer := by
      rintro rfl
      rw [paired] at innerPaired
      cases innerPaired
      rfl
    have noncrossing := nested.noncrossing opens innerOpens
    have closesOnce : innerCloser = closer → inner = start := by
      rintro rfl
      have one := nested.partner.mp opens
      have two := nested.partner.mp innerOpens
      rw [Pairing.RoleAt, one] at two
      cases two
      rfl
    omega

theorem exists_forms (closed : document.Closed start stop) (le : start ≤ stop)
    (bound : stop ≤ document.size) : ∃ forest, document.Forms start stop forest := by
  induction length : stop - start using Nat.strong_induction_on generalizing start stop with
  | _ length ih =>
      subst length
      rcases Nat.eq_or_lt_of_le le with rfl | starts
      · exact ⟨.nil, .nil start⟩
      have partner : ∀ {opener closer}, document.role? opener = some (.closedAt closer) →
          document.role? closer = some (.closes opener) := by
        intro opener closer paired
        exact role?_eq_some_iff.mpr (nested.partner.mp (role?_eq_some_iff.mp paired))
      have inRange : start < document.segments.size := Nat.lt_of_lt_of_le starts bound
      have found : document.segments[start]? = some document.segments[start] :=
        Array.getElem?_eq_getElem inRange
      have listed : document.segments.toList[start]? = some document.segments[start] := by
        rw [Array.getElem?_toList, found]
      -- a segment that belongs to no pair is followed by a shorter range
      have behind : ∀ (_ : ∀ role, document.role? start = some role →
          role = .selfClosed ∨ role = .dangling),
          ∃ rest, document.Forms (start + 1) stop rest :=
        fun unpaired => ih _ (by omega) (closed.skip unpaired partner) starts bound rfl
      cases segment : document.segments[start] with
      | literal s =>
          rw [segment] at found listed
          have none : document.role? start = none := by simp [role?, nested.literal listed]
          obtain ⟨rest, forms⟩ := behind (by simp [none])
          exact ⟨_, .text found forms⟩
      | tag tag =>
          rw [segment] at found listed
          cases named : tag.isClose with
          | true =>
              rcases nested.closer listed named with dangles | ⟨opener, closes⟩
              · have role := role?_eq_some_iff.mpr dangles
                obtain ⟨rest, forms⟩ := behind (by simp [role])
                exact ⟨_, .dangling found named role forms⟩
              · -- its open tag would lie in front of the range
                have opens := nested.partner.mpr closes
                have before := (nested.matched opens).1
                have within := closed opener start (role?_eq_some_iff.mpr opens)
                omega
          | false =>
              rcases nested.opener listed named with closesItself | ⟨closer, opens⟩
              · have role := role?_eq_some_iff.mpr closesItself
                obtain ⟨rest, forms⟩ := behind (by simp [role])
                exact ⟨_, .single found named role forms⟩
              · have role := role?_eq_some_iff.mpr opens
                obtain ⟨before, _, closeTag, _, closeFound, _, unnamed, _⟩ := nested.matched opens
                rw [Array.getElem?_toList] at closeFound
                have within := closed start closer role
                obtain ⟨inside, outside⟩ := closed.inside nested starts role
                obtain ⟨inner, formsInner⟩ := ih _ (by omega) inside before (by omega) rfl
                obtain ⟨rest, formsRest⟩ := ih _ (by omega) outside (by omega) bound rfl
                exact ⟨_, .pair found named role formsInner closeFound unnamed formsRest⟩

end Existence

theorem exists_forest {source : String} (parsed : parse d source = .ok document) :
    ∃ forest, document.Forms 0 document.size forest := by
  obtain ⟨_, _, accepted⟩ := parse_eq_ok_iff.mp parsed
  have nested := Pairing.nested_of_pairTags accepted
  refine exists_forms nested ?_ (Nat.zero_le _) (Nat.le_refl _)
  intro opener closer paired
  have opens := role?_eq_some_iff.mp paired
  have size : document.roles.size = document.size := nested.size
  have first := opens.lt_size
  have last := (nested.partner.mp opens).lt_size
  omega

namespace Forms

theorem le (forms : document.Forms start stop forest) : start ≤ stop := by
  induction forms with
  | nil here => exact Nat.le_refl here
  | pair _ _ _ _ _ _ _ inner outer => omega
  | _ => omega

theorem indices_bound (forms : document.Forms start stop forest) :
    ∀ index ∈ forest.indices, start ≤ index ∧ index < stop := by
  induction forms with
  | nil here => simp [Forest.indices]
  | text found behind ih | dangling found unnamed role behind ih =>
      intro index member
      have bound := ih index member
      omega
  | single found named role behind ih =>
      intro index member
      have reach := behind.le
      rcases List.mem_cons.mp member with rfl | member
      · omega
      · have bound := ih index member
        omega
  | pair found named role inside closeFound unnamed behind inner outer =>
      intro index member
      have reachInside := inside.le
      have reachBehind := behind.le
      rcases List.mem_cons.mp member with rfl | member
      · omega
      rcases List.mem_append.mp member with within | beyond
      · have bound := inner index within
        omega
      · have bound := outer index beyond
        omega

theorem indices_increasing (forms : document.Forms start stop forest) :
    forest.indices.Pairwise (· < ·) := by
  induction forms with
  | nil here => exact .nil
  | text found behind ih | dangling found unnamed role behind ih => exact ih
  | single found named role behind ih =>
      refine .cons ?_ ih
      intro index member
      exact (behind.indices_bound index member).1
  | pair found named role inside closeFound unnamed behind inner outer =>
      have reach := inside.le
      refine .cons ?_ (List.pairwise_append.mpr ⟨inner, outer, ?_⟩)
      · intro index member
        rcases List.mem_append.mp member with within | beyond
        · exact (inside.indices_bound index within).1
        · have bound := behind.indices_bound index beyond
          omega
      · intro earlier within later beyond
        have before := inside.indices_bound earlier within
        have after := behind.indices_bound later beyond
        omega

theorem indices_nodup (forms : document.Forms start stop forest) : forest.indices.Nodup :=
  forms.indices_increasing.imp fun less => Nat.ne_of_lt less

theorem mem_indices_iff (forms : document.Forms start stop forest) :
    index ∈ forest.indices ↔
      start ≤ index ∧ index < stop ∧ ∃ tag, document.openTag? index = some tag := by
  induction forms with
  | nil here =>
      simp only [Forest.indices, List.not_mem_nil, false_iff]
      omega
  | @text start stop s rest found behind ih =>
      have closed : document.openTag? start = none := by simp [openTag?, tag?, found, Segment.tag?]
      have reach := behind.le
      rw [Forest.indices, ih]
      by_cases here : index = start
      · subst here
        simp [closed]
      · grind
  | @dangling start stop tag rest found unnamed role behind ih =>
      have closed : document.openTag? start = none := by
        simp [openTag?, tag?, found, Segment.tag?, unnamed]
      rw [Forest.indices, ih]
      by_cases here : index = start
      · subst here
        simp [closed]
      · grind
  | @single start stop tag rest found named role behind ih =>
      have opens : document.openTag? start = some tag := openTag?_eq_some_iff.mpr ⟨found, named⟩
      have reach := behind.le
      rw [Forest.indices, List.mem_cons, ih]
      grind
  | @pair start stop closer tag closeTag inner rest found named role inside closeFound unnamed
      behind ihInner ihRest =>
      have opens : document.openTag? start = some tag := openTag?_eq_some_iff.mpr ⟨found, named⟩
      have closed : document.openTag? closer = none := by
        simp [openTag?, tag?, closeFound, Segment.tag?, unnamed]
      have reachInside := inside.le
      have reachBehind := behind.le
      rw [Forest.indices, List.mem_cons, List.mem_append, ihInner, ihRest]
      by_cases here : index = closer
      · subst here
        grind
      · grind

end Forms

/-- The body that evaluation meets at a position. -/
inductive Encloses (document : Document) (index : Nat) : Option Nat → Option Forest → Prop where
  | nothing : Encloses document index none none
  | body {closer : Nat} {forest : Forest} (forms : document.Forms (index + 1) closer forest) :
      Encloses document index (some closer) (some forest)

theorem Encloses.isSome_eq {closer : Option Nat} {inside : Option Forest}
    (encloses : document.Encloses index closer inside) : inside.isSome = closer.isSome := by
  cases encloses <;> rfl

theorem range_eq_cons (found : document.segments[start]? = some segment) (before : start < stop) :
    document.range start stop = segment :: document.range (start + 1) stop := by
  rw [← Array.getElem?_toList] at found
  obtain ⟨bound, rfl⟩ := List.getElem?_eq_some_iff.mp found
  have inside : start < (document.segments.toList.take stop).length := by
    rw [List.length_take]
    omega
  rw [range, List.drop_eq_getElem_cons inside, range]
  simp

theorem range_eq_append {middle : Nat} (first : start ≤ middle) (second : middle ≤ stop) :
    document.range start stop = document.range start middle ++ document.range middle stop := by
  have lengths : stop - start = (middle - start) + (stop - middle) := by omega
  have place : start + (middle - start) = middle := by omega
  simp only [range, List.drop_take]
  rw [lengths, List.take_add, List.drop_drop, place]

theorem range_self (here : Nat) : document.range here here = [] :=
  List.drop_eq_nil_of_le (List.length_take_le _ _)

theorem outlineFrom_of_le {resume : Nat} (le : resume ≤ index) (segments : List Segment) :
    document.outlineFrom index resume segments = document.outlineFrom index index segments := by
  induction segments generalizing index resume with
  | nil => rfl
  | cons segment rest ih =>
      have here := ih (Nat.le_succ index)
      have earlier := ih (Nat.le_succ_of_le le)
      simp only [outlineFrom, if_neg (Nat.not_lt.mpr le), Nat.lt_irrefl, if_false, here, earlier]

/-- A body that is left to its tag is passed over. -/
theorem outlineFrom_skip {resume : Nat} (le : index ≤ resume) :
    document.outlineFrom index resume (document.range index stop) =
      document.outline resume stop := by
  induction distance : resume - index generalizing index with
  | zero =>
      cases (by omega : index = resume)
      rfl
  | succ distance ih =>
      have before : index < resume := by omega
      rw [← ih (by omega : index + 1 ≤ resume) (by omega)]
      cases found : document.range index stop with
      | nil =>
          have beyond : document.range (index + 1) stop = [] := by
            rw [range, List.drop_eq_nil_iff] at found ⊢
            omega
          rw [beyond]
          rfl
      | cons segment rest =>
          have behind : document.range (index + 1) stop = rest := by
            rw [range, ← List.tail_drop, ← range, found]
            rfl
          rw [behind]
          simp only [outlineFrom, if_pos before]

namespace Forms

theorem range_eq (forms : document.Forms start stop forest) :
    document.range start stop = forest.segments := by
  induction forms with
  | nil here => exact range_self here
  | text found behind ih | dangling found unnamed role behind ih
  | single found named role behind ih =>
      rw [range_eq_cons found behind.le, ih]
      rfl
  | pair found named role inside closeFound unnamed behind inner outer =>
      have reachInside := inside.le
      have reachBehind := behind.le
      rw [range_eq_cons found (by omega), range_eq_append inside.le (by omega),
        range_eq_cons closeFound behind.le, inner, outer]
      rfl

theorem raw_eq (forms : document.Forms start stop forest) :
    document.raw d start stop = d.detokenize forest.segments := by
  rw [raw, forms.range_eq]

theorem raw_eq_raw {copy : Document} {place last : Nat} {other : Forest}
    (forms : document.Forms start stop forest) (copied : copy.Forms place last other)
    (alike : forest.Alike other) (d : Delimiters) :
    document.raw d start stop = copy.raw d place last := by
  rw [forms.raw_eq, copied.raw_eq, alike.detokenize_eq]

/-- Evaluation meets what lies in a range outside the bodies of its pairs. -/
theorem outline_eq (forms : document.Forms start stop forest) :
    document.outline start stop = forest.items := by
  induction forms with
  | nil here => simp [outline, range_self, outlineFrom, Forest.items]
  | text found behind ih =>
      rw [outline, range_eq_cons found behind.le, Forest.items, ← ih]
      simp [outlineFrom, outlineFrom_of_le (Nat.le_succ _), outline]
  | dangling found unnamed role behind ih =>
      rw [outline, range_eq_cons found behind.le, Forest.items, ← ih]
      simp [outlineFrom, outlineFrom_of_le (Nat.le_succ _), outline, role]
  | single found named role behind ih =>
      rw [outline, range_eq_cons found behind.le, Forest.items, ← ih]
      simp [outlineFrom, outlineFrom_of_le (Nat.le_succ _), outline, role]
  | pair found named role inside closeFound unnamed behind inner outer =>
      have reach := inside.le
      have before := behind.le
      rw [outline, range_eq_cons found (by omega), Forest.items, ← outer,
        ← outlineFrom_skip (Nat.le_succ_of_le reach)]
      simp [outlineFrom, role]

theorem start_add_length (forms : document.Forms start stop forest) :
    start + forest.segments.length = stop := by
  induction forms with
  | nil here => rfl
  | text | dangling | single =>
      rename_i ih
      simp only [Forest.segments, List.length_cons]
      omega
  | pair found named role inside closeFound unnamed behind inner outer =>
      simp only [Forest.segments, List.length_cons, List.length_append]
      omega

end Forms

section Reread

theorem IsBody.segment_eq (isBody : document.IsBody first stop origin body)
    (bound : index < body.size) :
    document.segments[first + index]? = body.segments[index]?.map (Segment.shift origin) := by
  have listed : index < (document.range first stop).length := by
    rw [← isBody.segments, List.length_map]
    exact bound
  have before : first + index < stop := by
    rw [range, List.length_drop, List.length_take] at listed
    omega
  rw [← Array.getElem?_toList, ← Array.getElem?_toList, ← List.getElem?_map, isBody.segments,
    range, List.getElem?_drop, List.getElem?_take_of_lt before]

/-- The tag of a body at the position of a tag in its place. -/
theorem IsBody.exists_tag (isBody : document.IsBody first stop origin body) (bound : index < body.size)
    (found : document.segments[first + index]? = some (.tag tag)) :
    ∃ copy, body.segments[index]? = some (.tag copy) ∧ tag.SameText copy := by
  rw [isBody.segment_eq bound] at found
  obtain ⟨segment, listed, shifted⟩ := Option.map_eq_some_iff.mp found
  cases segment with
  | literal s => cases shifted
  | tag copy =>
      cases shifted
      exact ⟨copy, listed, rfl, rfl⟩

theorem IsBody.exists_role (isBody : document.IsBody first stop origin body) (bound : index < body.size)
    {role : Role} (given : document.role? (first + index) = some role) :
    ∃ own, body.role? index = some own ∧ own.shift first = role := by
  rw [isBody.roles index bound] at given
  exact Option.map_eq_some_iff.mp given

/-- A body consists of what it consists of in its place. -/
theorem IsBody.exists_forms (isBody : document.IsBody first stop origin body) {finish : Nat}
    (forms : document.Forms start finish forest) (place : start = first + index)
    (bound : finish ≤ first + body.size) :
    ∃ copy, body.Forms index (finish - first) copy ∧ forest.Alike copy := by
  induction forms generalizing index with
  | nil here =>
      subst place
      rw [Nat.add_sub_cancel_left]
      exact ⟨.nil, .nil index, .nil⟩
  | text found behind ih =>
      have reach := behind.le
      have inside : index < body.size := by omega
      obtain ⟨copy, forms, alike⟩ := ih (by omega : _ = first + (index + 1)) bound
      rw [place, isBody.segment_eq inside] at found
      obtain ⟨segment, listed, shifted⟩ := Option.map_eq_some_iff.mp found
      cases segment with
      | tag tag => cases shifted
      | literal s =>
          cases shifted
          exact ⟨_, .text listed forms, .text _ alike⟩
  | dangling found unnamed role behind ih =>
      have reach := behind.le
      have inside : index < body.size := by omega
      obtain ⟨copy, forms, alike⟩ := ih (by omega : _ = first + (index + 1)) bound
      rw [place] at found role
      obtain ⟨tag, listed, same⟩ := isBody.exists_tag inside found
      obtain ⟨own, given, shifted⟩ := isBody.exists_role inside role
      cases own <;> cases shifted
      exact ⟨_, .dangling listed (by rwa [Tag.isClose, ← same.name]) given forms,
        .dangling same alike⟩
  | single found named role behind ih =>
      have reach := behind.le
      have inside : index < body.size := by omega
      obtain ⟨copy, forms, alike⟩ := ih (by omega : _ = first + (index + 1)) bound
      rw [place] at found role
      obtain ⟨tag, listed, same⟩ := isBody.exists_tag inside found
      obtain ⟨own, given, shifted⟩ := isBody.exists_role inside role
      cases own <;> cases shifted
      exact ⟨_, .single listed (by rwa [Tag.isClose, ← same.name]) given forms,
        .single same alike⟩
  | @pair start finish closer tag closeTag inner rest found named role within closeFound unnamed
      behind ihInner ihRest =>
      have reachWithin := within.le
      have reachBehind := behind.le
      have inside : index < body.size := by omega
      rw [place] at found role
      obtain ⟨copy, listed, same⟩ := isBody.exists_tag inside found
      obtain ⟨own, given, shifted⟩ := isBody.exists_role inside role
      cases own with
      | selfClosed | dangling | closes | unresolved => cases shifted
      | closedAt closing =>
          cases shifted
          have closeInside : closing < body.size := by omega
          obtain ⟨closeCopy, closeListed, closeSame⟩ := isBody.exists_tag closeInside closeFound
          obtain ⟨innerCopy, innerForms, innerAlike⟩ :=
            ihInner (by omega : _ = first + (index + 1)) (by omega)
          obtain ⟨restCopy, restForms, restAlike⟩ :=
            ihRest (by omega : _ = first + (closing + 1)) bound
          rw [Nat.add_sub_cancel_left] at innerForms
          exact ⟨_, .pair listed (by rwa [Tag.isClose, ← same.name]) given innerForms closeListed
            (by rwa [Tag.isClose, ← closeSame.name]) restForms,
            .pair same innerAlike closeSame restAlike⟩

/-- The raw text of the body of a pair is parsed to the forest that the body is. -/
theorem parse_raw_forms (delimiting : d.Delimiting) {source : String} {closer : Nat}
    (parsed : parse d source = .ok document)
    (paired : document.role? index = some (.closedAt closer))
    (forms : document.Forms (index + 1) closer forest) :
    ∃ body copy, parse d (document.raw d (index + 1) closer) = .ok body ∧
      body.Forms 0 body.size copy ∧ forest.Alike copy := by
  obtain ⟨openTag, body, _, parsedBody, isBody⟩ := parse_raw delimiting parsed paired
  have size : body.size = forest.segments.length := by
    have listed := congrArg List.length (isBody.segments.trans forms.range_eq)
    rwa [List.length_map] at listed
  have reach := forms.start_add_length
  obtain ⟨copy, copied, alike⟩ := isBody.exists_forms forms (Nat.add_zero _).symm (by omega)
  have stop : closer - (index + 1) = body.size := by omega
  rw [stop] at copied
  exact ⟨body, copy, parsedBody, copied, alike⟩

/-- What a text is parsed to, or what is loaded in its place at first. -/
def IsParsed (d : Delimiters) (document : Document) : Prop :=
  document = .empty ∨ ∃ source, parse d source = .ok document

theorem IsParsed.exists_forest (parsed : document.IsParsed d) :
    ∃ forest, document.Forms 0 document.size forest := by
  rcases parsed with rfl | ⟨source, parsed⟩
  · exact ⟨.nil, .nil 0⟩
  · exact Document.exists_forest parsed

theorem IsParsed.nested (parsed : document.IsParsed d) :
    Pairing.Nested document.segments.toList document.roles := by
  rcases parsed with rfl | ⟨source, parsed⟩
  · have accepted : Pairing.pairTags #[] d = .ok #[] := Pairing.pairTags_of_run #[] d rfl
    exact Pairing.nested_of_pairTags accepted
  · obtain ⟨_, _, accepted⟩ := parse_eq_ok_iff.mp parsed
    exact Pairing.nested_of_pairTags accepted

theorem IsParsed.parse_raw (parsed : document.IsParsed d) (delimiting : d.Delimiting)
    {index closer : Nat} {forest : Forest}
    (paired : document.role? index = some (.closedAt closer))
    (forms : document.Forms (index + 1) closer forest) :
    ∃ body copy, parse d (document.raw d (index + 1) closer) = .ok body ∧
      body.Forms 0 body.size copy ∧ forest.Alike copy := by
  rcases parsed with rfl | ⟨source, parsed⟩
  · cases paired
  · exact parse_raw_forms delimiting parsed paired forms

end Reread

end Document

end TagTemplate
