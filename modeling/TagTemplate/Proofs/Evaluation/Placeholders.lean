import Mathlib.Data.Nat.Find
import TagTemplate.Proofs.Evaluation.Balance
import TagTemplate.Proofs.Forest
import TagTemplate.Proofs.Pairing.Placeholders

/-!
Placeholders in an evaluation.

A range of segments that is evaluated is the whole document or the body of a pair.  A
placeholder dangles, so that it splits the outline of the innermost range around it, and
where dangling tags are kept it is written between what the two sides give.
-/

namespace TagTemplate

variable {d : Delimiters} {document : Document} {forest : Forest} {tag : Tag}
  {start stop index : Nat}

namespace Document

/-- The ranges that are evaluated on a level of their own. -/
inductive Region (document : Document) : Nat → Nat → Prop where
  | whole : Region document 0 document.size
  | body {opener closer : Nat} (paired : document.role? opener = some (.closedAt closer)) :
      Region document (opener + 1) closer

/-- A position that lies in a region, and in no body inside it. -/
structure Directly (document : Document) (start stop index : Nat) : Prop where
  region : document.Region start stop
  first : start ≤ index
  last : index < stop
  outside : ∀ {opener closer}, document.role? opener = some (.closedAt closer) →
    start ≤ opener → opener < index → closer ≤ index

section

variable (nested : Pairing.Nested document.segments.toList document.roles)

include nested

theorem Region.closed (region : document.Region start stop) :
    document.Closed start stop ∧ start ≤ stop ∧ stop ≤ document.size := by
  have size : document.roles.size = document.size := nested.size
  cases region with
  | whole =>
      refine ⟨?_, Nat.zero_le _, Nat.le_refl _⟩
      intro opener closer paired
      have opens := role?_eq_some_iff.mp paired
      have first := opens.lt_size
      have last := (nested.partner.mp opens).lt_size
      omega
  | @body outer _ given =>
      have outerOpens := role?_eq_some_iff.mp given
      have before := (nested.matched outerOpens).1
      have bound := (nested.partner.mp outerOpens).lt_size
      refine ⟨?_, before, by omega⟩
      intro opener closer paired
      have opens := role?_eq_some_iff.mp paired
      have inside := (nested.matched opens).1
      rcases Nat.lt_trichotomy opener outer with left | rfl | right
      · have apart := nested.noncrossing opens outerOpens left
        omega
      · rw [given] at paired
        cases paired
        omega
      · have apart := nested.noncrossing outerOpens opens right
        omega

/-- Every dangling tag lies directly in a region: the body of the innermost pair around
it, or else the document. -/
theorem exists_directly (role : document.role? index = some .dangling) :
    ∃ start stop, document.Directly start stop index := by
  have size : document.roles.size = document.size := nested.size
  have bound := (role?_eq_some_iff.mp role).lt_size
  let Around (opener : Nat) : Prop :=
    ∃ closer, document.role? opener = some (.closedAt closer) ∧ opener < index ∧ index < closer
  classical
  by_cases surrounded : ∃ opener, Around opener
  · obtain ⟨opener, around⟩ := surrounded
    have reach : opener ≤ index := by
      obtain ⟨_, _, before, _⟩ := around
      omega
    obtain ⟨closer, paired, before, behind⟩ := Nat.findGreatest_spec reach around
    refine ⟨_, closer, .body paired, before, behind, ?_⟩
    intro inner innerCloser innerPaired after inFront
    by_contra still
    have innermost := Nat.le_findGreatest (P := Around) (Nat.le_of_lt inFront)
      ⟨innerCloser, innerPaired, inFront, by omega⟩
    omega
  · refine ⟨0, document.size, .whole, Nat.zero_le _, by omega, ?_⟩
    intro opener closer paired _ before
    by_contra still
    exact surrounded ⟨opener, closer, paired, before, by omega⟩

/-- A dangling tag splits the forest of a range in which no body holds it. -/
theorem Forms.split_at_dangling (forms : document.Forms start stop forest)
    (found : document.segments[index]? = some (.tag tag))
    (role : document.role? index = some .dangling) (first : start ≤ index) (last : index < stop)
    (outside : ∀ {opener closer}, document.role? opener = some (.closedAt closer) →
      start ≤ opener → opener < index → closer ≤ index) :
    ∃ before behind, document.Forms start index before ∧ document.Forms (index + 1) stop behind ∧
      forest.items = before.items ++ .dangling tag :: behind.items := by
  induction forms with
  | nil here => omega
  | @text start stop s rest literal behind ih =>
      rcases Nat.eq_or_lt_of_le first with rfl | later
      · rw [found] at literal
        cases literal
      · obtain ⟨left, right, formsLeft, formsRight, same⟩ := ih later last
          fun paired inRange => outside paired (by omega)
        exact ⟨_, right, .text literal formsLeft, formsRight, by simp [Forest.items, same]⟩
  | @dangling start stop other rest otherFound unnamed otherRole behind ih =>
      rcases Nat.eq_or_lt_of_le first with rfl | later
      · rw [found] at otherFound
        cases otherFound
        exact ⟨.nil, rest, .nil start, behind, rfl⟩
      · obtain ⟨left, right, formsLeft, formsRight, same⟩ := ih later last
          fun paired inRange => outside paired (by omega)
        exact ⟨_, right, .dangling otherFound unnamed otherRole formsLeft, formsRight,
          by simp [Forest.items, same]⟩
  | @single start stop other rest otherFound named otherRole behind ih =>
      rcases Nat.eq_or_lt_of_le first with rfl | later
      · rw [role] at otherRole
        cases otherRole
      · obtain ⟨left, right, formsLeft, formsRight, same⟩ := ih later last
          fun paired inRange => outside paired (by omega)
        exact ⟨_, right, .single otherFound named otherRole formsLeft, formsRight,
          by simp [Forest.items, same]⟩
  | @pair start stop closer other closeTag inner rest otherFound named otherRole inside closeFound
      unnamed behind _ ih =>
      have reach := inside.le
      -- the tag stands behind the whole pair, since it is none of its two tags
      have later : closer + 1 ≤ index := by
        have opens := nested.partner.mp (role?_eq_some_iff.mp otherRole)
        have notOpener : index ≠ start := by
          rintro rfl
          rw [role] at otherRole
          cases otherRole
        have notCloser : index ≠ closer :=
          (role?_eq_some_iff.mp role).ne_of_roleAt opens (by simp)
        have beyond := outside otherRole (Nat.le_refl _) (by omega)
        omega
      obtain ⟨left, right, formsLeft, formsRight, same⟩ := ih later last
        fun paired inRange => outside paired (by omega)
      exact ⟨_, right, .pair otherFound named otherRole inside closeFound unnamed formsLeft,
        formsRight, by simp [Forest.items, same]⟩

theorem Directly.outline_eq (directly : document.Directly start stop index)
    (found : document.segments[index]? = some (.tag tag))
    (role : document.role? index = some .dangling) :
    document.outline start stop =
      document.outline start index ++ .dangling tag :: document.outline (index + 1) stop := by
  obtain ⟨closed, le, bound⟩ := directly.region.closed nested
  obtain ⟨forest, forms⟩ := exists_forms nested closed le bound
  obtain ⟨before, behind, formsBefore, formsBehind, same⟩ :=
    forms.split_at_dangling nested found role directly.first directly.last directly.outside
  rw [forms.outline_eq, formsBefore.outline_eq, formsBehind.outline_eq, same]

end

end Document

namespace Evaluation

variable {level : Level} {levels : Nat} {engine : Engine}

theorem items_append (level : Level) (document : Document) (first rest : List Item) :
    items level document (first ++ rest) = (do
      let before ← items level document first
      let behind ← items level document rest
      return before ++ behind) := by
  induction first with
  | nil => simp only [List.nil_append, items, pure_bind, String.empty_append, bind_pure]
  | cons item first ih =>
      simp only [List.cons_append, items, ih, bind_assoc, pure_bind, String.append_assoc]

/-- A dangling tag that is kept stands as it is written between what the items on both
sides give. -/
theorem on_items_kept (document : Document) (before behind : List Item) (tag : Tag)
    (kept : engine.settings.danglingEnd = .keep) :
    (items (range levels) document (before ++ .dangling tag :: behind)).on engine =
      Evaluation.on (do
        let left ← items (range levels) document before
        let right ← items (range levels) document behind
        return left ++ engine.settings.delimiters.wrap tag.name tag.param ++ right) engine := by
  rw [items_append, on_bind, on_bind]
  rcases evaluated : (items (range levels) document before).on engine with ⟨_ | left, middle⟩
  · rfl
  have same : middle.settings = engine.settings :=
    ((hasEffect_range levels).items document before _ _ _ evaluated).scope_eq.1
  have written : (item (range levels) document (.dangling tag)).on middle =
      (.ok (engine.settings.delimiters.wrap tag.name tag.param), middle) := by
    rw [on_dangling, Settings.danglingText, same, kept]
  rw [proceed_ok, proceed_ok, on_bind, on_bind, on_items_cons written]
  rcases (items (range levels) document behind).on middle with ⟨_ | right, after⟩
  · rfl
  · simp [Except.map, String.append_assoc]

end Evaluation

open Evaluation (enter leave items range)
open Pairing (pairTags withoutPlaceholders)
open TagTemplate.Text (IsSlice)

/-- The engine of tags does not see placeholders.  Literals in their place change neither
whether the tags of a text can be paired nor the role of anything else; in a text that is
parsed each placeholder dangles, and where dangling tags are kept, the innermost range
around it gives the text of the placeholder between what its other items give. -/
theorem placeholders_apart (delimiting : d.Delimiting) (text : String) :
    (pairTags ((d.tokenize text).toArray.map (Segment.inert d)) d).toOption =
      (pairTags (d.tokenize text).toArray d).toOption.map
        (withoutPlaceholders (d.tokenize text)) ∧
    ∀ document, Document.parse d text = .ok document → ∀ (index : Nat) tag,
      document.segments[index]? = some (.tag tag) → tag.isPlaceholder = true →
        document.role? index = some .dangling ∧
        IsSlice text tag.start tag.stop (d.wrap tag.name tag.param) ∧
        (∃ start stop, document.Directly start stop index) ∧
        ∀ start stop, document.Directly start stop index → ∀ (engine : Engine) levels,
          engine.settings.delimiters = d → engine.settings.danglingEnd = .keep →
          (range (levels + 1) document start stop).on engine =
            Evaluation.on (EngineT.between enter leave do
              let before ← items (range levels) document (document.outline start index)
              let behind ← items (range levels) document (document.outline (index + 1) stop)
              return before ++ d.wrap tag.name tag.param ++ behind) engine := by
  have plain : ∀ tag, .tag tag ∈ d.tokenize text → '=' ∉ tag.name.toList :=
    fun _ member => delimiting.equals_not_mem_name member
  refine ⟨Pairing.toOption_pairTags_inert d plain, ?_⟩
  intro document parsed index tag found placeholder
  obtain ⟨_, segments, accepted⟩ := Document.parse_eq_ok_iff.mp parsed
  have nested := Pairing.nested_of_pairTags accepted
  have listed : document.segments.toList = d.tokenize text := by rw [segments]
  have inText : (d.tokenize text)[index]? = some (.tag tag) := by
    rw [← listed, Array.getElem?_toList, found]
  have role : document.role? index = some .dangling := by
    refine Document.role?_eq_some_iff.mpr (nested.dangling_of_placeholder ?_ ?_ placeholder)
    · rw [listed]
      exact plain
    · rw [listed]
      exact inText
  refine ⟨role, ((delimiting.lossless text).spans inText).2,
    Document.exists_directly nested role, ?_⟩
  intro start stop directly engine levels same kept
  have entered : (enter engine).settings.delimiters = d := same
  have written := @Evaluation.on_items_kept levels (enter engine) document
    (document.outline start index) (document.outline (index + 1) stop) tag kept
  rw [entered] at written
  rw [range, directly.outline_eq nested found role, Evaluation.on_between, Evaluation.on_between,
    written]

/-- A placeholder in the body of a pair, in front of a close tag that it must not hide. -/
theorem placeholders_apart_body :
    Delimiters.default.Delimiting ∧
      ∃ document, Document.parse .default "\x7ba:\x7d1\x7b:=x\x7d2\x7b:a\x7d" = .ok document ∧
        (pairTags ((Delimiters.default.tokenize document.source).toArray.map
          (Segment.inert .default)) .default).toOption =
          some #[none, some (.closedAt 5), none, none, none, some (.closes 1), none] ∧
        document.Directly 2 5 3 ∧
        ((range 1 document 2 5).on (Engine.shallow (.empty ":"))).1 = .ok "1\x7b:=x\x7d2" := by
  have delimiting : Delimiters.default.Delimiting := .of_validate (by decide)
  let document : Document := ⟨"\x7ba:\x7d1\x7b:=x\x7d2\x7b:a\x7d",
    #[.literal "", .tag ⟨"a", "", 0, 4⟩, .literal "1", .tag ⟨"", "=x", 5, 10⟩, .literal "2",
      .tag ⟨"", "a", 11, 15⟩, .literal ""],
    #[none, some (.closedAt 5), none, some .dangling, none, some (.closes 1), none]⟩
  have parsed : Document.parse .default document.source = .ok document := by decide +kernel
  obtain ⟨paired, emitted⟩ := placeholders_apart delimiting document.source
  obtain ⟨_, _, _, written⟩ := emitted document parsed 3 ⟨"", "=x", 5, 10⟩ rfl (by decide)
  have directly : document.Directly 2 5 3 := by
    have pair : document.role? 1 = some (.closedAt 5) := rfl
    refine ⟨.body pair, by decide, by decide, ?_⟩
    intro opener closer paired first before
    have role : document.role? 2 = none := rfl
    rw [(by omega : opener = 2), role] at paired
    cases paired
  refine ⟨delimiting, document, parsed, ?_, directly, ?_⟩
  · rw [paired]
    decide +kernel
  · rw [written 2 5 directly (Engine.shallow (.empty ":")) 0 rfl rfl]
    rfl

end TagTemplate
