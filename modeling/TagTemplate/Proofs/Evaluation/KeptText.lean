import TagTemplate.Proofs.Evaluation.Balance
import TagTemplate.Proofs.Forest

/-!
Text that is kept as it is written.

Where unknown tags and dangling close tags are kept, a range whose own tags are all unknown
is written back segment by segment, with the bodies of its pairs, and the engine does not
change.  What is bound inside those bodies does not matter, since nobody evaluates them.
-/

namespace TagTemplate

namespace Document

variable {document : Document} {forest : Forest} {d : Delimiters} {start stop index : Nat}
  {tag : Tag} {closer : Option Nat}

/-- No matched pair encloses a position. -/
def Outermost (document : Document) (index : Nat) : Prop :=
  ∀ opener closer, document.role? opener = some (.closedAt closer) →
    ¬ (opener < index ∧ index < closer)

namespace Forms

theorem openTag?_of_mem_items (forms : document.Forms start stop forest)
    (member : .call index tag closer ∈ forest.items) :
    start ≤ index ∧ document.openTag? index = some tag := by
  induction forms with
  | nil here => simp [Forest.items] at member
  | text found behind ih | dangling found unnamed role behind ih =>
      obtain ⟨bound, opens⟩ := ih (by simpa [Forest.items] using member)
      exact ⟨by omega, opens⟩
  | single found named role behind ih =>
      rcases List.mem_cons.mp member with here | beyond
      · cases here
        exact ⟨Nat.le_refl _, openTag?_eq_some_iff.mpr ⟨found, named⟩⟩
      · obtain ⟨bound, opens⟩ := ih beyond
        exact ⟨by omega, opens⟩
  | pair found named role inside closeFound unnamed behind inner outer =>
      have reach := inside.le
      rcases List.mem_cons.mp member with here | beyond
      · cases here
        exact ⟨Nat.le_refl _, openTag?_eq_some_iff.mpr ⟨found, named⟩⟩
      · obtain ⟨bound, opens⟩ := outer beyond
        exact ⟨by omega, opens⟩

/-- No pair that opens in a range encloses a call that evaluation of the range meets. -/
theorem not_enclosed (nested : Pairing.Nested document.segments.toList document.roles)
    (forms : document.Forms start stop forest) (member : .call index tag closer ∈ forest.items)
    {opener last : Nat} (paired : document.role? opener = some (.closedAt last))
    (within : start ≤ opener) : ¬ (opener < index ∧ index < last) := by
  have opens := role?_eq_some_iff.mp paired
  induction forms with
  | nil here => simp [Forest.items] at member
  | @text start stop s rest found behind ih =>
      have unpaired : opener ≠ start := by
        intro same
        subst same
        obtain ⟨_, openTag, _, openFound, _⟩ := nested.matched opens
        simp [found] at openFound
      exact ih (by simpa [Forest.items] using member) (by omega)
  | @dangling start stop tag rest found unnamed role behind ih =>
      have unpaired : opener ≠ start := by
        intro same
        subst same
        simp [role] at paired
      exact ih (by simpa [Forest.items] using member) (by omega)
  | @single start stop tag rest found named role behind ih =>
      have unpaired : opener ≠ start := by
        intro same
        subst same
        simp [role] at paired
      rcases List.mem_cons.mp member with here | beyond
      · cases here
        omega
      · exact ih beyond (by omega)
  | @pair start stop first tag closeTag inner rest found named role inside closeFound unnamed
      behind _ ih =>
      rcases List.mem_cons.mp member with here | beyond
      · cases here
        omega
      -- the call lies behind the pair, and so does every pair that could enclose it
      have bound := (behind.openTag?_of_mem_items beyond).1
      have outer := role?_eq_some_iff.mp role
      have noncrossing := nested.noncrossing outer opens
      have closes : opener ≠ first := by
        intro same
        subst same
        have partner := nested.partner.mp outer
        rw [Pairing.RoleAt, opens] at partner
        cases partner
      have same : opener = start → last = first := by
        intro same
        subst same
        rw [role] at paired
        cases paired
        rfl
      have further : first + 1 ≤ opener → ¬ (opener < index ∧ index < last) := ih beyond
      omega

end Forms

/-- The calls that evaluation of a whole document meets are outermost. -/
theorem outermost_of_mem_items {source : String} (parsed : parse d source = .ok document)
    (forms : document.Forms 0 document.size forest)
    (member : .call index tag closer ∈ forest.items) : document.Outermost index := by
  obtain ⟨_, _, accepted⟩ := parse_eq_ok_iff.mp parsed
  intro opener last paired
  exact forms.not_enclosed (Pairing.nested_of_pairTags accepted) member paired (Nat.zero_le _)

end Document

namespace Engine

/-- Unknown tags and dangling close tags are kept, and no callback makes a tag known. -/
structure Keeping (engine : Engine) : Prop where
  unknownTag : engine.settings.unknownTag = .keep
  danglingEnd : engine.settings.danglingEnd = .keep
  still : engine.registry.autoload = none

/-- No outermost tag of a document is bound. -/
def Misses (engine : Engine) (document : Document) : Prop :=
  ∀ index tag, document.openTag? index = some tag → document.Outermost index →
    engine.registry.bindings.find? tag.name tag.param = none

end Engine

namespace Evaluation

variable {engine : Engine} {document : Document} {forest : Forest}
  {start stop : Nat}

/-- A tag that is unknown is written back with its body. -/
theorem on_callTag_of_keeping (level : Level) (document : Document) (index : Nat)
    (keeping : engine.Keeping) {tag : Tag}
    (unbound : engine.registry.bindings.find? tag.name tag.param = none) (closer : Option Nat) :
    (item level document (.call index tag closer)).on engine =
      (.ok (document.raw engine.settings.delimiters index (closer.getD index + 1)), engine) := by
  simp [item, callTag, Engine.resolve_of_still keeping.still, unbound, on_unknownTag, unknownText,
    keeping.unknownTag]

theorem on_items_of_keeping (level : Level) (keeping : engine.Keeping)
    (forms : document.Forms start stop forest)
    (unbound : ∀ index tag closer, .call index tag closer ∈ forest.items →
      engine.registry.bindings.find? tag.name tag.param = none) :
    (items level document forest.items).on engine =
      (.ok (engine.settings.delimiters.detokenize forest.segments), engine) := by
  induction forms with
  | nil here => rfl
  | @text start stop s _ found behind ih =>
      have rest := ih fun index tag closer member => unbound index tag closer (.tail _ member)
      have written : (item level document (.text s)).on engine = (.ok s, engine) := rfl
      simp [Forest.items, on_items_cons written, rest, Except.map, Forest.segments,
        Delimiters.detokenize_cons, Segment.text]
  | @dangling start stop tag _ found unnamed role behind ih =>
      have rest := ih fun index tag closer member => unbound index tag closer (.tail _ member)
      have written : (item level document (.dangling tag)).on engine =
          (.ok (engine.settings.delimiters.wrap tag.name tag.param), engine) := by
        simp [on_dangling, Settings.danglingText, keeping.danglingEnd]
      simp [Forest.items, on_items_cons written, rest, Except.map, Forest.segments,
        Delimiters.detokenize_cons, Segment.text]
  | @single start stop tag _ found named role behind ih =>
      have rest := ih fun index tag closer member => unbound index tag closer (.tail _ member)
      have written := on_callTag_of_keeping level document start keeping
        (unbound _ _ _ (.head _)) none
      have alone := Document.Forms.single found named role (.nil (start + 1))
      rw [Option.getD_none, alone.raw_eq] at written
      simp [Forest.items, on_items_cons written, rest, Except.map, Forest.segments,
        Delimiters.detokenize_cons]
  | @pair start stop closer tag closeTag inner _ found named role inside closeFound unnamed
      behind _ ih =>
      have rest := ih fun index tag closer member => unbound index tag closer (.tail _ member)
      have written := on_callTag_of_keeping level document start keeping
        (unbound _ _ _ (.head _)) (some closer)
      have alone :=
        Document.Forms.pair found named role inside closeFound unnamed (.nil (closer + 1))
      rw [Option.getD_some, alone.raw_eq] at written
      simp [Forest.items, on_items_cons written, rest, Except.map, Forest.segments,
        Delimiters.detokenize_cons, Delimiters.detokenize_append, String.append_assoc]

/-- A parsed text whose outermost tags are unknown is written back. -/
theorem on_whole_of_keeping (keeping : engine.Keeping)
    (delimiting : engine.settings.delimiters.Delimiting) {source : String}
    (parsed : engine.parse source = .ok document) (misses : engine.Misses document)
    (levels : Nat) :
    (whole (range (levels + 1)) document).on engine = (.ok source, engine) := by
  obtain ⟨forest, forms⟩ := Document.exists_forest parsed
  have written : engine.settings.delimiters.detokenize forest.segments = source := by
    obtain ⟨_, segments, _⟩ := Document.parse_eq_ok_iff.mp parsed
    have all : document.range 0 document.size = document.segments.toList := by
      simp [Document.range, Document.size]
    rw [← forms.range_eq, all, segments]
    exact delimiting.detokenize_tokenize source
  have unboundItems : ∀ index tag closer, .call index tag closer ∈ forest.items →
      engine.registry.bindings.find? tag.name tag.param = none := by
    intro index tag closer member
    exact misses index tag (forms.openTag?_of_mem_items member).2
      (Document.outermost_of_mem_items parsed forms member)
  have entered : (enter engine).Keeping :=
    ⟨keeping.unknownTag, keeping.danglingEnd, keeping.still⟩
  have evaluated := on_items_of_keeping (range levels) entered forms unboundItems
  rw [whole, range, on_between, forms.outline_eq, evaluated]
  exact congrArg (fun output => (Except.ok output, engine)) written

end Evaluation

theorem Document.parse_of_no_tag {d : Delimiters} (delimiting : d.Delimiting) {text : String}
    (tagless : ∀ tag, .tag tag ∉ d.tokenize text) :
    ∃ document, parse d text = .ok document ∧ ∀ index, document.openTag? index = none := by
  have literal := delimiting.tokenize_of_no_tag tagless
  have ran : Pairing.Machine.run [.literal text] = some ⟨[], [], #[none]⟩ := rfl
  refine ⟨⟨text, #[.literal text], #[none]⟩, parse_eq_ok_iff.mpr ⟨rfl, ?_, ?_⟩, ?_⟩
  · rw [literal]
  · exact Pairing.pairTags_of_run #[.literal text] d ran
  · intro index
    cases index <;> simp [openTag?, tag?, Segment.tag?]

namespace Engine

variable {engine : Engine} {text : String} {document : Document}

theorem Idle.finish_begin (idle : engine.Idle) :
    Expansion.finish (Evaluation.drained (Expansion.begin engine)) = engine := by
  cases engine
  cases idle
  simp_all [Expansion.begin, Evaluation.drained, Expansion.finish]

/-- Rendering a text whose outermost tags are unknown only loads it. -/
theorem AtRest.run_render_of_keeping (atRest : engine.AtRest) (keeping : engine.Keeping)
    (parsed : engine.parse text = .ok document) (misses : engine.Misses document)
    (batches : Nat) :
    (Expansion.render batches text).run engine = some (.ok text, { engine with document }) := by
  have ran : (Expansion.render batches text).run engine =
      (Expansion.document batches document).run { engine with document } := by
    have answered := Expansion.run_answer batches (.render text) atRest.idle.evaluating
    rw [Request.target, parsed] at answered
    exact answered
  obtain ⟨levels, limit⟩ := Nat.exists_eq_succ_of_ne_zero
    (Nat.ne_of_gt (Settings.maxDepth_pos_of_validate atRest.valid))
  have begun : (Expansion.begin { engine with document }).Keeping :=
    ⟨keeping.unknownTag, keeping.danglingEnd, keeping.still⟩
  have written := Evaluation.on_whole_of_keeping begun
    (Settings.delimiting_of_validate atRest.valid) parsed misses levels
  have loaded : Idle { engine with document } :=
    ⟨atRest.idle.depth, atRest.idle.evaluating, atRest.idle.callStack, atRest.idle.deferred⟩
  rw [ran, Expansion.run_document, limit, written, Expansion.proceed,
    Expansion.run_replay_of_empty rfl, Option.map_some, loaded.finish_begin]

/-- Inside an evaluation it changes nothing at all, while a level may be opened. -/
theorem run_render_nested_of_keeping (running : engine.evaluating = true)
    (left : 0 < engine.levelsLeft) (delimiting : engine.settings.delimiters.Delimiting)
    (keeping : engine.Keeping) (parsed : engine.parse text = .ok document)
    (misses : engine.Misses document) (batches : Nat) :
    (Expansion.render batches text).run engine = some (.ok text, engine) := by
  have answered := Expansion.run_answer_nested batches (.render text) running
  obtain ⟨levels, limit⟩ := Nat.exists_eq_succ_of_ne_zero (Nat.ne_of_gt left)
  refine answered.trans ?_
  have written := Evaluation.on_whole_of_keeping keeping delimiting parsed misses levels
  simp [Host.answer, Evaluation.host, Evaluation.text, parsed, limit, written]

/-- The keep policies lose nothing: rendering a text whose outermost tags are all unknown gives
the text, calls no handler and only loads the document, whatever is bound inside the bodies of
unknown tags.  An empty registry knows no tag, and a text without tags is always parsed.  The
same text is rendered inside an evaluation that may open a further level. -/
theorem render_of_keeping (reachable : engine.Reachable) (keeping : engine.Keeping)
    (batches : Nat) (text : String) :
    (∀ document, engine.parse text = .ok document → engine.Misses document →
      (Expansion.render batches text).run engine = some (.ok text, { engine with document })) ∧
    (engine.registry.bindings.table = [] → ∀ document, engine.parse text = .ok document →
      (Expansion.render batches text).run engine = some (.ok text, { engine with document })) ∧
    ((∀ tag, .tag tag ∉ engine.settings.delimiters.tokenize text) →
      ∃ document, engine.parse text = .ok document ∧
        (Expansion.render batches text).run engine =
          some (.ok text, { engine with document })) ∧
    ∀ inner document, inner.settings = engine.settings → inner.registry.autoload = none →
      inner.evaluating = true → 0 < inner.levelsLeft → inner.parse text = .ok document →
      inner.Misses document →
      (Expansion.render batches text).run inner = some (.ok text, inner) := by
  have atRest := reachable.atRest
  have delimiting := Settings.delimiting_of_validate atRest.valid
  refine ⟨?_, ?_, ?_, ?_⟩
  · intro document parsed misses
    exact atRest.run_render_of_keeping keeping parsed misses batches
  · intro empty document parsed
    apply atRest.run_render_of_keeping keeping parsed
    intro index tag _ _
    simp [Bindings.find?, Bindings.lookup?, Bindings.get?, empty, Keyed.find?]
  · intro tagless
    obtain ⟨document, parsed, closed⟩ := Document.parse_of_no_tag delimiting tagless
    refine ⟨document, parsed, atRest.run_render_of_keeping keeping parsed ?_ batches⟩
    intro index tag opens
    rw [closed index] at opens
    cases opens
  · intro inner document settings still running left parsed misses
    have keepingInner : inner.Keeping :=
      ⟨settings ▸ keeping.unknownTag, settings ▸ keeping.danglingEnd, still⟩
    exact run_render_nested_of_keeping running left (settings ▸ delimiting) keepingInner parsed
      misses batches

/-- An engine with the keep policies that knows one tag. -/
def verbatim : Engine :=
  { shallow ⟨⟨":", [("b", ⟨fun _ => .done "!", .default, false⟩)]⟩, none⟩ with
    settings := { maxDepth := 1, unknownTag := .keep } }

theorem reachable_verbatim : verbatim.Reachable := by
  have created : Engine.create { maxDepth := 1, unknownTag := .keep } =
      .ok { verbatim with registry := .empty ":" } := rfl
  exact .registered (.created created) verbatim.registry

/-- The tag that is known lies in the body of one that is not, and a close tag dangles. -/
theorem render_of_keeping_known_inside :
    verbatim.Reachable ∧ verbatim.Keeping ∧ ∃ document,
      verbatim.parse "\x7ba:\x7dx\x7bb:\x7dy\x7b:a\x7dz\x7b:c\x7d" = .ok document ∧
      verbatim.Misses document ∧
      (∃ index tag resolved, document.openTag? index = some tag ∧
        verbatim.registry.bindings.find? tag.name tag.param = some resolved) ∧
      (Expansion.render 0 "\x7ba:\x7dx\x7bb:\x7dy\x7b:a\x7dz\x7b:c\x7d").run verbatim =
        some (.ok "\x7ba:\x7dx\x7bb:\x7dy\x7b:a\x7dz\x7b:c\x7d", { verbatim with document }) := by
  let document : Document := ⟨"\x7ba:\x7dx\x7bb:\x7dy\x7b:a\x7dz\x7b:c\x7d",
    #[.literal "", .tag ⟨"a", "", 0, 4⟩, .literal "x", .tag ⟨"b", "", 5, 9⟩, .literal "y",
      .tag ⟨"", "a", 10, 14⟩, .literal "z", .tag ⟨"", "c", 15, 19⟩, .literal ""],
    #[none, some (.closedAt 5), none, some .selfClosed, none, some (.closes 1), none,
      some .dangling, none]⟩
  have policies : verbatim.Keeping := ⟨rfl, rfl, rfl⟩
  have parsed : verbatim.parse document.source = .ok document := by decide +kernel
  have misses : verbatim.Misses document := by
    have unbound : ∀ index < 9, index ≠ 3 → (document.openTag? index).all (fun tag =>
        (verbatim.registry.bindings.find? tag.name tag.param).isNone) = true := by decide
    intro index tag opens outermost
    have inside : index ≠ 3 := by
      intro same
      subst same
      exact outermost 1 5 rfl ⟨by decide, by decide⟩
    simpa [opens] using unbound index (Document.lt_size_of_openTag? opens) inside
  obtain ⟨rendered, _⟩ := render_of_keeping reachable_verbatim policies 0 document.source
  exact ⟨reachable_verbatim, policies, document, parsed, misses,
    ⟨3, _, _, rfl, rfl⟩, rendered document parsed misses⟩

end Engine

end TagTemplate
