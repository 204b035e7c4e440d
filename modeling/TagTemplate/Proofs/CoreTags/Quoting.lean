import TagTemplate.Proofs.CoreTags.Calls
import TagTemplate.Proofs.Escaping.RoundTrip
import TagTemplate.Proofs.Lexing.Joined

/-!
Quoted text.

A text between the tags of `literal` is written as it is, and so is a text that is escaped and
unescaped again, whatever tags it holds, as long as its tags leave the open tags in front of it to
the close tags behind it.
-/

namespace TagTemplate

theorem Forest.eq_of_segments_literal {forest : Forest} {text : String}
    (alone : forest.segments = [.literal text]) : forest = .text text .nil := by
  cases forest with
  | nil | dangling | single | pair => simp [segments] at alone
  | text s rest =>
      cases rest with
      | nil =>
          cases alone
          rfl
      | text | dangling | single | pair => simp [segments] at alone

namespace Document

variable {document : Document} {forest : Forest} {start stop : Nat} {tag close : Tag}
  {inner : List Segment}

/-- The segments of a range are a text between two tags. -/
def Enclosed (document : Document) (start stop : Nat) (tag close : Tag) (inner : List Segment) :
    Prop :=
  document.range start stop = .literal "" :: .tag tag :: (inner ++ [.tag close, .literal ""])

/-- Evaluation meets the open tag alone, if the close tag closes it. -/
theorem Enclosed.outline_eq (enclosed : document.Enclosed start stop tag close inner)
    (forms : document.Forms start stop forest)
    (role : document.role? (start + 1) = some (.closedAt (stop - 2))) :
    document.outline start stop = [.text "", .call (start + 1) tag (some (stop - 2)), .text ""] ∧
      document.range (start + 2) (stop - 2) = inner ∧
      ∃ body, document.Forms (start + 2) (stop - 2) body := by
  rw [forms.outline_eq]
  have whole := enclosed.symm.trans forms.range_eq
  have length := forms.start_add_length
  rw [← whole] at length
  simp only [List.length_cons, List.length_append, List.length_nil] at length
  -- the two segments in front leave a text and then an open tag, which its role pairs
  cases forms with
  | nil => cases whole
  | dangling | single | pair => cases whole
  | text found behind =>
      cases behind with
      | nil | text => cases whole
      | dangling _ _ wrong =>
          rw [wrong] at role
          cases role
      | single _ _ wrong =>
          rw [wrong] at role
          cases role
      | @pair _ _ closer _ closeTag body rest _ _ given inside _ _ behind =>
          rw [given] at role
          cases role
          have size := inside.start_add_length
          simp only [Forest.segments, List.cons.injEq, Segment.literal.injEq, Segment.tag.injEq]
            at whole
          obtain ⟨rfl, rfl, same⟩ := whole
          -- the close tag stands where the role says, so that the body has a known length
          obtain ⟨rfl, last⟩ := List.append_inj same (by omega)
          obtain rfl := Forest.eq_of_segments_literal (List.cons_eq_cons.mp last).2.symm
          exact ⟨rfl, inside.range_eq, body, inside⟩

theorem exists_enclosed {name body : String} (named : ∀ c ∈ name.toList, isNameChar c = true)
    (parsed : parse .default (Delimiters.default.wrap name "" ++ body ++
      Delimiters.default.wrap "" name) = .ok document) :
    ∃ tag close offset forest, tag.name = name ∧ tag.param = "" ∧
      document.Forms 0 document.size forest ∧ document.Enclosed 0 document.size tag close
        ((Delimiters.default.tokenize body).map (Segment.shift offset)) := by
  obtain ⟨forest, forms⟩ := exists_forest parsed
  obtain ⟨_, segments, _⟩ := parse_eq_ok_iff.mp parsed
  obtain ⟨tag, close, offset, same, bare, read⟩ :=
    Delimiters.single_default.tokenize_enclosed named body
  refine ⟨tag, close, offset, forest, same, bare, forms, ?_⟩
  rw [Enclosed, ← read]
  simp [range, size, segments]

end Document

namespace Evaluation

open Delimiters (single_default)

variable {document : Document} {vars : Variables} {levels start stop : Nat} {tag close : Tag}
  {forest : Forest}

namespace Returns

theorem items_call {output : String} {left : Variables} {level : Level} {index : Nat}
    {closer : Option Nat}
    (called : Returns (item level document (.call index tag closer)) vars output left) :
    Returns (items level document [.text "", .call index tag closer, .text ""]) vars output
      left := by
  have joined := items_text "" (items_cons called (items_text "" items_nil))
  simpa using joined

theorem enclosed {inner : List Segment} {resolved : Resolved} {text output : String}
    (forms : document.Forms start stop forest)
    (between : document.Enclosed start stop tag close inner)
    (role : document.role? (start + 1) = some (.closedAt (stop - 2)))
    (found : CoreTags.registry.bindings.find? tag.name tag.param = some resolved)
    (direct : resolved.binding.convention.Direct)
    (permitted : callViolation resolved.binding.convention resolved.param true = none)
    (bodied : Returns (Evaluation.bodyText (Evaluation.range levels) document
      resolved.binding.convention (start + 1) (some (stop - 2))) vars (some text) vars)
    (handled : Returns ((resolved.binding.handler (directCall tag resolved (some text))).run
      (host (Evaluation.range levels))) vars output vars) :
    Returns (Evaluation.range (levels + 1) document start stop) vars output vars := by
  apply range
  rw [(between.outline_eq forms role).1]
  exact items_call (call found direct permitted bodied handled)

theorem quoted {inner : List Segment} {handler : Handler} {name output : String}
    (forms : document.Forms start stop forest)
    (between : document.Enclosed start stop tag close inner)
    (role : document.role? (start + 1) = some (.closedAt (stop - 2)))
    (found : CoreTags.registry.bindings.find? tag.name tag.param =
      some ⟨⟨handler, CoreTags.quoting, true⟩, name, ""⟩)
    (handled : Returns ((handler (directCall tag ⟨⟨handler, CoreTags.quoting, true⟩, name, ""⟩
      (some (Delimiters.default.detokenize inner)))).run (host (Evaluation.range levels))) vars
        output vars) :
    Returns (Evaluation.range (levels + 1) document start stop) vars output vars := by
  have raw :
      document.raw .default (start + 2) (stop - 2) = Delimiters.default.detokenize inner := by
    rw [Document.raw, (between.outline_eq forms role).2.1]
  have bodied : Returns (Evaluation.bodyText (Evaluation.range levels) document CoreTags.quoting
      (start + 1) (some (stop - 2))) vars (some (Delimiters.default.detokenize inner)) vars := by
    rw [← raw]
    exact bodyText_raw rfl
  exact enclosed forms between role found ⟨rfl, rfl, rfl, rfl, rfl⟩ rfl bodied handled

section Tags

variable {inner : List Segment} (forms : document.Forms start stop forest)
  (between : document.Enclosed start stop tag close inner)
  (role : document.role? (start + 1) = some (.closedAt (stop - 2))) (bare : tag.param = "")

include forms between role bare

theorem literal (named : tag.name = "literal") :
    Returns (Evaluation.range (levels + 1) document start stop) vars
      (Delimiters.default.detokenize inner) vars := by
  have found : CoreTags.registry.bindings.find? tag.name tag.param =
      some ⟨⟨CoreTags.literal, CoreTags.quoting, true⟩, "literal", ""⟩ := by
    rw [named, bare]
    rfl
  exact quoted forms between role found (.pure _)

theorem escape (named : tag.name = "escape") :
    Returns (Evaluation.range (levels + 1) document start stop) vars
      (Delimiters.default.escape (Delimiters.default.detokenize inner)) vars := by
  have found : CoreTags.registry.bindings.find? tag.name tag.param =
      some ⟨⟨CoreTags.escape, CoreTags.quoting, true⟩, "escape", ""⟩ := by
    rw [named, bare]
    rfl
  refine quoted forms between role found (.inspect fun view settings _ => ?_)
  rw [settings]
  exact .pure _

theorem unescape (named : tag.name = "unescape") {text : String}
    (inside : Returns (Evaluation.range levels document (start + 2) (stop - 2)) vars text vars) :
    Returns (Evaluation.range (levels + 1) document start stop) vars
      (Delimiters.default.unescape text) vars := by
  have found : CoreTags.registry.bindings.find? tag.name tag.param =
      some ⟨⟨CoreTags.unescape, CoreTags.restoring, true⟩, "unescape", ""⟩ := by
    rw [named, bare]
    rfl
  refine enclosed forms between role found ⟨rfl, rfl, rfl, rfl, rfl⟩ rfl (bodyText rfl inside)
    (.inspect fun view settings _ => ?_)
  rw [settings]
  exact .pure _

end Tags

end Returns

end Evaluation

namespace Evaluation.Returns

open Delimiters (single_default)

variable {document : Document} {vars : Variables} {body : String}

theorem literal_parsed
    (parsed : Document.parse .default (Delimiters.default.wrap "literal" "" ++ body ++
      Delimiters.default.wrap "" "literal") = .ok document)
    (role : document.role? 1 = some (.closedAt (document.size - 2))) :
    Returns (Evaluation.range 64 document 0 document.size) vars body vars := by
  obtain ⟨tag, close, offset, forest, named, bare, forms, between⟩ :=
    Document.exists_enclosed (List.all_eq_true.mp (by decide)) parsed
  have written : Returns (Evaluation.range 64 document 0 document.size) vars _ vars :=
    .literal forms between role bare named
  rwa [Delimiters.detokenize_shift, single_default.delimiting.detokenize_tokenize] at written

theorem unescape_parsed
    (parsed : Document.parse .default (Delimiters.default.wrap "unescape" "" ++
      (Delimiters.default.wrap "escape" "" ++ body ++ Delimiters.default.wrap "" "escape") ++
        Delimiters.default.wrap "" "unescape") = .ok document)
    (outer : document.role? 1 = some (.closedAt (document.size - 2)))
    (inner : document.role? 3 = some (.closedAt (document.size - 4)))
    (unspelled : Delimiters.default.escaped.Unspelled body.toList) :
    Returns (Evaluation.range 64 document 0 document.size) vars body vars := by
  obtain ⟨tag, close, offset, forest, named, bare, forms, between⟩ :=
    Document.exists_enclosed (List.all_eq_true.mp (by decide)) parsed
  obtain ⟨_, inside, _, formsInside⟩ := between.outline_eq forms outer
  obtain ⟨escaping, last, place, namedInside, bareInside, read⟩ :=
    @Delimiters.Single.tokenize_enclosed _ _ _ _ "escape" single_default
      (List.all_eq_true.mp (by decide)) body
  have betweenInside : document.Enclosed 2 (document.size - 2)
      { escaping with start := offset + escaping.start, stop := offset + escaping.stop }
      { last with start := offset + last.start, stop := offset + last.stop }
      (((Delimiters.default.tokenize body).map (Segment.shift place)).map
        (Segment.shift offset)) := by
    rw [read, List.map_cons, List.map_cons, List.map_append] at inside
    exact inside
  have escaped : Returns (Evaluation.range 63 document 2 (document.size - 2)) vars _ vars :=
    .escape formsInside betweenInside inner bareInside namedInside
  rw [Delimiters.detokenize_shift, Delimiters.detokenize_shift,
    single_default.delimiting.detokenize_tokenize] at escaped
  have written : Returns (Evaluation.range 64 document 0 document.size) vars _ vars :=
    .unescape forms between outer bare named escaped
  rwa [Delimiters.unescape_escape_of_marking (by decide) Delimiters.marking_default unspelled]
    at written

end Evaluation.Returns

namespace Engine

variable {engine : Engine} {vars : Variables}

/-- Quoting tags are faithful: where the open tags in front are closed by the close tags at the
end, a text between them is written unchanged. -/
theorem render_quoted (ready : engine.HasCoreTags vars) (idle : engine.evaluating = false)
    (body : String) (batches : Nat) :
    (let source := "\x7bliteral:\x7d" ++ body ++ "\x7b:literal\x7d"
     ∀ document, Document.parse .default source = .ok document →
       document.role? 1 = some (.closedAt (document.size - 2)) →
       ∃ after, (Expansion.render batches source).run engine = some (.ok body, after)) ∧
    (let source :=
       "\x7bunescape:\x7d\x7bescape:\x7d" ++ body ++ "\x7b:escape\x7d\x7b:unescape\x7d"
     ¬ "&#123;".toList <:+: body.toList → ¬ "&#58;".toList <:+: body.toList →
       ¬ "&#125;".toList <:+: body.toList →
       ∀ document, Document.parse .default source = .ok document →
         document.role? 1 = some (.closedAt (document.size - 2)) →
         document.role? 3 = some (.closedAt (document.size - 4)) →
         ∃ after, (Expansion.render batches source).run engine = some (.ok body, after)) := by
  constructor
  · intro source document parsed role
    obtain ⟨after, _, ran⟩ := ready.run_render idle parsed (.literal_parsed parsed role) batches
    exact ⟨after, ran⟩
  · intro source opener separator closer document parsed outer inner
    have split : source = Delimiters.default.wrap "unescape" "" ++
        (Delimiters.default.wrap "escape" "" ++ body ++ Delimiters.default.wrap "" "escape") ++
          Delimiters.default.wrap "" "unescape" := by
      have front : "\x7bunescape:\x7d\x7bescape:\x7d" = Delimiters.default.wrap "unescape" "" ++
          Delimiters.default.wrap "escape" "" := by decide
      have behind : "\x7b:escape\x7d\x7b:unescape\x7d" = Delimiters.default.wrap "" "escape" ++
          Delimiters.default.wrap "" "unescape" := by decide
      simp only [source, front, behind, String.append_assoc]
    rw [split] at parsed ⊢
    obtain ⟨after, _, ran⟩ := ready.run_render idle parsed
      (.unescape_parsed parsed outer inner ⟨opener, separator, closer⟩) batches
    exact ⟨after, ran⟩

/-- A tag that nobody knows and a close tag without an open tag. -/
theorem render_quoted_unknown :
    (∃ after, (Expansion.render 0 "\x7bliteral:\x7d\x7ba:\x7d\x7b:b\x7d\x7b:literal\x7d").run
      withCoreTags = some (.ok "\x7ba:\x7d\x7b:b\x7d", after)) ∧
    ∃ after, (Expansion.render 0
      "\x7bunescape:\x7d\x7bescape:\x7d\x7ba:\x7d\x7b:b\x7d\x7b:escape\x7d\x7b:unescape\x7d").run
        withCoreTags = some (.ok "\x7ba:\x7d\x7b:b\x7d", after) := by
  obtain ⟨literal, escaped⟩ :=
    render_quoted hasCoreTags_withCoreTags rfl "\x7ba:\x7d\x7b:b\x7d" 0
  constructor
  · exact literal ⟨"\x7bliteral:\x7d\x7ba:\x7d\x7b:b\x7d\x7b:literal\x7d", #[.literal "",
      .tag ⟨"literal", "", 0, 10⟩, .literal "",
      .tag ⟨"a", "", 10, 14⟩, .literal "", .tag ⟨"", "b", 14, 18⟩, .literal "",
      .tag ⟨"", "literal", 18, 28⟩, .literal ""],
      #[none, some (.closedAt 7), none, some .selfClosed, none, some .dangling, none,
        some (.closes 1), none]⟩ (by decide +kernel) rfl
  · exact escaped (by decide) (by decide) (by decide) ⟨
      "\x7bunescape:\x7d\x7bescape:\x7d\x7ba:\x7d\x7b:b\x7d\x7b:escape\x7d\x7b:unescape\x7d",
      #[.literal "",
      .tag ⟨"unescape", "", 0, 11⟩, .literal "", .tag ⟨"escape", "", 11, 20⟩, .literal "",
      .tag ⟨"a", "", 20, 24⟩, .literal "", .tag ⟨"", "b", 24, 28⟩, .literal "",
      .tag ⟨"", "escape", 28, 37⟩, .literal "", .tag ⟨"", "unescape", 37, 48⟩, .literal ""],
      #[none, some (.closedAt 11), none, some (.closedAt 9), none, some .selfClosed, none,
        some .dangling, none, some (.closes 3), none, some (.closes 1), none]⟩
      (by decide +kernel) rfl rfl

end Engine

end TagTemplate
