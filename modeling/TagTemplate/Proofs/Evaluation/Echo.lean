import Mathlib.Data.List.Intervals
import TagTemplate.Proofs.Evaluation.PostOrder
import TagTemplate.Proofs.ForestHeight

/-!
Tags whose handlers return the text of their body.

Such tags leave the literals and the dangling close tags of a document in their order, and the
only thing that can go wrong is that the pairs are nested too deeply.
-/

namespace TagTemplate

namespace Document

/-- A literal, or a close tag without an open tag. -/
def loose? (document : Document) (index : Nat) : Option Segment :=
  match document.segments[index]?, document.role? index with
  | some (.literal s), _ => some (.literal s)
  | some (.tag tag), some .dangling => some (.tag tag)
  | _, _ => none

/-- The literals and the dangling close tags of a range, in their order. -/
def loose (document : Document) (start stop : Nat) : List Segment :=
  (List.Ico start stop).filterMap document.loose?

end Document

namespace Forest

def loose : Forest → List Segment
  | nil => []
  | text s rest => .literal s :: rest.loose
  | dangling tag rest => .tag tag :: rest.loose
  | single _ _ rest => rest.loose
  | pair _ _ _ _ body rest => body.loose ++ rest.loose

/-- What a range yields where so many levels are left. -/
def echo (settings : Settings) (levels : Nat) (forest : Forest) : Except TemplateError String :=
  if forest.height < levels then .ok (settings.delimiters.detokenize forest.loose)
  else .error (.recursionLimit settings.maxDepth)

variable {settings : Settings} {levels : Nat}

theorem echo_text (s : String) (rest : Forest) :
    (text s rest).echo settings levels = (rest.echo settings levels).map (s ++ ·) := by
  simp only [echo, height, loose, Delimiters.detokenize_cons, Segment.text]
  split <;> rfl

theorem echo_dangling (tag : Tag) (rest : Forest) :
    (dangling tag rest).echo settings levels =
      (rest.echo settings levels).map (settings.delimiters.wrap tag.name tag.param ++ ·) := by
  simp only [echo, height, loose, Delimiters.detokenize_cons, Segment.text]
  split <;> rfl

theorem echo_single (index : Nat) (tag : Tag) (rest : Forest) :
    (single index tag rest).echo settings levels = (rest.echo settings levels).map ("" ++ ·) := by
  simp only [String.empty_append]
  exact (congrFun Except.map_id _).symm

theorem echo_pair (index : Nat) (tag : Tag) (closer : Nat) (closeTag : Tag) (body rest : Forest) :
    (pair index tag closer closeTag body rest).echo settings (levels + 1) =
      (body.echo settings levels).bind fun head =>
        (rest.echo settings (levels + 1)).map (head ++ ·) := by
  simp only [echo, height, loose, Delimiters.detokenize_append, Nat.max_lt, Nat.add_lt_add_iff_right]
  by_cases inside : body.height < levels <;> by_cases behind : rest.height < levels + 1 <;>
    simp [inside, behind, Except.bind, Except.map]

end Forest

namespace Document.Forms

variable {document : Document} {forest : Forest} {start stop : Nat}

theorem loose_eq (nested : Pairing.Nested document.segments.toList document.roles)
    (forms : document.Forms start stop forest) : document.loose start stop = forest.loose := by
  simp only [Document.loose]
  induction forms with
  | nil here => simp [Forest.loose]
  | text found behind ih =>
      rw [List.Ico.eq_cons behind.le, List.filterMap_cons, ih]
      simp [loose?, found, Forest.loose]
  | dangling found unnamed role behind ih =>
      rw [List.Ico.eq_cons behind.le, List.filterMap_cons, ih]
      simp [loose?, found, role, Forest.loose]
  | single found named role behind ih =>
      rw [List.Ico.eq_cons behind.le, List.filterMap_cons, ih]
      simp [loose?, found, role, Forest.loose]
  | @pair start stop closer tag closeTag inner rest found named role inside closeFound unnamed
      behind ihInner ihRest =>
      have reach := inside.le
      have beyond := behind.le
      have closes : document.role? closer = some (.closes start) :=
        role?_eq_some_iff.mpr (nested.partner.mp (role?_eq_some_iff.mp role))
      rw [List.Ico.eq_cons (by omega), ← List.Ico.append_consecutive reach (by omega),
        List.Ico.eq_cons beyond, List.filterMap_cons, List.filterMap_append, List.filterMap_cons,
        ihInner, ihRest]
      simp [loose?, found, role, closeFound, closes, Forest.loose]

end Document.Forms

/-- The handler returns the text of the body, whatever it is called with. -/
def Handler.Echoes (handler : Handler) : Prop :=
  ∀ (host : Host Id) (call : TagCall) (engine : Engine),
    (Evaluation.on ((handler call).run host) engine).1 = .ok call.body.asText

/-- Every open tag is looked up with success, and its handler returns the text of its body. -/
structure Registry.ServesEchoes (holds : Registry → Prop) (document : Document) : Prop
    extends Registry.Serves holds document (· = Convention.default) where
  bound : ∀ {registry : Registry} {index tag}, holds registry →
    document.openTag? index = some tag →
    ∃ resolved, (registry.resolve tag.name tag.param).1 = .ok (some resolved)
  echoes : ∀ {registry : Registry} {index tag resolved}, holds registry →
    document.openTag? index = some tag →
    (registry.resolve tag.name tag.param).1 = .ok (some resolved) →
    resolved.binding.handler.Echoes

namespace Evaluation

variable {holds : Registry → Prop} {settings : Settings} {document : Document} {levels : Nat}
  {level : Level} {α β : Type}

/-- On an engine on which no call waits a computation has one result, and no call waits
afterwards. -/
def Yields (holds : Registry → Prop) (settings : Settings) (x : Evaluation α)
    (result : Except TemplateError α) : Prop :=
  ∀ engine : Engine, engine.Free holds settings →
    ∃ after, after.Free holds settings ∧ x.on engine = (result, after)

namespace Yields

theorem bind {x : Evaluation α} {result : Except TemplateError α} {f : α → Evaluation β}
    {g : α → Except TemplateError β} (first : Yields holds settings x result)
    (rest : ∀ a, Yields holds settings (f a) (g a)) :
    Yields holds settings (x >>= f) (result >>= g) := by
  intro engine ready
  obtain ⟨middle, reached, ran⟩ := first engine ready
  rw [on_bind, ran]
  cases result with
  | error error => exact ⟨middle, reached, rfl⟩
  | ok a => exact rest a middle reached

theorem settle (result : Except TemplateError α) :
    Yields holds settings (EngineT.settle result) result :=
  fun engine ready => ⟨engine, ready, rfl⟩

theorem pure (a : α) : Yields holds settings (Pure.pure a) (.ok a) :=
  settle (.ok a)

theorem of_eq {x : Evaluation α} {result other : Except TemplateError α}
    (yields : Yields holds settings x result) (same : result = other) :
    Yields holds settings x other :=
  same ▸ yields

theorem change {f : Engine → Engine}
    (keeps : ∀ engine : Engine, engine.Free holds settings → (f engine).Free holds settings) :
    Yields holds settings (EngineT.change f) (.ok ()) :=
  fun engine ready => ⟨f engine, keeps engine ready, rfl⟩

theorem reading {f : Settings → Evaluation α} {result : Except TemplateError α}
    (yields : Yields holds settings (f settings) result) :
    Yields holds settings (do f (← get).settings) result := by
  intro engine ready
  rw [on_bind, on_get, proceed_ok, ready.settings]
  exact yields engine ready

theorem runNamed {binding : Binding} (echoes : binding.handler.Echoes)
    (quiet : binding.handler.Quiet holds) (host : Host Id) (call : TagCall) :
    Yields holds settings (binding.runNamed host call) (.ok call.body.asText) := by
  intro engine ready
  obtain ⟨unchanged, keeps, deferred, _⟩ := quiet.run host call engine
  have returned : (Evaluation.on (binding.run host call) engine).1 = .ok call.body.asText := by
    simp only [Binding.run, on_bind, on_change, proceed_ok]
    exact echoes host call _
  refine ⟨_, ⟨⟨unchanged.trans ready.settings, keeps ready.holds⟩,
    deferred.trans ready.deferred⟩, ?_⟩
  rw [on_runNamed, returned]
  rfl

end Yields

/-- A range yields what is loose in its forest, or the nesting is too deep. -/
def EchoesLevel (holds : Registry → Prop) (settings : Settings) (document : Document)
    (levels : Nat) (level : Level) : Prop :=
  ∀ {start stop forest}, document.Forms start stop forest →
    Yields holds settings (level document start stop) (forest.echo settings levels)

/-- What the body of a tag yields. -/
def echoedBody (settings : Settings) (levels : Nat) :
    Option Forest → Except TemplateError (Option String)
  | none => .ok none
  | some inner => (inner.echo settings levels).map some

namespace EchoesLevel

variable {index : Nat} {tag : Tag} {closer : Option Nat} {body : Option Forest}
  {resolved : Resolved}

theorem bodyText (echoes : EchoesLevel holds settings document levels level)
    (encloses : document.Encloses index closer body) :
    Yields holds settings (Evaluation.bodyText level document .default index closer)
      (echoedBody settings levels body) := by
  cases encloses with
  | nothing => exact .pure none
  | body forms => exact (echoes forms).bind fun text => .pure (some text)

theorem check (document : Document) (tag : Tag)
    (plain : resolved.binding.convention = .default) (hasBody : Bool) :
    Yields holds settings (Evaluation.check document tag resolved hasBody) (.ok ()) := by
  have allowed : callViolation resolved.binding.convention resolved.param hasBody = none := by
    simp [plain, callViolation, bodyAsParam, arityViolation, Convention.default]
  rw [Evaluation.check, allowed]
  exact .pure ()

theorem prepare (tag : Tag) (echoes : EchoesLevel holds settings document levels level)
    (encloses : document.Encloses index closer body)
    (plain : resolved.binding.convention = .default) :
    Yields holds settings (Evaluation.prepare level document index tag closer resolved)
      ((echoedBody settings levels body).bind
        (decoded settings document tag resolved resolved.param)) := by
  have sides : ∀ text, sides resolved closer.isSome text = (resolved.param, text) := by
    intro text
    simp [Evaluation.sides, plain, bodyAsParam, Convention.default]
  simp only [Evaluation.prepare, sides, plain]
  exact (echoes.bodyText encloses).bind fun text =>
    .reading (f := fun settings =>
      EngineT.settle (decoded settings document tag resolved resolved.param text)) (.settle _)

/-- Under the default convention every body is decoded, to its own text. -/
theorem exists_decoded (settings : Settings) (document : Document) (tag : Tag)
    (plain : resolved.binding.convention = .default) (text : Option String) :
    ∃ call, decoded settings document tag resolved resolved.param text = .ok call ∧
      call.body.asText = text.getD "" := by
  cases text with
  | none => exact ⟨_, rfl, rfl⟩
  | some text =>
      simp [decoded, decodedBody, plain, Convention.default, Shape.decodeBody, Except.map,
        Except.mapError, Body.asText]

theorem callResolved (echoes : EchoesLevel holds settings document levels level)
    (encloses : document.Encloses index closer body)
    (plain : resolved.binding.convention = .default)
    (handler : resolved.binding.handler.Echoes) (quiet : resolved.binding.handler.Quiet holds) :
    Yields holds settings (Evaluation.callResolved level document index tag closer resolved)
      ((echoedBody settings levels body).map (·.getD "")) := by
  have recorded : Yields holds settings (EngineT.change (recordCall tag.name)) (.ok ()) :=
    .change fun engine ready => ⟨⟨ready.settings, ready.holds⟩, ready.deferred⟩
  have once : resolved.binding.convention.redo = false := by rw [plain]; rfl
  have inPlace : resolved.binding.convention.deferred = false := by rw [plain]; rfl
  rw [callResolved_eq]
  simp only [inPlace, again, once, Bool.false_eq_true, if_false]
  have called := (check document tag plain closer.isSome).bind fun _ => recorded.bind fun _ =>
    (echoes.prepare tag encloses plain).bind fun call =>
      (Yields.runNamed handler quiet (host level) call).bind fun text => Yields.pure text
  -- the result of the steps of the call, where it is known how the body ends
  apply called.of_eq
  cases echoedBody settings levels body with
  | error error => rfl
  | ok text =>
      obtain ⟨call, made, same⟩ := exists_decoded settings document tag plain text
      simp [bind, Except.bind, Except.map, made, same]

theorem call (echoes : EchoesLevel holds settings document levels level)
    (serves : Registry.ServesEchoes holds document)
    (opens : document.openTag? index = some tag)
    (encloses : document.Encloses index closer body) :
    Yields holds settings (item level document (.call index tag closer))
      ((echoedBody settings levels body).map (·.getD "")) := by
  intro engine ready
  obtain ⟨resolved, found⟩ := serves.bound ready.holds opens
  have looked : engine.resolve tag.name tag.param =
      (.ok (some resolved), (engine.resolve tag.name tag.param).2) := Prod.ext found rfl
  have settled : (engine.resolve tag.name tag.param).2.Free holds settings :=
    ⟨⟨ready.settings, serves.keeps ready.holds opens⟩, ready.deferred⟩
  have called : Yields holds settings
      (Evaluation.callResolved level document index tag closer resolved)
      ((echoedBody settings levels body).map (·.getD "")) :=
    echoes.callResolved encloses (serves.accepts ready.holds opens found)
      (serves.echoes ready.holds opens found) (serves.quiet ready.holds opens found)
  obtain ⟨after, reached, ran⟩ := called _ settled
  refine ⟨after, reached, ?_⟩
  rw [item, callTag, on_bind, on_step, looked, proceed_ok]
  exact ran

theorem items_cons {first : Item} {rest : List Item} {head tail : Except TemplateError String}
    (here : Yields holds settings (item level document first) head)
    (behind : Yields holds settings (Evaluation.items level document rest) tail) :
    Yields holds settings (Evaluation.items level document (first :: rest))
      (head.bind fun head => tail.map (head ++ ·)) := by
  have joined := here.bind fun head => behind.bind fun tail => .pure (head ++ tail)
  apply joined.of_eq
  cases head <;> cases tail <;> rfl

theorem items (echoes : EchoesLevel holds settings document levels level)
    (serves : Registry.ServesEchoes holds document) (keep : settings.danglingEnd = .keep)
    {start stop : Nat} {forest : Forest} (forms : document.Forms start stop forest) :
    Yields holds settings (Evaluation.items level document forest.items)
      (forest.echo settings (levels + 1)) := by
  induction forms with
  | nil here => exact .pure ""
  | @text start stop s rest found behind ih =>
      have here : Yields holds settings (item level document (.text s)) (.ok s) := .pure s
      rw [Forest.echo_text]
      exact items_cons here ih
  | @dangling start stop tag rest found unnamed role behind ih =>
      have here : Yields holds settings (item level document (.dangling tag))
          (.ok (settings.delimiters.wrap tag.name tag.param)) := by
        intro engine ready
        refine ⟨engine, ready, ?_⟩
        simp [on_dangling, Settings.danglingText, ready.settings, keep]
      rw [Forest.echo_dangling]
      exact items_cons here ih
  | @single start stop tag rest found named role behind ih =>
      have opens : document.openTag? start = some tag :=
        Document.openTag?_eq_some_iff.mpr ⟨found, named⟩
      rw [Forest.echo_single]
      exact items_cons (echoes.call serves opens .nothing) ih
  | @pair start stop closer tag closeTag inner rest found named role inside closeFound unnamed
      behind _ ih =>
      have opens : document.openTag? start = some tag :=
        Document.openTag?_eq_some_iff.mpr ⟨found, named⟩
      rw [Forest.echo_pair]
      apply (items_cons (echoes.call serves opens (.body inside)) ih).of_eq
      cases body : inner.echo settings levels <;> simp [echoedBody, body, Except.map, Except.bind]

end EchoesLevel

/-- Every range yields what is loose in its forest, while enough levels are left. -/
theorem echoesLevel_range (serves : Registry.ServesEchoes holds document)
    (keep : settings.danglingEnd = .keep) (levels : Nat) :
    EchoesLevel holds settings document levels (range levels) := by
  induction levels with
  | zero =>
      -- no forest is flat enough where no level is left
      intro start stop forest forms
      exact .reading (f := fun settings => EngineT.settle (.error (.recursionLimit settings.maxDepth)))
        (.settle _)
  | succ levels ih =>
      intro start stop forest forms engine ready
      have entered : (enter engine).Free holds settings :=
        ⟨⟨ready.settings, ready.holds⟩, ready.deferred⟩
      obtain ⟨after, reached, ran⟩ := ih.items serves keep forms _ entered
      refine ⟨leave after, ⟨⟨reached.settings, reached.holds⟩, reached.deferred⟩, ?_⟩
      rw [range, on_between, forms.outline_eq, ran]

end Evaluation

/-- Where every tag is replaced by the text of its body, evaluation yields what lies outside
the tags, and the only error is that the pairs are nested too deeply. -/
theorem Engine.evaluate_echoes {engine : Engine} {holds : Registry → Prop}
    (reachable : engine.Reachable) (initial : holds engine.registry)
    (serves : Registry.ServesEchoes holds engine.document)
    (keep : engine.settings.danglingEnd = .keep) (batches : Nat) :
    ∃ after, (Expansion.evaluate batches).run engine =
      some (if engine.document.nesting < engine.settings.maxDepth then
          .ok (engine.settings.delimiters.detokenize
            (engine.document.loose 0 engine.document.size))
        else .error (.recursionLimit engine.settings.maxDepth), after) := by
  have atRest := reachable.atRest
  have nested : Pairing.Nested engine.document.segments.toList engine.document.roles :=
    Document.IsParsed.nested atRest.parsed
  obtain ⟨forest, forms⟩ := atRest.parsed.exists_forest
  have begun : (Expansion.begin engine).Free holds engine.settings := ⟨⟨rfl, initial⟩, rfl⟩
  obtain ⟨after, ready, echoed⟩ :=
    Evaluation.echoesLevel_range serves keep engine.settings.maxDepth forms _ begun
  -- no call was deferred, so that nothing is replayed over the output
  have waiting : after.deferred.entries = [] := by rw [ready.deferred]; rfl
  have ran : (Expansion.evaluate batches).run engine =
      (Expansion.document batches engine.document).run engine :=
    Expansion.run_answer batches .evaluate atRest.idle.evaluating
  rw [Expansion.run_document, Evaluation.whole, echoed, Forest.echo] at ran
  rw [ran, forms.nesting_eq nested, forms.loose_eq nested]
  split
  · rw [Expansion.proceed, Expansion.run_replay_of_empty waiting, Option.map_some]
    exact ⟨_, rfl⟩
  · exact ⟨_, rfl⟩

def Binding.echoing : Binding :=
  ⟨fun call => .done call.body.asText, .default, false⟩

def Registry.echoing : Registry :=
  ⟨⟨":", [(catchAll, .echoing)]⟩, none⟩

theorem Registry.serves_echoing (document : Document) :
    Registry.ServesEchoes (· = .echoing) document where
  toServes := by
    apply Registry.serves_of_still rfl
    intro name binding member
    cases List.mem_singleton.mp member
    exact ⟨rfl, fun call => .done _⟩
  bound := by
    intro registry index tag only _
    subst only
    exact ⟨⟨.echoing, tag.name, tag.param⟩, rfl⟩
  echoes := by
    intro registry index tag resolved only _ found
    subst only
    cases found
    exact fun host call engine => rfl

def Engine.echoing (source : String) : Engine :=
  ((Action.load source).perform (shallow .echoing)).2

/-- Two levels of pairs fit into the three levels that there are, and three do not. -/
theorem Engine.evaluate_echoes_nested :
    (∃ after, (Expansion.evaluate 0).run
        (echoing "x\x7ba:\x7dy\x7bb:\x7dz\x7b:b\x7d\x7bc:\x7d\x7b:a\x7dw\x7b:d\x7d") =
      some (.ok "xyzw\x7b:d\x7d", after)) ∧
    ∃ after, (Expansion.evaluate 0).run
        (echoing "\x7ba:\x7d\x7bb:\x7d\x7bc:\x7dx\x7b:c\x7d\x7b:b\x7d\x7b:a\x7d") =
      some (.error (.recursionLimit 3), after) := by
  have reachable (source : String) : (echoing source).Reachable :=
    .acted (reachable_shallow _) _
  have initial (source : String) : (echoing source).registry = .echoing := by
    simp only [echoing, Action.perform, load]
    split <;> rfl
  have keep (source : String) : (echoing source).settings.danglingEnd = .keep := by
    simp only [echoing, Action.perform, load]
    split <;> rfl
  have echoed (source : String) :=
    @evaluate_echoes (echoing source) (· = .echoing) (reachable source) (initial source)
      (Registry.serves_echoing _) (keep source) 0
  constructor
  · apply (echoed _).imp
    intro after ran
    apply ran.trans
    congr 2
    decide +kernel
  · apply (echoed _).imp
    intro after ran
    apply ran.trans
    congr 2
    decide +kernel

end TagTemplate
