import Mathlib.Data.List.Chain
import Mathlib.Data.List.Perm.Subperm
import Mathlib.Logic.Relation
import TagTemplate.Proofs.Evaluation.Attribution

/-!
How a replay fails to end.

A replay goes on as long as a replayed call queues another one.  Where handlers return texts
and do nothing else, only the text of a tag that is expanded again can do so, so that a replay
either ends within as many batches as there are such tags that are deferred, and one more, or
comes back to one of them.  Nothing bounds how often it comes back.
-/

namespace TagTemplate

/-- The bindings whose calls are replayed and whose texts are then expanded. -/
def Bindings.recurring (bindings : Bindings) : List Binding :=
  (bindings.table.map Prod.snd).filter fun binding =>
    binding.convention.redo && binding.convention.deferred

/-- The replay of a call appends another one to the queue. -/
def DeferredCall.Begets (holds : Registry → Prop) (settings : Settings)
    (entry next : DeferredCall) : Prop :=
  ∃ (output : String) (engine : Engine) (slots : List (Option DeferredCall)),
    engine.Ready holds settings ∧
    ((Evaluation.replayOne (Evaluation.range settings.maxDepth) output entry).on
      engine).2.deferred.slots = engine.deferred.slots ++ slots ∧
    some next ∈ slots

theorem DeferredCall.Begets.mono {holds other : Registry → Prop} {settings : Settings}
    {entry next : DeferredCall} (begets : entry.Begets holds settings next)
    (implies : ∀ registry, holds registry → other registry) :
    entry.Begets other settings next := by
  obtain ⟨output, engine, slots, ready, grown, queued⟩ := begets
  exact ⟨output, engine, slots, ⟨ready.settings, implies _ ready.holds⟩, grown, queued⟩

namespace Evaluation

open Engine (Attributed)

variable {holds : Registry → Prop} {settings : Settings} {engine after : Engine}

/-- What a batch appends to the queue is begotten by one of its calls. -/
theorem exists_begets (kept : Registry.Keeps holds) {entries : List DeferredCall}
    (origins : ∀ entry ∈ entries, entry.ComesFromTag holds settings) {output text : String}
    (ready : engine.Ready holds settings)
    (replayed : (entries.foldlM (replayOne (range settings.maxDepth)) output).on engine =
      (.ok text, after)) {slots : List (Option DeferredCall)}
    (grown : after.deferred.slots = engine.deferred.slots ++ slots) {next : DeferredCall}
    (queued : some next ∈ slots) : ∃ entry ∈ entries, entry.Begets holds settings next := by
  induction entries generalizing output engine slots with
  | nil =>
      cases replayed
      rw [List.append_right_eq_self.mp grown.symm] at queued
      cases queued
  | cons first rest ih =>
      obtain ⟨origin, origins⟩ := List.forall_mem_cons.mp origins
      have level : AttributesLevel holds settings (range settings.maxDepth) :=
        attributesLevel_range kept _
      have reached : Attributed holds settings engine
          ((replayOne (range settings.maxDepth) output first).on engine).2 :=
        level.replayOne kept origin output engine _ _ rfl ready
      have begets := fun slots grown queued =>
        (⟨output, engine, slots, ready, grown, queued⟩ : first.Begets holds settings next)
      rw [List.foldlM_cons, on_bind] at replayed
      generalize (replayOne (range settings.maxDepth) output first).on engine = outcome
        at replayed reached begets
      obtain ⟨error | middleText, middle⟩ := outcome
      · cases replayed
      · rw [proceed_ok] at replayed
        have later : Attributed holds settings middle
            ((rest.foldlM (replayOne (range settings.maxDepth)) middleText).on middle).2 :=
          level.foldlM_replayOne kept origins middleText middle _ _ rfl reached.ready
        rw [replayed] at later
        -- The queue only grows: what the later calls append stands behind what the first one
        -- has appended.
        obtain ⟨here, grownHere, -⟩ := reached.queued
        obtain ⟨there, grownThere, -⟩ := later.queued
        have parts : slots = here ++ there := by
          rw [grownThere, grownHere, List.append_assoc] at grown
          exact (List.append_cancel_left grown).symm
        rw [parts] at queued
        rcases List.mem_append.mp queued with now | behind
        · exact ⟨first, by simp, begets here grownHere now⟩
        · obtain ⟨entry, member, found⟩ := ih origins reached.ready replayed grownThere behind
          exact ⟨entry, List.mem_cons_of_mem _ member, found⟩

theorem waiting_of_replay {level : Level} {batches : Nat} {output : String}
    (endless : (Expansion.replay level batches output).run engine = none) :
    engine.deferred.entries ≠ [] := by
  intro empty
  rw [Expansion.run_replay_of_empty empty] at endless
  cases endless

/-- A replay that does not end within a number of batches has gone through a chain of as many
calls, each queued by the one before it. -/
theorem exists_chain_of_replay (kept : Registry.Keeps holds) (batches : Nat) {output : String}
    (ready : engine.Ready holds settings)
    (origins : ∀ entry ∈ engine.deferred.entries, entry.ComesFromTag holds settings)
    (endless : (Expansion.replay (range settings.maxDepth) batches output).run engine = none) :
    ∃ first ∈ engine.deferred.entries, ∃ rest, rest.length = batches ∧
      (first :: rest).IsChain (DeferredCall.Begets holds settings) ∧
      ∀ entry ∈ first :: rest, entry.ComesFromTag holds settings := by
  have waiting := waiting_of_replay endless
  induction batches generalizing output engine with
  | zero =>
      obtain ⟨first, rest, entries⟩ := List.exists_cons_of_ne_nil waiting
      have member : first ∈ engine.deferred.entries := by simp [entries]
      exact ⟨first, member, [], rfl, .singleton first, by simpa using origins first member⟩
  | succ batches ih =>
      rw [Expansion.run_replay_succ waiting] at endless
      rcases ran : (engine.deferred.entries.foldlM (replayOne (range settings.maxDepth)) output).on
        (drained engine) with ⟨error | text, after⟩ <;> rw [ran] at endless
      · cases endless
      · have level : AttributesLevel holds settings (range settings.maxDepth) :=
          attributesLevel_range kept _
        have drainedReady : (drained engine).Ready holds settings :=
          ⟨ready.settings, ready.holds⟩
        have reached : Attributed holds settings (drained engine) after :=
          level.foldlM_replayOne kept origins output _ _ _ ran drainedReady
        obtain ⟨next, queued, rest, length, chain, found⟩ :=
          ih reached.ready (reached.queued.entries rfl) endless (waiting_of_replay endless)
        have appended : some next ∈ after.deferred.slots := by
          simpa [DeferredQueue.entries] using queued
        obtain ⟨entry, member, begets⟩ :=
          exists_begets kept origins drainedReady ran (List.nil_append _).symm appended
        refine ⟨entry, member, next :: rest, by simp [length], chain.cons_cons begets, ?_⟩
        exact List.forall_mem_cons.mpr ⟨origins entry member, found⟩

end Evaluation

open Evaluation (AttributesLevel attributesLevel_range)

variable {settings : Settings} {registry : Registry} {entry next : DeferredCall}

theorem Evaluation.on_replayOne_of_done {output text : String}
    (returned : entry.binding.handler { entry.call with document := some output } = .done text)
    (level : Level) (engine : Engine) :
    (replayOne level output entry).on engine =
      (again level entry.binding.convention text).on
        (engine.record [.called { entry.call with document := some output }
          entry.binding.builtIn engine.depth engine.callStack.depth]) := by
  simp only [replayOne, on_bind, on_runNamed, Binding.run, on_change, proceed_ok, returned,
    Program.run, on_pure]
  rfl

theorem DeferredCall.Begets.redo_of_returnsText {holds : Registry → Prop}
    (begets : entry.Begets holds settings next) (returns : entry.binding.handler.ReturnsText) :
    entry.binding.convention.redo = true := by
  obtain ⟨output, engine, slots, -, grown, queued⟩ := begets
  obtain ⟨text, returned⟩ := returns { entry.call with document := some output }
  by_contra once
  rw [Evaluation.on_replayOne_of_done returned, Evaluation.again, if_neg once] at grown
  have none : slots = [] := List.append_right_eq_self.mp grown.symm
  rw [none] at queued
  cases queued

/-- An evaluation that does not end within a number of batches has gone through a chain of
deferred calls, one in each batch, each queued by the one before it. -/
theorem Expansion.exists_chain_of_document {holds : Registry → Prop}
    (kept : Registry.Keeps holds) {batches : Nat} {document : Document} {engine : Engine}
    (held : holds engine.registry)
    (endless : (Expansion.document batches document).run engine = none) :
    ∃ calls : List DeferredCall, calls.length = batches + 1 ∧
      calls.IsChain (DeferredCall.Begets holds engine.settings) ∧
      ∀ entry ∈ calls, entry.ComesFromTag holds engine.settings := by
  rw [run_document, Option.map_eq_none_iff] at endless
  have ready : (begin engine).Ready holds engine.settings := ⟨rfl, held⟩
  rcases ran : (Evaluation.whole (Evaluation.range engine.settings.maxDepth) document).on
    (begin engine) with ⟨error | text, middle⟩ <;> rw [ran] at endless
  · cases endless
  · have level : AttributesLevel holds engine.settings
        (Evaluation.range engine.settings.maxDepth) := attributesLevel_range kept _
    have main : Engine.Attributed holds engine.settings (begin engine) middle :=
      level document 0 document.size _ _ _ ran ready
    obtain ⟨first, -, rest, length, chain, found⟩ := Evaluation.exists_chain_of_replay kept
      batches main.ready (main.queued.entries rfl) endless
    exact ⟨first :: rest, by simp [length], chain, found⟩

/-- What queues a call is deferred, and its text is expanded again. -/
theorem DeferredCall.Begets.again_of_returnsTexts {holds : Registry → Prop}
    (begets : entry.Begets holds settings next) (origin : entry.ComesFromTag holds settings)
    (texts : ∀ registry, holds registry → registry.ReturnsTexts) :
    entry.binding.convention.redo = true ∧ entry.binding.convention.deferred = true := by
  obtain ⟨invocation, ⟨registry, held, found⟩, deferred, same, -⟩ := origin
  have returns : invocation.binding.handler.ReturnsText := (texts registry held).of_resolve found
  rw [same] at returns
  exact ⟨begets.redo_of_returnsText returns, same ▸ deferred⟩

/-- Without autoload, what queues a call has been registered from the beginning. -/
theorem DeferredCall.Begets.recurring (still : registry.autoload = none)
    (texts : registry.ReturnsTexts) (begets : entry.Begets (· = registry) settings next)
    (origin : entry.ComesFromTag (· = registry) settings) :
    entry.binding ∈ registry.bindings.recurring := by
  have again := begets.again_of_returnsTexts origin fun _ same => same ▸ texts
  obtain ⟨invocation, ⟨_, rfl, found⟩, -, same, -⟩ := origin
  obtain ⟨name, member⟩ := Registry.exists_mem_of_resolve still found
  change (name, invocation.binding) ∈ _ at member
  rw [same] at member
  exact List.mem_filter.mpr ⟨List.mem_map_of_mem member, by simp [again]⟩

section Chains

variable {α β : Type} {R : α → α → Prop} {chain : List α}

theorem exists_next_of_isChain (linked : chain.IsChain R) {a : α}
    (member : a ∈ chain.dropLast) : ∃ b, R a b := by
  obtain ⟨i, bound, rfl⟩ := List.mem_iff_getElem.mp member
  rw [List.length_dropLast] at bound
  rw [List.getElem_dropLast]
  exact ⟨_, linked.getElem i (by omega)⟩

/-- A chain that is longer than the values it goes through comes back to one of them. -/
theorem exists_return_of_isChain {f : α → β} {values : List β} (linked : chain.IsChain R)
    (within : ∀ a ∈ chain, ∀ b, R a b → f a ∈ values) (long : values.length + 1 < chain.length) :
    ∃ a b, f a ∈ values ∧ f b = f a ∧ Relation.TransGen R a b := by
  by_contra! once
  have left : ∀ a ∈ chain.dropLast, f a ∈ values := by
    intro a member
    obtain ⟨b, related⟩ := exists_next_of_isChain linked member
    exact within a (List.dropLast_subset _ member) b related
  -- If it never came back, the values that it leaves would be too many.
  have reaches : chain.dropLast.Pairwise (Relation.TransGen R) :=
    (linked.imp fun _ _ => .single).pairwise.sublist (List.dropLast_sublist chain)
  have distinct : (chain.dropLast.map f).Nodup := by
    refine List.pairwise_map.mpr (reaches.imp_of_mem ?_)
    intro a b member _ reached same
    exact once a b (left a member) same.symm reached
  have inside : chain.dropLast.map f ⊆ values := by
    intro value member
    obtain ⟨a, found, rfl⟩ := List.mem_map.mp member
    exact left a found
  have short := (List.subperm_of_subset distinct inside).length_le
  rw [List.length_map, List.length_dropLast] at short
  omega

end Chains

namespace Engine

variable {engine : Engine}

/-- An evaluation ends within a number of batches unless a chain of calls goes on for longer,
each queued when the text of the one before it is expanded again. -/
theorem document_ends_or_goes_on {holds : Registry → Prop} (kept : Registry.Keeps holds)
    (held : holds engine.registry) (texts : engine.registry.ReturnsTexts) (batches : Nat)
    (document : Document) :
    (∃ outcome, (Expansion.document batches document).run engine = some outcome) ∨
    ∃ calls : List DeferredCall, calls.length = batches + 1 ∧
      calls.IsChain (DeferredCall.Begets holds engine.settings) ∧
      (∀ entry ∈ calls, entry.ComesFromTag holds engine.settings) ∧
      ∀ entry ∈ calls.dropLast,
        entry.binding.convention.redo = true ∧ entry.binding.convention.deferred = true := by
  cases ran : (Expansion.document batches document).run engine with
  | some outcome => exact .inl ⟨outcome, rfl⟩
  | none =>
      obtain ⟨calls, length, chain, found⟩ := Expansion.exists_chain_of_document
        (kept.and Registry.keeps_returnsTexts) ⟨held, texts⟩ ran
      refine .inr ⟨calls, length, ?_, fun entry member => ?_, fun entry member => ?_⟩
      · exact chain.imp fun _ _ begets => begets.mono fun _ held => held.1
      · exact (found entry member).mono fun _ held => held.1
      · obtain ⟨next, begets⟩ := exists_next_of_isChain chain member
        exact begets.again_of_returnsTexts (found entry (List.dropLast_subset _ member))
          fun _ held => held.2

/-- Without autoload, an evaluation ends within as many batches as there are deferred tags
whose texts are expanded again, and one more, unless a call of such a tag leads to another
call of it. -/
theorem document_ends_or_returns (texts : engine.registry.ReturnsTexts)
    (still : engine.registry.autoload = none) (document : Document) :
    let recurring := engine.registry.bindings.recurring
    (∃ outcome,
      (Expansion.document (recurring.length + 1) document).run engine = some outcome) ∨
    ∃ entry next : DeferredCall, entry.binding ∈ recurring ∧ next.binding = entry.binding ∧
      Relation.TransGen (DeferredCall.Begets (· = engine.registry) engine.settings) entry next := by
  intro recurring
  cases ran : (Expansion.document (recurring.length + 1) document).run engine with
  | some outcome => exact .inl ⟨outcome, rfl⟩
  | none =>
      obtain ⟨calls, length, chain, found⟩ :=
        Expansion.exists_chain_of_document (texts.keeps_eq still) rfl ran
      have long : recurring.length + 1 < calls.length := by omega
      exact .inr (exists_return_of_isChain chain
        (fun entry member next begets => begets.recurring still texts (found entry member)) long)

/-- Where handlers only return texts, nothing but the texts of deferred tags that are expanded
again keeps a replay from ending, and without autoload one such tag has to lead back to
itself.  The tags are found in registries of the evaluation, of which all is known that look-ups
and handlers keep. -/
theorem document_ends_or_recurs (texts : engine.registry.ReturnsTexts) (document : Document) :
    (∀ holds, Registry.Keeps holds → holds engine.registry → ∀ batches,
      (∃ outcome, (Expansion.document batches document).run engine = some outcome) ∨
      ∃ calls : List DeferredCall, calls.length = batches + 1 ∧
        calls.IsChain (DeferredCall.Begets holds engine.settings) ∧
        (∀ entry ∈ calls, entry.ComesFromTag holds engine.settings) ∧
        ∀ entry ∈ calls.dropLast,
          entry.binding.convention.redo = true ∧ entry.binding.convention.deferred = true) ∧
    (engine.registry.autoload = none →
      let recurring := engine.registry.bindings.recurring
      (∃ outcome,
        (Expansion.document (recurring.length + 1) document).run engine = some outcome) ∨
      ∃ entry next : DeferredCall, entry.binding ∈ recurring ∧ next.binding = entry.binding ∧
        Relation.TransGen (DeferredCall.Begets (· = engine.registry) engine.settings)
          entry next) :=
  ⟨fun _ kept held batches => document_ends_or_goes_on kept held texts batches document,
    fun still => document_ends_or_returns texts still document⟩

end Engine

/-- A deferred tag that is expanded again, and whose text is the tag. -/
def Binding.repeating : Binding :=
  ⟨fun _ => .done "\x7bagain:\x7d", { redo := true, deferred := true }, false⟩

def Registry.repeating : Registry :=
  ⟨⟨":", [("again", .repeating)]⟩, none⟩

def Document.repeating : Document :=
  ⟨"\x7bagain:\x7d", #[.literal "", .tag ⟨"again", "", 0, 8⟩, .literal ""],
    #[none, some .selfClosed, none]⟩

def DeferredCall.repeating : DeferredCall :=
  ⟨.repeating, ⟨"again", "again", .text "", .none, 0, none⟩⟩

theorem Registry.returnsTexts_repeating : Registry.repeating.ReturnsTexts where
  bindings name binding member := by
    cases List.mem_singleton.mp member
    exact fun call => ⟨_, rfl⟩
  autoload _ none := by cases none

theorem Document.parse_repeating :
    Document.parse .default Document.repeating.source = .ok .repeating := by
  decide +kernel

namespace Engine

/-- One call of the tag waits for its replay. -/
structure Repeats (engine : Engine) : Prop where
  ready : engine.Ready (· = .repeating) { maxDepth := 3 }
  slots : engine.deferred.slots = [some .repeating]

open Evaluation (range whole replayOne drained)

variable {engine : Engine}

theorem Repeats.entries (repeats : engine.Repeats) : engine.deferred.entries = [.repeating] := by
  rw [DeferredQueue.entries, repeats.slots]
  rfl

/-- The evaluation of the tag queues its call. -/
theorem whole_repeats (ready : engine.Ready (· = .repeating) { maxDepth := 3 })
    (empty : engine.deferred = .empty) :
    ∃ after, (whole (range 3) .repeating).on engine = (.ok "", after) ∧ after.Repeats := by
  obtain ⟨settings, registry, callStack, vars, deferred, document, depth, evaluating, journal⟩ :=
    engine
  obtain ⟨settings, registry⟩ := ready
  dsimp only at settings registry empty
  subst settings registry empty
  -- The call is not made, so that the rest of the engine does not matter.
  exact ⟨_, rfl, ⟨rfl, rfl⟩, rfl⟩

theorem text_repeats (ready : engine.Ready (· = .repeating) { maxDepth := 3 })
    (empty : engine.deferred = .empty) :
    ∃ after, (Evaluation.text (range 3) "\x7bagain:\x7d").on engine = (.ok "", after) ∧
      after.Repeats := by
  have parsed : engine.parse "\x7bagain:\x7d" = .ok .repeating := by
    rw [parse, ready.settings]
    exact Document.parse_repeating
  rw [Evaluation.text, Evaluation.on_bind, Evaluation.on_step, parsed, Evaluation.proceed_ok]
  exact whole_repeats ready empty

theorem replayOne_repeats (ready : engine.Ready (· = .repeating) { maxDepth := 3 })
    (empty : engine.deferred = .empty) (output : String) :
    ∃ after, (replayOne (range 3) output .repeating).on engine = (.ok "", after) ∧
      after.Repeats := by
  have redo : DeferredCall.repeating.binding.convention.redo = true := rfl
  rw [Evaluation.on_replayOne_of_done rfl, Evaluation.again, if_pos redo]
  exact text_repeats ⟨ready.settings, ready.holds⟩ empty

theorem Repeats.replay (repeats : engine.Repeats) (batches : Nat) (output : String) :
    (Expansion.replay (range 3) batches output).run engine = none := by
  have waiting : engine.deferred.entries ≠ [] := by simp [repeats.entries]
  induction batches generalizing engine output with
  | zero => exact Expansion.run_replay_zero waiting
  | succ batches ih =>
      have ready : (drained engine).Ready (· = .repeating) { maxDepth := 3 } :=
        ⟨repeats.ready.settings, repeats.ready.holds⟩
      obtain ⟨after, ran, repeated⟩ := replayOne_repeats ready rfl output
      rw [Expansion.run_replay_succ waiting, repeats.entries, List.foldlM_cons,
        Evaluation.on_bind, ran, Evaluation.proceed_ok]
      exact ih repeated "" (by simp [repeated.entries])

theorem run_document_repeating (batches : Nat) :
    (Expansion.document batches .repeating).run (shallow .repeating) = none := by
  have ready : (Expansion.begin (shallow .repeating)).Ready (· = .repeating) { maxDepth := 3 } :=
    ⟨rfl, rfl⟩
  obtain ⟨after, ran, repeats⟩ := whole_repeats ready rfl
  rw [Expansion.run_document]
  simp only [shallow] at ran ⊢
  rw [ran, Expansion.proceed, repeats.replay]
  rfl

/-- However many batches are replayed, the calls of the tag form a chain that goes on, and one
of them leads to another one. -/
theorem document_ends_or_recurs_repeating :
    (shallow .repeating).registry.ReturnsTexts ∧
    (∀ batches, ∃ calls : List DeferredCall, calls.length = batches + 1 ∧
      calls.IsChain (DeferredCall.Begets (· = .repeating) { maxDepth := 3 }) ∧
      ∀ entry ∈ calls, entry.ComesFromTag (· = .repeating) { maxDepth := 3 }) ∧
    (shallow .repeating).registry.autoload = none ∧
    ∃ entry next : DeferredCall, entry.binding ∈ Registry.repeating.bindings.recurring ∧
      next.binding = entry.binding ∧
      Relation.TransGen (DeferredCall.Begets (· = .repeating) { maxDepth := 3 }) entry next := by
  have texts : (shallow .repeating).registry.ReturnsTexts := Registry.returnsTexts_repeating
  obtain ⟨chains, recurs⟩ := document_ends_or_recurs texts .repeating
  refine ⟨texts, fun batches => ?_, rfl, ?_⟩
  · rcases chains _ (texts.keeps_eq rfl) rfl batches with
      ⟨outcome, ended⟩ | ⟨calls, length, chain, found, -⟩
    · rw [run_document_repeating] at ended
      cases ended
    · exact ⟨calls, length, chain, found⟩
  · rcases recurs rfl with ⟨outcome, ended⟩ | found
    · rw [run_document_repeating] at ended
      cases ended
    · exact found

/-- A tag whose handler does nothing but return the tag is replayed for ever. -/
theorem expand_never_ends :
    (shallow .repeating).Reachable ∧ Registry.repeating.ReturnsTexts ∧
      ∀ batches, (Expansion.expand batches "\x7bagain:\x7d").run (shallow .repeating) = none := by
  refine ⟨reachable_shallow _, Registry.returnsTexts_repeating, ?_⟩
  intro batches
  have parsed : (shallow .repeating).parse "\x7bagain:\x7d" = .ok .repeating :=
    Document.parse_repeating
  rw [Expansion.expand, Expansion.run_joining rfl, Expansion.run_bind, Expansion.run_step,
    Option.bind_some, parsed, Expansion.proceed, run_document_repeating]

end Engine

end TagTemplate
