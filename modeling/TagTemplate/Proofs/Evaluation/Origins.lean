import TagTemplate.Proofs.Evaluation.Naming

/-!
Where an error comes from.

An error that ends an evaluation was made by the engine or raised by a handler, and has then
crossed bodies, requests of other handlers, texts that are expanded again and replays.  `Arises`
follows it from the end of the evaluation back to its source: it holds of no other error than
the one the evaluation ends with, and of that error for some source.
-/

namespace TagTemplate

/-- The expansions that a program requests, each with the engine that it is requested on. -/
def Program.requests (host : Host Id) : Program → Engine → List (Request × Engine)
  | .done _, _ | .fail _, _ => []
  | .inspect next, engine => (next engine.view).requests host engine
  | .act action next, engine =>
    let (answer, engine) := action.perform engine
    (next answer).requests host engine
  | .expand text next, engine =>
    let (answer, after) := Evaluation.on (host.expand text) engine
    (.expand text, engine) :: (next answer).requests host after
  | .render text next, engine =>
    let (answer, after) := Evaluation.on (host.render text) engine
    (.render text, engine) :: (next answer).requests host after
  | .evaluate next, engine =>
    let (answer, after) := Evaluation.on host.evaluate engine
    (.evaluate, engine) :: (next answer).requests host after
  | .register name handler convention next, engine =>
    let (answer, engine) := engine.register name ⟨handler, convention, false⟩
    (next answer).requests host engine
  | .setAutoload autoload next, engine => next.requests host (engine.setAutoload autoload)
termination_by structural program => program

/-- The expansions that a call of a handler requests. -/
def Binding.requests (host : Host Id) (binding : Binding) (call : TagCall) (engine : Engine) :
    List (Request × Engine) :=
  (binding.handler call).requests host (engine.record
    [.called call binding.builtIn engine.depth engine.callStack.depth])

/-- What an evaluation may be at work on. -/
inductive Site where
  | text (source : String)
  | range (document : Document) (start stop : Nat)
  | items (document : Document) (items : List Item)
  /-- a call that is recorded already -/
  | invoked (invocation : Invocation)
  /-- a handler, and its output where that is expanded again -/
  | served (binding : Binding) (call : TagCall)
  /-- deferred calls over an output -/
  | batch (entries : List DeferredCall) (output : String)
  | replay (batches : Nat) (output : String)
  | underway (batches : Nat) (document : Document)

/-- What is done at a site while a number of levels may be opened. -/
def Site.evaluation (levels : Nat) : Site → Evaluation String
  | .text source => Evaluation.text (Evaluation.range levels) source
  | .range document start stop => Evaluation.range levels document start stop
  | .items document list => Evaluation.items (Evaluation.range levels) document list
  | .invoked invocation => invocation.run (Evaluation.range levels)
  | .served binding call => do
    let output ← binding.runNamed (Evaluation.host (Evaluation.range levels)) call
    Evaluation.again (Evaluation.range levels) binding.convention output
  | .batch entries output =>
    entries.foldlM (Evaluation.replayOne (Evaluation.range levels)) output
  | .replay batches output => Evaluation.replayed (Evaluation.range levels) batches output
  | .underway batches document => Evaluation.underway (Evaluation.range levels) batches document

/-- Where a request of a handler is carried out. -/
def Request.site (engine : Engine) : Request → Site
  | .evaluate => .range engine.document 0 engine.document.size
  | .expand source | .render source => .text source

/-- What an error comes from. -/
inductive Source where
  /-- the engine has made it -/
  | engine (made : TemplateError)
  /-- the handler has raised it when it was given the call -/
  | handler (binding : Binding) (call : TagCall) (raised : TemplateError)

namespace Evaluation

/-- The evaluation of a site ends with an error that comes from a source.  A handler that returns
the error of an expansion it has requested passes it on; any other error it raises itself. -/
inductive Arises : Nat → Site → Engine → TemplateError → Source → Prop where
  | unparsed {levels engine error} {text : String} (failed : engine.parse text = .error error) :
      Arises levels (.text text) engine error (.engine error)
  | parsed {levels engine error source} {text : String} {document : Document}
      (parsed : engine.parse text = .ok document)
      (inside : Arises levels (.range document 0 document.size) engine error source) :
      Arises levels (.text text) engine error source
  | limit {engine} (document : Document) (start stop : Nat) :
      Arises 0 (.range document start stop) engine (.recursionLimit engine.settings.maxDepth)
        (.engine (.recursionLimit engine.settings.maxDepth))
  | level {levels engine error source} {document : Document} {start stop : Nat}
      (inside : Arises levels (.items document (document.outline start stop)) (enter engine)
        error source) :
      Arises (levels + 1) (.range document start stop) engine error source
  | met {levels engine middle error} {document : Document} {first : Item} {rest : List Item}
      (failed : first.meet document engine = (.error error, middle)) :
      Arises levels (.items document (first :: rest)) engine error (.engine error)
  | invoked {levels engine middle error source} {document : Document} {first : Item}
      {rest : List Item} {invocation : Invocation}
      (met : first.meet document engine = (.ok (.invoked invocation), middle))
      (inside : Arises levels (.invoked invocation) (recordCall invocation.tag.name middle)
        error source) :
      Arises levels (.items document (first :: rest)) engine error source
  | behind {levels engine middle error source} {document : Document} {first : Item}
      {rest : List Item} {head : String}
      (ended : (item (range levels) document first).on engine = (.ok head, middle))
      (later : Arises levels (.items document rest) middle error source) :
      Arises levels (.items document (first :: rest)) engine error source
  | body {levels engine error source} {invocation : Invocation} {closer : Nat}
      (closed : invocation.closer = some closer)
      (evaluated : invocation.convention.rawBody = false)
      (inside : Arises levels (.range invocation.document (invocation.index + 1) closer)
        (invocation.reserve engine).2 error source) :
      Arises levels (.invoked invocation) engine error source
  | undecoded {levels engine middle error} {invocation : Invocation} {body : Option String}
      (bodied : (bodyText (range levels) invocation.document invocation.convention
        invocation.index invocation.closer).on (invocation.reserve engine).2 = (.ok body, middle))
      (failed : invocation.call middle.settings body = .error error) :
      Arises levels (.invoked invocation) engine error (.engine error)
  | called {levels engine middle error source} {invocation : Invocation} {body : Option String}
      {call : TagCall}
      (bodied : (bodyText (range levels) invocation.document invocation.convention
        invocation.index invocation.closer).on (invocation.reserve engine).2 = (.ok body, middle))
      (given : invocation.call middle.settings body = .ok call)
      (immediate : invocation.convention.deferred = false)
      (inside : Arises levels (.served invocation.binding call) middle error source) :
      Arises levels (.invoked invocation) engine error source
  -- No expansion that the handler has requested has ended with this error.
  | raised {levels engine error} {binding : Binding} {call : TagCall}
      (failed : (Evaluation.on (binding.run (host (range levels)) call) engine).1 = .error error)
      (own : ∀ request asked,
        (request, asked) ∈ binding.requests (host (range levels)) call engine →
        (Evaluation.on ((host (range levels)).answer request) asked).1 ≠ .error error) :
      Arises levels (.served binding call) engine (error.attributedTo call.name)
        (.handler binding call error)
  | passed {levels engine asked error source} {binding : Binding} {call : TagCall}
      {request : Request}
      (failed : (Evaluation.on (binding.run (host (range levels)) call) engine).1 = .error error)
      (requested : (request, asked) ∈ binding.requests (host (range levels)) call engine)
      (inside : Arises levels (request.site asked) asked error source) :
      Arises levels (.served binding call) engine (error.attributedTo call.name) source
  | redone {levels engine middle error source} {binding : Binding} {call : TagCall}
      {output : String}
      (returned : Evaluation.on (binding.runNamed (host (range levels)) call) engine =
        (.ok output, middle))
      (redo : binding.convention.redo = true)
      (inside : Arises levels (.text output) middle error source) :
      Arises levels (.served binding call) engine error source
  -- A deferred call knows the output of the document so far.
  | replaying {levels engine error source} {entry : DeferredCall} {rest : List DeferredCall}
      {output : String}
      (inside : Arises levels (.served entry.binding { entry.call with document := some output })
        engine error source) :
      Arises levels (.batch (entry :: rest) output) engine error source
  | replayed {levels engine middle error source} {entry : DeferredCall}
      {rest : List DeferredCall} {output text : String}
      (ended : (replayOne (range levels) output entry).on engine = (.ok text, middle))
      (later : Arises levels (.batch rest text) middle error source) :
      Arises levels (.batch (entry :: rest) output) engine error source
  | batch {levels engine error source} {batches : Nat} {output : String}
      (inside : Arises levels (.batch engine.deferred.entries output) (drained engine)
        error source) :
      Arises levels (.replay (batches + 1) output) engine error source
  | next {levels engine middle error source} {batches : Nat} {output text : String}
      (ended : (engine.deferred.entries.foldlM (replayOne (range levels)) output).on
        (drained engine) = (.ok text, middle))
      (later : Arises levels (.replay batches text) middle error source) :
      Arises levels (.replay (batches + 1) output) engine error source
  | main {levels engine error source} {batches : Nat} {document : Document}
      (inside : Arises levels (.range document 0 document.size) engine error source) :
      Arises levels (.underway batches document) engine error source
  | replay {levels engine middle error source} {batches : Nat} {document : Document}
      {output : String}
      (ended : (whole (range levels) document).on engine = (.ok output, middle))
      (later : Arises levels (.replay batches output) middle error source) :
      Arises levels (.underway batches document) engine error source

section Ends

variable {α β : Type} {x : Evaluation α} {f : α → Evaluation β} {engine middle : Engine}
  {error : TemplateError} {level : Level} {invocation : Invocation} {body : Option String} {a : α}

theorem bind_fails_iff :
    ((x >>= f).on engine).1 = .error error ↔ (x.on engine).1 = .error error ∨
      ∃ a middle, x.on engine = (.ok a, middle) ∧ ((f a).on middle).1 = .error error := by
  rw [on_bind]
  rcases x.on engine with ⟨failed | a, middle⟩
  · simp
  · simp [proceed]

theorem bind_fails (failed : (x.on engine).1 = .error error) :
    ((x >>= f).on engine).1 = .error error :=
  bind_fails_iff.mpr (.inl failed)

theorem bind_fails_behind (ended : x.on engine = (.ok a, middle))
    (failed : ((f a).on middle).1 = .error error) : ((x >>= f).on engine).1 = .error error :=
  bind_fails_iff.mpr (.inr ⟨a, middle, ended, failed⟩)

theorem runNamed_fails_iff {host : Host Id} {binding : Binding} {call : TagCall} :
    (Evaluation.on (binding.runNamed host call) engine).1 = .error error ↔
      ∃ raised, (Evaluation.on (binding.run host call) engine).1 = .error raised ∧
        raised.attributedTo call.name = error := by
  rw [on_runNamed]
  cases (Evaluation.on (binding.run host call) engine).1 <;> simp [Except.mapError]

theorem run_fails_behind_body
    (bodied : (bodyText level invocation.document invocation.convention invocation.index
      invocation.closer).on (invocation.reserve engine).2 = (.ok body, middle))
    (failed : ((invocation.conclude level (invocation.reserve engine).1 body).on middle).1 =
      .error error) : ((invocation.run level).on engine).1 = .error error :=
  bind_fails_behind (on_step _) (bind_fails_behind bodied failed)

end Ends

/-- An error arises only where the evaluation ends with it. -/
theorem Arises.ends {levels : Nat} {site : Site} {engine : Engine} {error : TemplateError}
    {source : Source} (arises : Arises levels site engine error source) :
    ((site.evaluation levels).on engine).1 = .error error := by
  induction arises with
  | unparsed failed => simp [Site.evaluation, text, failed]
  | parsed parsed _ ih => exact bind_fails_behind (Prod.ext parsed rfl) ih
  | limit document start stop => rfl
  | level _ ih => exact ih
  | met failed => simp [Site.evaluation, items, on_item, failed]
  | invoked met _ ih =>
      refine bind_fails ?_
      rw [on_item, met]
      exact ih
  | behind ended _ ih => exact bind_fails_behind ended (bind_fails ih)
  | body closed evaluated _ ih =>
      refine bind_fails_behind (on_step _) (bind_fails ?_)
      rw [closed, bodyText, evaluated]
      exact bind_fails ih
  | undecoded bodied failed =>
      refine run_fails_behind_body bodied ?_
      simp [Invocation.conclude, failed]
  | called bodied given immediate _ ih =>
      refine run_fails_behind_body bodied ?_
      rw [Invocation.conclude, on_bind, on_get, proceed_ok, on_bind, on_settle, given, proceed_ok]
      simp only [Invocation.reserve, immediate, Bool.false_eq_true, if_false]
      exact ih
  | raised failed _ | passed failed _ _ _ =>
      exact bind_fails (runNamed_fails_iff.mpr ⟨_, failed, rfl⟩)
  | redone returned redo _ ih =>
      refine bind_fails_behind returned ?_
      rw [again, if_pos redo]
      exact ih
  | replaying _ ih => exact bind_fails ih
  | replayed ended _ ih => exact bind_fails_behind ended ih
  | batch _ ih => exact bind_fails_behind on_drain (bind_fails ih)
  | next ended _ ih => exact bind_fails_behind on_drain (bind_fails_behind ended ih)
  | main _ ih => exact bind_fails ih
  | replay ended _ ih => exact bind_fails_behind ended ih

/-- Whatever ends the evaluation of a range arises. -/
def Traced (levels : Nat) : Prop :=
  ∀ document start stop engine error,
    ((range levels document start stop).on engine).1 = .error error →
    ∃ source, Arises levels (.range document start stop) engine error source

namespace Traced

variable {levels : Nat} {engine : Engine} {error : TemplateError}

theorem text (traced : Traced levels) {source : String}
    (failed : ((Evaluation.text (range levels) source).on engine).1 = .error error) :
    ∃ origin, Arises levels (.text source) engine error origin := by
  rcases bind_fails_iff.mp failed with unparsed | ⟨document, middle, parsed, failed⟩
  · exact ⟨_, .unparsed unparsed⟩
  · obtain ⟨found, rfl⟩ := Prod.mk.inj parsed
    obtain ⟨origin, inside⟩ := traced _ _ _ _ _ failed
    exact ⟨origin, .parsed found inside⟩

theorem request (traced : Traced levels) {request : Request}
    (failed : (Evaluation.on ((host (range levels)).answer request) engine).1 = .error error) :
    ∃ origin, Arises levels (request.site engine) engine error origin := by
  cases request with
  | evaluate => exact traced _ _ _ _ _ failed
  | expand source | render source => exact traced.text failed

theorem served (traced : Traced levels) {binding : Binding} {call : TagCall}
    (failed : (((Site.served binding call).evaluation levels).on engine).1 = .error error) :
    ∃ origin, Arises levels (.served binding call) engine error origin := by
  rcases bind_fails_iff.mp failed with named | ⟨output, middle, returned, failed⟩
  · obtain ⟨raised, ran, rfl⟩ := runNamed_fails_iff.mp named
    by_cases passed : ∃ request asked,
        (request, asked) ∈ binding.requests (host (range levels)) call engine ∧
        (Evaluation.on ((host (range levels)).answer request) asked).1 = .error raised
    · obtain ⟨request, asked, requested, answered⟩ := passed
      obtain ⟨origin, inside⟩ := traced.request answered
      exact ⟨origin, .passed ran requested inside⟩
    · exact ⟨_, .raised ran fun request asked requested answered =>
        passed ⟨request, asked, requested, answered⟩⟩
  · by_cases redo : binding.convention.redo
    · rw [again, if_pos redo] at failed
      obtain ⟨origin, inside⟩ := traced.text failed
      exact ⟨origin, .redone returned redo inside⟩
    · rw [again, if_neg redo] at failed
      cases failed

theorem invoked (traced : Traced levels) {invocation : Invocation}
    (failed : ((invocation.run (range levels)).on engine).1 = .error error) :
    ∃ origin, Arises levels (.invoked invocation) engine error origin := by
  rw [Invocation.run, on_bind, on_step, proceed_ok] at failed
  rcases bind_fails_iff.mp failed with unbodied | ⟨body, middle, bodied, failed⟩
  · cases closed : invocation.closer with
    | none =>
        rw [closed] at unbodied
        cases unbodied
    | some closer =>
        rw [closed, bodyText] at unbodied
        cases evaluated : invocation.convention.rawBody with
        | true =>
            rw [evaluated] at unbodied
            cases unbodied
        | false =>
            simp only [evaluated, Bool.false_eq_true, if_false] at unbodied
            rcases bind_fails_iff.mp unbodied with inner | ⟨_, _, _, returned⟩
            · obtain ⟨origin, inside⟩ := traced _ _ _ _ _ inner
              exact ⟨origin, .body closed evaluated inside⟩
            · cases returned
  · rw [Invocation.conclude, on_bind, on_get, proceed_ok, on_bind, on_settle] at failed
    cases given : invocation.call middle.settings body with
    | error fault =>
        rw [given] at failed
        cases failed
        exact ⟨_, .undecoded bodied given⟩
    | ok call =>
        rw [given, proceed_ok] at failed
        cases immediate : invocation.convention.deferred with
        | true =>
            simp only [Invocation.reserve, immediate, if_true] at failed
            cases failed
        | false =>
            simp only [Invocation.reserve, immediate, Bool.false_eq_true, if_false] at failed
            obtain ⟨origin, inside⟩ := traced.served failed
            exact ⟨origin, .called bodied given immediate inside⟩

theorem items (traced : Traced levels) {document : Document} {list : List Item}
    (failed : ((Evaluation.items (range levels) document list).on engine).1 = .error error) :
    ∃ origin, Arises levels (.items document list) engine error origin := by
  induction list generalizing engine with
  | nil => cases failed
  | cons first rest ih =>
      rcases bind_fails_iff.mp failed with here | ⟨head, middle, ended, failed⟩
      · rw [on_item] at here
        rcases met : first.meet document engine with ⟨fault | text | invocation, middle⟩ <;>
          rw [met] at here
        · cases here
          exact ⟨_, .met met⟩
        · cases here
        · obtain ⟨origin, inside⟩ := traced.invoked here
          exact ⟨origin, .invoked met inside⟩
      · rcases bind_fails_iff.mp failed with later | ⟨_, _, _, returned⟩
        · obtain ⟨origin, inside⟩ := ih later
          exact ⟨origin, .behind ended inside⟩
        · cases returned

theorem batch (traced : Traced levels) {entries : List DeferredCall} {output : String}
    (failed : (Evaluation.on (entries.foldlM (replayOne (range levels)) output) engine).1 =
      .error error) :
    ∃ origin, Arises levels (.batch entries output) engine error origin := by
  induction entries generalizing output engine with
  | nil => cases failed
  | cons entry rest ih =>
      rcases bind_fails_iff.mp failed with here | ⟨text, middle, ended, failed⟩
      · obtain ⟨origin, inside⟩ := traced.served here
        exact ⟨origin, .replaying inside⟩
      · obtain ⟨origin, inside⟩ := ih failed
        exact ⟨origin, .replayed ended inside⟩

theorem replay (traced : Traced levels) {batches : Nat} {output : String}
    (failed : ((replayed (range levels) batches output).on engine).1 = .error error) :
    ∃ origin, Arises levels (.replay batches output) engine error origin := by
  induction batches generalizing output engine with
  | zero => cases failed
  | succ batches ih =>
      rw [replayed, on_bind, on_drain, proceed_ok] at failed
      rcases bind_fails_iff.mp failed with here | ⟨text, middle, ended, failed⟩
      · obtain ⟨origin, inside⟩ := traced.batch here
        exact ⟨origin, .batch inside⟩
      · obtain ⟨origin, inside⟩ := ih failed
        exact ⟨origin, .next ended inside⟩

theorem underway (traced : Traced levels) {batches : Nat} {document : Document}
    (failed : ((Evaluation.underway (range levels) batches document).on engine).1 =
      .error error) :
    ∃ origin, Arises levels (.underway batches document) engine error origin := by
  rcases bind_fails_iff.mp failed with here | ⟨output, middle, ended, failed⟩
  · obtain ⟨origin, inside⟩ := traced _ _ _ _ _ here
    exact ⟨origin, .main inside⟩
  · obtain ⟨origin, inside⟩ := traced.replay failed
    exact ⟨origin, .replay ended inside⟩

end Traced

theorem traced (levels : Nat) : Traced levels := by
  induction levels with
  | zero =>
      intro document start stop engine error failed
      cases failed
      exact ⟨_, .limit document start stop⟩
  | succ levels ih =>
      intro document start stop engine error failed
      obtain ⟨origin, inside⟩ := ih.items failed
      exact ⟨origin, .level inside⟩

end Evaluation

end TagTemplate
