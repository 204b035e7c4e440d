import TagTemplate.Proofs.Evaluation.KeptText
import TagTemplate.Proofs.Evaluation.Origins

/-!
The tags of handler errors.

The call in which a handler raises an error names it, if the handler has not.  No other call that
the error crosses names it again, and an error that the engine has made is not named at all.
-/

namespace TagTemplate

namespace TemplateError

def isHandler : TemplateError → Bool
  | .handler _ _ => true
  | _ => false

theorem attributedTo_of_named {error : TemplateError}
    (named : ∀ message, error ≠ .handler "" message) (name : String) :
    error.attributedTo name = error := by
  cases error with
  | handler tag message =>
      have given : tag ≠ "" := by
        rintro rfl
        exact named message rfl
      simp [attributedTo, String.isEmpty_iff, given]
  | _ => rfl

end TemplateError

theorem Document.isHandler_of_parse {d : Delimiters} {source : String} {error : TemplateError}
    (failed : parse d source = .error error) : error.isHandler = false := by
  have pairing := Pairing.pairTags_eq_machine (d.tokenize source).toArray d
  split at pairing
  · simp [parse, pairing, bind, Except.bind, pure, Except.pure] at failed
  · obtain ⟨outer, inner, crossed⟩ := pairing
    simp only [parse, crossed, bind, Except.bind, Except.error.injEq] at failed
    rw [← failed]
    rfl

theorem Invocation.isHandler_of_call {invocation : Invocation} {settings : Settings}
    {body : Option String} {error : TemplateError}
    (failed : invocation.call settings body = .error error) : error.isHandler = false := by
  rw [call_eq, Evaluation.decoded] at failed
  generalize (Evaluation.sides invocation.resolved invocation.closer.isSome body).2 = given
    at failed
  cases given with
  | none => cases failed
  | some text =>
      simp only [Evaluation.decodedBody] at failed
      cases read : Shape.decodeBody settings.shapes invocation.resolved.binding.convention.bodyShape
        text <;> rw [read] at failed <;> cases failed
      rfl

theorem Item.isHandler_of_meet {item : Item} {document : Document} {engine middle : Engine}
    {error : TemplateError} (still : engine.registry.autoload = none)
    (failed : item.meet document engine = (.error error, middle)) : error.isHandler = false := by
  cases item with
  | text | dangling => cases failed
  | unresolved tag =>
      cases failed
      rfl
  | call index tag closer =>
      simp only [meet, Engine.resolve_of_still still] at failed
      cases found : engine.registry.bindings.find? tag.name tag.param with
      | none =>
          rw [found] at failed
          simp only [Evaluation.unknownText] at failed
          cases policy : engine.settings.unknownTag <;> rw [policy] at failed <;> cases failed
          rfl
      | some resolved =>
          rw [found] at failed
          simp only [Evaluation.checked] at failed
          cases permitted : Evaluation.callViolation resolved.binding.convention resolved.param
            closer.isSome <;> rw [permitted] at failed <;> cases failed
          rfl

/-- What an error is, given its source: what the engine has made is not a handler error, and what
a handler has raised is named after the call, unless it has a name or is no handler error. -/
def Source.Explains (holds : Registry → Prop) (error : TemplateError) : Source → Prop
  | .engine made => error = made ∧ made.isHandler = false
  | .handler binding call raised =>
    binding.FoundAs holds call.name ∧ call.name ≠ "" ∧
      (∀ message, raised = .handler "" message → error = .handler call.name message) ∧
      ((∀ message, raised ≠ .handler "" message) → error = raised)

/-- What a site is given belongs to documents whose tags are paired, and to calls that bear the
names of their bindings. -/
def Site.Named (holds : Registry → Prop) : Site → Prop
  | .text _ | .replay _ _ => True
  | .range document _ _ | .underway _ document => document.Paired
  | .items document list => document.Paired ∧
    ∀ index tag closer, .call index tag closer ∈ list → tag.isClose = false
  | .invoked invocation => invocation.Named holds ∧ invocation.document.Paired
  | .served binding call => binding.FoundAs holds call.name
  | .batch entries _ => ∀ entry ∈ entries, entry.binding.FoundAs holds entry.call.name

namespace Source.Explains

variable {holds : Registry → Prop} {error : TemplateError} {source : Source}

theorem named (explains : source.Explains holds error) :
    ∀ message, error ≠ .handler "" message := by
  rintro message rfl
  cases source with
  | engine made =>
      obtain ⟨rfl, unraised⟩ := explains
      cases unraised
  | handler binding call raised =>
      obtain ⟨-, given, unnamed, kept⟩ := explains
      by_cases nameless : ∃ other, raised = .handler "" other
      · obtain ⟨other, same⟩ := nameless
        exact given (TemplateError.handler.inj (unnamed other same)).1.symm
      · have same := kept fun other equal => nameless ⟨other, equal⟩
        exact nameless ⟨message, same.symm⟩

theorem mono {weaker : Registry → Prop} (explains : source.Explains holds error)
    (implies : ∀ registry, holds registry → weaker registry) : source.Explains weaker error := by
  cases source with
  | engine made => exact explains
  | handler binding call raised =>
      obtain ⟨found, rest⟩ := explains
      exact ⟨found.mono implies, rest⟩

/-- The call in which a handler raises an error names it. -/
theorem of_raised {binding : Binding} {call : TagCall} (found : binding.FoundAs holds call.name)
    (still : ∀ registry, holds registry → registry.autoload = none) (raised : TemplateError) :
    (Source.handler binding call raised).Explains holds (raised.attributedTo call.name) := by
  refine ⟨found, found.name_ne still, ?_, fun named => raised.attributedTo_of_named named _⟩
  rintro message rfl
  rfl

end Source.Explains

namespace Request

variable {engine opened : Engine} {request : Request} {document : Document}

theorem named_site {holds : Registry → Prop} (named : engine.Named holds) (request : Request) :
    (request.site engine).Named holds := by
  cases request with
  | evaluate => exact named.paired
  | expand source | render source => trivial

theorem isHandler_of_target {error : TemplateError}
    (failed : request.target engine = .error error) : error.isHandler = false := by
  cases request with
  | evaluate => cases failed
  | expand source | render source =>
      simp only [target] at failed
      cases parsed : engine.parse source <;> rw [parsed] at failed <;> cases failed
      exact Document.isHandler_of_parse parsed

/-- What is expanded is paired, and so is what is loaded meanwhile. -/
theorem paired_of_target (parsed : engine.Parsed)
    (found : request.target engine = .ok (document, opened)) :
    document.Paired ∧ opened.document.Paired ∧ opened.registry = engine.registry := by
  have loaded : engine.document.Paired := Document.IsParsed.nested parsed
  cases request with
  | evaluate =>
      cases found
      exact ⟨loaded, loaded, rfl⟩
  | expand source =>
      simp only [target] at found
      cases read : engine.parse source <;> rw [read] at found <;> cases found
      exact ⟨Document.paired_of_parse read, loaded, rfl⟩
  | render source =>
      simp only [target] at found
      cases read : engine.parse source <;> rw [read] at found <;> cases found
      exact ⟨Document.paired_of_parse read, Document.paired_of_parse read, rfl⟩

end Request

namespace Evaluation

variable {holds : Registry → Prop} {engine asked : Engine}

/-- A handler requests expansions where calls wait under their names. -/
theorem NamesLevel.requests {level : Level} (names : NamesLevel holds level) {program : Program}
    (keeps : program.Keeps holds) (named : engine.Named holds) {request : Request}
    (member : (request, asked) ∈ program.requests (host level) engine) : asked.Named holds := by
  induction keeps generalizing engine with
  | done text | fail error => cases member
  | inspect _ ih => exact ih _ named member
  | act acts _ ih => exact ih _ (named.perform _ acts) member
  | expand _ ih | render _ ih =>
      rcases List.mem_cons.mp member with same | later
      · cases same
        exact named
      · exact ih _ (names.text _ engine _ _ rfl named) later
  | evaluate _ ih =>
      rcases List.mem_cons.mp member with same | later
      · cases same
        exact named
      · exact ih _ (names _ _ _ named.paired engine _ _ rfl named) later
  | @register name handler convention next registers _ ih =>
      have registered : (engine.register name ⟨handler, convention, false⟩).2.Named holds :=
        ⟨registers _ named.held, named.paired, named.queued⟩
      exact ih _ registered member
  | @setAutoload autoload next installs _ ih =>
      have installed : (engine.setAutoload autoload).Named holds :=
        ⟨installs _ named.held, named.paired, named.queued⟩
      exact ih installed member

/-- Wherever an error arises in a registry without autoload, its source explains it: every layer
that it crosses leaves it as it is. -/
theorem Arises.explained {levels : Nat} {site : Site} {error : TemplateError} {source : Source}
    (arises : Arises levels site engine error source) (kept : Registry.Keeps holds)
    (still : ∀ registry, holds registry → registry.autoload = none) (named : engine.Named holds)
    (given : site.Named holds) : source.Explains holds error := by
  induction arises with
  | unparsed failed => exact ⟨rfl, Document.isHandler_of_parse failed⟩
  | parsed parsed _ ih => exact ih named (Document.paired_of_parse parsed)
  | limit document start stop => exact ⟨rfl, rfl⟩
  | level _ ih =>
      exact ih ⟨named.held, named.paired, named.queued⟩
        ⟨given, fun _ _ _ member => Document.Paired.isClose_of_mem_outline given member⟩
  | met failed => exact ⟨rfl, Item.isHandler_of_meet (still _ named.held) failed⟩
  | @invoked _ engine middle _ _ document first _ invocation met _ ih =>
      have reached := Item.meet_named kept named document first
      rw [met] at reached
      obtain ⟨rfl, callee⟩ := Item.named_of_meet named.held
        (fun index tag closer same => given.2 index tag closer (same ▸ .head _))
        (congrArg Prod.fst met)
      exact ih ⟨reached.held, reached.paired, reached.queued⟩ ⟨callee, given.1⟩
  | behind ended _ ih =>
      obtain ⟨paired, opens⟩ := given
      have moved := (namesLevel_range kept _).item kept paired
        (fun index tag closer same => opens index tag closer (same ▸ .head _)) _ _ _ ended named
      exact ih moved
        ⟨paired, fun index tag closer member => opens index tag closer (.tail _ member)⟩
  | body closed evaluated _ ih => exact ih (named.reserve _) given.2
  | undecoded bodied failed => exact ⟨rfl, Invocation.isHandler_of_call failed⟩
  | called bodied decoded immediate _ ih =>
      have moved := (namesLevel_range kept _).bodyText given.2 _ _ _ _ _ _ bodied (named.reserve _)
      refine ih moved ?_
      rw [Site.Named, (decoded_eq_ok_iff.mp decoded).1]
      exact given.1.foundAs
  | raised failed own => exact .of_raised given still _
  | @passed _ engine _ _ _ binding call request failed requested _ ih =>
      have noted : (engine.record
          [.called call binding.builtIn engine.depth engine.callStack.depth]).Named holds :=
        ⟨named.held, named.paired, named.queued⟩
      have moved := (namesLevel_range kept _).requests (given.keeps kept call) noted requested
      have explains := ih moved (Request.named_site moved request)
      -- The error bears a name already, so this call does not name it again.
      rwa [TemplateError.attributedTo_of_named explains.named]
  | redone returned redo _ ih =>
      exact ih ((namesLevel_range kept _).runNamed kept given _ _ _ _ returned named) trivial
  | replaying _ ih => exact ih named (given _ (.head _))
  | replayed ended _ ih =>
      obtain ⟨here, behind⟩ := List.forall_mem_cons.mp given
      exact ih ((namesLevel_range kept _).replayOne kept here _ _ _ _ ended named) behind
  | batch _ ih => exact ih named.drained named.queued
  | next ended _ ih =>
      exact ih ((namesLevel_range kept _).foldlM_replayOne kept named.queued _ _ _ _ ended
        named.drained) trivial
  | main _ ih => exact ih named given
  | replay ended _ ih =>
      exact ih (namesLevel_range kept _ _ _ _ given _ _ _ ended named) trivial

end Evaluation

open Evaluation (Arises traced)

/-- An error that a request from outside returns is no handler error without a tag.  Either the
text of the request cannot be matched, or the error arises from a source, and from whatever source
it arises, the source explains it: a handler error that was raised without a tag bears the name of
the call in which it was raised, and that is the name which the binding was found under in some
registry that requests of handlers lead to; its text is the one that was raised, and every other
error is the one that was made or raised. -/
theorem handler_errors_attributed {engine after : Engine} (reachable : engine.Reachable)
    (still : engine.registry.Still) {batches : Nat} {request : Request} {error : TemplateError}
    (ran : ((Expansion.host batches).answer request).run engine = some (.error error, after)) :
    (∀ message, error ≠ .handler "" message) ∧
    (request.target engine = .error error ∧ error.isHandler = false ∨
      ∃ document opened, request.target engine = .ok (document, opened) ∧
        (∃ source, Arises engine.settings.maxDepth (.underway batches document)
          (Expansion.begin opened) error source) ∧
        ∀ other source, Arises engine.settings.maxDepth (.underway batches document)
          (Expansion.begin opened) other source → other = error ∧
          ∀ holds, Registry.Keeps holds → holds engine.registry →
            source.Explains holds error) := by
  have atRest := reachable.atRest
  rw [Expansion.run_answer batches request atRest.idle.evaluating] at ran
  cases found : request.target engine with
  | error failed =>
      rw [found] at ran
      cases ran
      have unraised := Request.isHandler_of_target found
      refine ⟨?_, .inl ⟨rfl, unraised⟩⟩
      rintro message rfl
      cases unraised
  | ok target =>
      obtain ⟨document, opened⟩ := target
      rw [found] at ran
      obtain ⟨-, settings, -⟩ := atRest.target found
      obtain ⟨paired, loaded, registry⟩ := Request.paired_of_target atRest.parsed found
      have failed := (Evaluation.underway_of_run ran).1.symm
      rw [settings] at failed
      -- The registry has no autoload callback, whatever else is known of it.
      have explained : ∀ holds, Registry.Keeps holds → holds engine.registry → ∀ source,
          Arises engine.settings.maxDepth (.underway batches document) (Expansion.begin opened)
            error source → source.Explains holds error := by
        intro holds kept held source arises
        have begun : (Expansion.begin opened).Named fun registry =>
            holds registry ∧ registry.Still := by
          refine ⟨?_, loaded, fun _ member => by cases member⟩
          exact registry ▸ ⟨held, still⟩
        have explains := arises.explained (kept.and Registry.keeps_still)
          (fun _ held => held.2.autoload) begun paired
        exact explains.mono fun _ held => held.1
      obtain ⟨source, arises⟩ := (traced _).underway failed
      refine ⟨(explained _ Registry.keeps_still still source arises).named,
        .inr ⟨document, opened, rfl, ⟨source, arises⟩, ?_⟩⟩
      intro other origin arose
      have same : other = error := Except.error.inj (arose.ends.symm.trans failed)
      rw [same] at arose ⊢
      exact ⟨rfl, fun holds kept held => explained holds kept held origin arose⟩

/-- A tag whose handler always fails, and a deferred tag whose handler expands it and passes its
error on. -/
def Registry.relaying : Registry :=
  ⟨⟨":", [("inner", ⟨fun _ => .fail (.raised "broken"), .default, false⟩),
    ("outer", ⟨fun _ => .expand "\x7binner:\x7d" fun
      | .ok text => .done text
      | .error error => .fail error, { deferred := true, redo := true }, false⟩)]⟩, none⟩

theorem Registry.still_relaying : Registry.relaying.Still where
  autoload := rfl
  bindings := by
    intro name binding member
    simp only [relaying, List.mem_cons, Prod.mk.injEq, List.not_mem_nil, or_false] at member
    rcases member with ⟨-, rfl⟩ | ⟨-, rfl⟩ <;> intro call
    · exact .fail _
    · refine .expand fun answer => ?_
      cases answer with
      | ok text => exact .done text
      | error error => exact .fail error

/-- The error crosses the handler of another tag in a replay, and bears the name of its own. -/
theorem handler_errors_attributed_relayed :
    (Engine.shallow .relaying).Reachable ∧ Registry.relaying.Still ∧
    ∃ after document opened source,
      ((Expansion.host 1).answer (.render "\x7bouter:\x7d")).run (.shallow .relaying) =
        some (.error (.handler "inner" "broken"), after) ∧
      Arises 3 (.underway 1 document) (Expansion.begin opened) (.handler "inner" "broken") source ∧
      source.Explains Registry.Still (.handler "inner" "broken") := by
  have reachable := Engine.reachable_shallow .relaying
  have observed :
      (((Expansion.host 1).answer (.render "\x7bouter:\x7d")).run (.shallow .relaying)).map
        Prod.fst = some (.error (.handler "inner" "broken")) := by decide +kernel
  obtain ⟨⟨result, after⟩, ran, rfl⟩ := Option.map_eq_some_iff.mp observed
  obtain ⟨-, ⟨-, unraised⟩ | ⟨document, opened, -, ⟨source, arises⟩, explained⟩⟩ :=
    handler_errors_attributed reachable Registry.still_relaying ran
  · cases unraised
  · exact ⟨reachable, Registry.still_relaying, after, document, opened, source, ran, arises,
      (explained _ source arises).2 _ Registry.keeps_still Registry.still_relaying⟩

end TagTemplate
