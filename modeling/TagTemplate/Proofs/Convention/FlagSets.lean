import Mathlib.Data.List.Nodup
import Mathlib.Data.Set.List
import TagTemplate.Convention
import TagTemplate.Proofs.Cutting
import TagTemplate.Proofs.Stripping

/-!
Flags as sets.

A convention and the set of its flags determine each other.  So the order in which flags are added
and the repetition of a flag do not matter: a flag that contradicts the ones before it is refused
wherever it stands, and the others end in the convention that has just these flags.
-/

namespace TagTemplate

theorem Flag.mem_all (flag : Flag) : flag ∈ all := by
  cases flag <;> decide

namespace Convention

variable {c other : Convention} {flag : Flag} {flags : List Flag}

def has (c : Convention) : Flag → Bool
  | .noParam => c.param == .forbidden
  | .requireParam => c.param == .required
  | .noBody => c.body == .forbidden
  | .requireBody => c.body == .required
  | .text => c.rawBody
  | .redo => c.redo
  | .oneParam => c.oneParam
  | .kvBody => c.bodyShape == .keyValue
  | .jsonBody => c.bodyShape == .json
  | .listBody => c.bodyShape == .list
  | .csListBody => c.bodyShape == .commaList
  | .xmlBody => c.bodyShape == .xml
  | .paramList => c.paramShape == .list
  | .paramCsList => c.paramShape == .commaList
  | .postprocess => c.deferred

/-- The convention with a set of flags; it has no others, if they do not contradict each other. -/
def ofSet (set : Flag → Bool) : Convention where
  param := if set .noParam then .forbidden else if set .requireParam then .required else .optional
  body := if set .noBody then .forbidden else if set .requireBody then .required else .optional
  rawBody := set .text
  bodyShape :=
    if set .kvBody then .keyValue else if set .jsonBody then .json
    else if set .listBody then .list else if set .csListBody then .commaList
    else if set .xmlBody then .xml else .text
  paramShape :=
    if set .paramList then .list else if set .paramCsList then .commaList else .scalar
  oneParam := set .oneParam
  redo := set .redo
  deferred := set .postprocess

theorem ofSet_has (c : Convention) : ofSet c.has = c := by
  obtain ⟨param, body, rawBody, bodyShape, paramShape, oneParam, redo, deferred⟩ := c
  simp only [ofSet, has, Convention.mk.injEq, and_true, true_and]
  refine ⟨?_, ?_, ?_, ?_⟩
  · cases param <;> rfl
  · cases body <;> rfl
  · cases bodyShape <;> rfl
  · cases paramShape <;> rfl

/-- The flags stand in one order, each of them once. -/
theorem flags_eq_filter (c : Convention) : c.flags = Flag.all.filter c.has := by
  have groups : Flag.all = [[.noParam, .requireParam], [.noBody, .requireBody], [.text], [.redo],
    [.oneParam], [.kvBody, .jsonBody, .listBody, .csListBody, .xmlBody], [.paramList, .paramCsList],
    [.postprocess]].flatten := rfl
  obtain ⟨param, body, rawBody, bodyShape, paramShape, oneParam, redo, deferred⟩ := c
  rw [groups, List.filter_flatten]
  simp only [flags, List.append_assoc, List.map_cons, List.map_nil, List.flatten_cons,
    List.flatten_nil, List.append_nil]
  congr 7
  · cases param <;> rfl
  · cases body <;> rfl
  · cases rawBody <;> rfl
  · cases redo <;> rfl
  · cases oneParam <;> rfl
  · cases bodyShape <;> rfl
  · cases paramShape <;> rfl
  · cases deferred <;> rfl

theorem mem_flags_iff : flag ∈ c.flags ↔ c.has flag = true := by
  simp [flags_eq_filter, Flag.mem_all]

theorem eq_of_flags (same : ∀ flag, flag ∈ c.flags ↔ flag ∈ other.flags) : c = other := by
  have alike : c.has = other.has := by
    funext flag
    rw [Bool.eq_iff_iff, ← mem_flags_iff, ← mem_flags_iff, same]
  rw [← ofSet_has c, alike, ofSet_has]

section Settle

variable {α : Type} [DecidableEq α] {conflict : String} {value : α} {aspect : Option α}
  {put : Option α → Draft} {next : Draft}

theorem settles_iff : (do return put (← settle conflict value aspect)) = Except.ok next ↔
    (aspect = none ∨ aspect = some value) ∧ put (some value) = next := by
  unfold settle
  cases aspect with
  | none => simp [bind, Except.bind, pure, Except.pure]
  | some old =>
      by_cases same : old = value
      · simp [same, bind, Except.bind, pure, Except.pure]
      · simp [same, bind, Except.bind]

end Settle

namespace Draft

variable {draft next last : Draft}

/-- What is set in a draft is set alike in a convention. -/
structure Toward (c : Convention) (draft : Draft) : Prop where
  param : draft.param = none ∨ draft.param = some c.param
  body : draft.body = none ∨ draft.body = some c.body
  bodyShape : draft.bodyShape = none ∨ draft.bodyShape = some c.bodyShape
  paramShape : draft.paramShape = none ∨ draft.paramShape = some c.paramShape

theorem has_addFlag (added : draft.addFlag flag = .ok next) (other : Flag) :
    next.finish.has other = true ↔ other = flag ∨ draft.finish.has other = true := by
  cases flag with
  | noParam | requireParam | noBody | requireBody | kvBody | jsonBody | listBody | csListBody
  | xmlBody | paramList | paramCsList =>
      obtain ⟨free, rfl⟩ := settles_iff.mp added
      -- an aspect that was set before had the same value, so that no other flag goes
      rcases free with free | free <;> cases other <;> simp [has, finish, free]
  | text | redo | oneParam | postprocess =>
      cases added
      cases other <;> simp [has, finish]

theorem Toward.addFlag (toward : draft.Toward c) (set : c.has flag = true) :
    ∃ next, draft.addFlag flag = .ok next ∧ next.Toward c := by
  obtain ⟨param, body, bodyShape, paramShape⟩ := toward
  cases flag with
  | text | redo | oneParam | postprocess => exact ⟨_, rfl, param, body, bodyShape, paramShape⟩
  | noParam | requireParam =>
      have value := eq_of_beq set
      rw [value] at param
      exact ⟨_, settles_iff.mpr ⟨param, rfl⟩, .inr (by rw [value]), body, bodyShape, paramShape⟩
  | noBody | requireBody =>
      have value := eq_of_beq set
      rw [value] at body
      exact ⟨_, settles_iff.mpr ⟨body, rfl⟩, param, .inr (by rw [value]), bodyShape, paramShape⟩
  | kvBody | jsonBody | listBody | csListBody | xmlBody =>
      have value := eq_of_beq set
      rw [value] at bodyShape
      exact ⟨_, settles_iff.mpr ⟨bodyShape, rfl⟩, param, body, .inr (by rw [value]), paramShape⟩
  | paramList | paramCsList =>
      have value := eq_of_beq set
      rw [value] at paramShape
      exact ⟨_, settles_iff.mpr ⟨paramShape, rfl⟩, param, body, bodyShape, .inr (by rw [value])⟩

theorem has_foldlM (added : flags.foldlM addFlag draft = .ok last) (other : Flag) :
    last.finish.has other = true ↔ other ∈ flags ∨ draft.finish.has other = true := by
  induction flags generalizing draft with
  | nil =>
      cases added
      simp
  | cons flag flags ih =>
      cases first : draft.addFlag flag with
      | error _ => simp [List.foldlM, first, bind, Except.bind] at added
      | ok next =>
          have rest : flags.foldlM addFlag next = .ok last := by
            simpa [List.foldlM, first, bind, Except.bind] using added
          rw [ih rest, has_addFlag first, List.mem_cons]
          tauto

theorem Toward.foldlM (toward : draft.Toward c) (set : ∀ flag ∈ flags, c.has flag = true) :
    ∃ last, flags.foldlM Draft.addFlag draft = .ok last := by
  induction flags generalizing draft with
  | nil => exact ⟨draft, rfl⟩
  | cons flag flags ih =>
      obtain ⟨here, behind⟩ := List.forall_mem_cons.mp set
      obtain ⟨next, added, toward⟩ := toward.addFlag here
      obtain ⟨last, rest⟩ := ih toward behind
      exact ⟨last, by simpa [List.foldlM, added, bind, Except.bind] using rest⟩

end Draft

theorem ofFlags_eq_ok_iff : ofFlags flags = .ok c ↔
    c.validate = .ok () ∧ ∀ flag, flag ∈ c.flags ↔ flag ∈ flags := by
  have fresh (flag : Flag) : (Draft.finish {}).has flag = false := by cases flag <;> rfl
  constructor
  · intro made
    cases added : flags.foldlM Draft.addFlag {} with
    | error _ => simp [ofFlags, added, bind, Except.bind] at made
    | ok draft =>
        cases valid : draft.finish.validate with
        | error _ => simp [ofFlags, added, valid, bind, Except.bind] at made
        | ok _ =>
            have same : draft.finish = c := by
              simpa [ofFlags, added, valid, bind, Except.bind, pure, Except.pure] using made
            subst same
            refine ⟨valid, fun flag => ?_⟩
            rw [mem_flags_iff, Draft.has_foldlM added, fresh]
            simp
  · intro ⟨valid, same⟩
    have blank : Draft.Toward c {} := ⟨.inl rfl, .inl rfl, .inl rfl, .inl rfl⟩
    -- no flag of the convention that is aimed at is refused on the way to it
    obtain ⟨draft, added⟩ := blank.foldlM fun flag member => mem_flags_iff.mp ((same flag).mpr member)
    have made : draft.finish = c := by
      refine eq_of_flags fun flag => ?_
      rw [same, mem_flags_iff, Draft.has_foldlM added, fresh]
      simp
    simp [ofFlags, added, made, valid, bind, Except.bind, pure, Except.pure]

end Convention

namespace Flag

variable {flag : Flag} {word : String}

theorem name_injective : Function.Injective name := by
  have distinct : (all.map name).Nodup := by decide
  exact fun flag other => List.inj_on_of_nodup_map distinct (mem_all flag) (mem_all other)

theorem parse_eq_ok_iff : parse word = .ok flag ↔ upperAscii (Text.trim word) = flag.name := by
  simp only [parse]
  cases found : all.find? fun flag => flag.name == upperAscii (Text.trim word) with
  | none =>
      have other := List.find?_eq_none.mp found flag (mem_all flag)
      rw [beq_iff_eq] at other
      exact iff_of_false nofun (Ne.symm other)
  | some first =>
      have named : first.name = upperAscii (Text.trim word) := by
        simpa using List.find?_some found
      rw [← named, name_injective.eq_iff, Except.ok.injEq]

/-- A name is one part of a text of flags, and is read as it is written. -/
structure Plain (name : String) : Prop where
  uncut : '|' ∉ name.toList
  read : upperAscii (Text.trim name) = name
  given : name ≠ "" ∧ name ≠ "DEFAULT"

theorem plain (flag : Flag) : Plain flag.name := by
  cases flag <;> exact ⟨by decide, by decide, by decide⟩

end Flag

namespace Convention

variable {c : Convention} {flags : List Flag} {words : List String} {s : String}

/-- The names of flags in a text: between bars, trimmed, in upper case, without the word for no
flags. -/
def flagNames (s : String) : List String :=
  ((Text.split "|" s).map fun part => upperAscii (Text.trim part)).filter fun word =>
    word ≠ "" ∧ word ≠ "DEFAULT"

theorem map_flagWords (s : String) :
    (flagWords s).map (fun word => upperAscii (Text.trim word)) = flagNames s := by
  have empty (word : String) : upperAscii word = "" ↔ word = "" := by
    rw [upperAscii, String.ofList_eq_empty_iff, List.map_eq_nil_iff, String.toList_eq_nil_iff]
  have kept (word : String) : (!word.isEmpty && upperAscii word != "DEFAULT") =
      decide (upperAscii word ≠ "" ∧ upperAscii word ≠ "DEFAULT") := by
    rw [Bool.eq_iff_iff]
    simp only [Bool.and_eq_true, Bool.not_eq_true', String.isEmpty_eq_false_iff, bne_iff_ne, ne_eq,
      decide_eq_true_eq, empty]
  simp only [flagWords, flagNames, List.filter_map, List.map_map, Function.comp_def, kept,
    Text.trim_trim]

theorem mapM_eq_ok_iff : words.mapM Flag.parse = .ok flags ↔
    words.map (fun word => upperAscii (Text.trim word)) = flags.map Flag.name := by
  induction words generalizing flags with
  | nil => cases flags <;> simp [pure, Except.pure]
  | cons word words ih =>
      cases flags with
      | nil =>
          rw [List.mapM_cons]
          cases Flag.parse word with
          | error _ => exact iff_of_false nofun nofun
          | ok _ => cases words.mapM Flag.parse <;> exact iff_of_false nofun nofun
      | cons flag flags =>
          rw [List.map_cons, List.map_cons, List.cons_eq_cons, ← Flag.parse_eq_ok_iff, ← ih,
            List.mapM_cons]
          cases Flag.parse word <;> cases words.mapM Flag.parse <;>
            simp [bind, Except.bind, pure, Except.pure]

theorem parse_eq_ok_iff : parse s = .ok c ↔
    c.validate = .ok () ∧ ∀ word, word ∈ flagNames s ↔ word ∈ c.flags.map Flag.name := by
  have read : parse s = .ok c ↔
      ∃ flags, flagNames s = flags.map Flag.name ∧ ofFlags flags = .ok c := by
    simp only [parse, ← map_flagWords, ← mapM_eq_ok_iff]
    cases (flagWords s).mapM Flag.parse <;> simp [bind, Except.bind]
  rw [read]
  constructor
  · rintro ⟨flags, same, made⟩
    obtain ⟨valid, alike⟩ := ofFlags_eq_ok_iff.mp made
    refine ⟨valid, fun word => ?_⟩
    simp only [same, List.mem_map, alike]
  · intro ⟨valid, alike⟩
    have named : flagNames s ∈ Set.range (List.map Flag.name) := by
      rw [Set.range_list_map]
      intro word member
      obtain ⟨flag, -, same⟩ := List.mem_map.mp ((alike word).mp member)
      exact ⟨flag, same⟩
    obtain ⟨flags, same⟩ := named
    refine ⟨flags, same.symm, ofFlags_eq_ok_iff.mpr ⟨valid, fun flag => ?_⟩⟩
    rw [← List.mem_map_of_injective Flag.name_injective, ← alike, ← same,
      List.mem_map_of_injective Flag.name_injective]

theorem flagNames_text (c : Convention) : flagNames c.text = c.flags.map Flag.name := by
  unfold text
  cases held : c.flags with
  | nil => decide
  | cons flag flags =>
      have uncut : ∀ name ∈ (flag :: flags).map Flag.name, '|' ∉ name.toList := by
        simp only [List.mem_map]
        rintro _ ⟨flag, -, rfl⟩
        exact flag.plain.uncut
      have cut := Text.split_intercalate_singleton uncut (by simp)
      have whole : (fun flag => upperAscii (Text.trim (Flag.name flag))) = Flag.name :=
        funext fun flag => flag.plain.read
      show flagNames ((String.singleton '|').intercalate _) = _
      rw [flagNames, show "|" = String.singleton '|' from rfl, cut, List.map_map]
      simp only [Function.comp_def, whole]
      rw [List.filter_eq_self]
      simp only [List.mem_map, decide_eq_true_eq]
      rintro _ ⟨flag, -, rfl⟩
      exact flag.plain.given

/-- Flags are read as sets, in lists and in texts. -/
theorem flags_read_as_sets :
    (∀ flags c, ofFlags flags = .ok c ↔
      c.validate = .ok () ∧ ∀ flag, flag ∈ c.flags ↔ flag ∈ flags) ∧
    (∀ flags others : List Flag, (∀ flag, flag ∈ flags ↔ flag ∈ others) →
      (ofFlags flags).toOption = (ofFlags others).toOption) ∧
    (∀ c : Convention, c.validate = .ok () → parse c.text = .ok c) ∧
    ∀ s c, parse s = .ok c → parse c.text = .ok c ∧
      ∀ t, (∀ word, word ∈ flagNames t ↔ word ∈ flagNames s) → parse t = .ok c := by
  have again (c : Convention) (valid : c.validate = .ok ()) : parse c.text = .ok c := by
    refine parse_eq_ok_iff.mpr ⟨valid, fun word => ?_⟩
    rw [flagNames_text]
  refine ⟨fun flags c => ofFlags_eq_ok_iff, ?_, again, ?_⟩
  · intro flags others same
    have alike (c : Convention) : ofFlags flags = .ok c ↔ ofFlags others = .ok c := by
      simp only [ofFlags_eq_ok_iff, same]
    cases made : ofFlags others with
    | ok c => rw [(alike c).mpr made]
    | error _ =>
        cases other : ofFlags flags with
        | error _ => rfl
        | ok c => exact absurd ((alike c).mp other) (by simp [made])
  · intro s c read
    obtain ⟨valid, named⟩ := parse_eq_ok_iff.mp read
    refine ⟨again c valid, fun t same => ?_⟩
    exact parse_eq_ok_iff.mpr ⟨valid, fun word => (same word).trans (named word)⟩

/-- A flag that is repeated, and a text with other spaces and letters. -/
theorem flags_read_as_sets_repeated :
    let c : Convention := { body := .required, rawBody := true }
    c.validate = .ok () ∧ (∀ flag, flag ∈ c.flags ↔ flag ∈ [.text, .requireBody, .text]) ∧
      (ofFlags [.text, .requireBody, .text]).toOption = (ofFlags [.text, .requireBody]).toOption ∧
      parse "REQUIRE_BODY|TEXT" = .ok c ∧ parse " text| Require_Body|default|text" = .ok c := by
  have twice {α : Type} (x y other : α) : other ∈ [x, y, x] ↔ other ∈ [x, y] := by
    simp only [List.mem_cons, List.not_mem_nil]
    tauto
  intro c
  have made : ofFlags [.text, .requireBody, .text] = .ok c := rfl
  have written : c.text = "REQUIRE_BODY|TEXT" := by decide
  have parsed : parse "TEXT|REQUIRE_BODY" = .ok c := rfl
  have names : flagNames " text| Require_Body|default|text" = ["TEXT", "REQUIRE_BODY", "TEXT"] := by
    decide
  have others : flagNames "TEXT|REQUIRE_BODY" = ["TEXT", "REQUIRE_BODY"] := by decide
  obtain ⟨exactly, orderless, -, read⟩ := flags_read_as_sets
  obtain ⟨again, anyhow⟩ := read _ c parsed
  rw [written] at again
  obtain ⟨valid, same⟩ := (exactly _ c).mp made
  refine ⟨valid, same, orderless _ _ (twice _ _), again, anyhow _ fun word => ?_⟩
  rw [names, others, twice]

end Convention

end TagTemplate
