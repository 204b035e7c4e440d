import TagTemplate.Proofs.CoreTags.Calls
import TagTemplate.Proofs.Lexing.Joined
import TagTemplate.Proofs.NestForest
import TagTemplate.Proofs.Variables.Paths
import TagTemplate.Proofs.Variables.TextMap

/-!
The `var` tags behave like a map of texts.

A template that only stores and reads texts is read as well-nested segments, one after the other.
Each tag is called with the variables that those before it have left, which mirror a plain map, and
writes what the map holds at its path.
-/

namespace TagTemplate

open TagTemplate.Pairing (Nest)

/-- A use of a `var` tag in a template. -/
inductive VarUse where
  | set (path text : String)
  | append (path text : String)
  | get (path : String)

namespace VarUse

def path : VarUse → String
  | .set path _ | .append path _ | .get path => path

def body? : VarUse → Option String
  | .set _ text | .append _ text => some text
  | .get _ => none

def written : VarUse → String
  | .set path text => "\x7bvar:set:" ++ path ++ "\x7d" ++ text ++ "\x7b:var\x7d"
  | .append path text => "\x7bvar:append:" ++ path ++ "\x7d" ++ text ++ "\x7b:var\x7d"
  | .get path => "\x7bvar:get:" ++ path ++ "\x7d"

def place (use : VarUse) : List String :=
  Variables.names use.path

def update (texts : List String → Option String) (use : VarUse) : List String → Option String :=
  match use with
  | .set _ text => Function.update texts use.place (some text)
  | .append _ text => Function.update texts use.place (some ((texts use.place).getD "" ++ text))
  | .get _ => texts

/-- What a use reads of a map of texts; a text that is missing is empty. -/
def read (texts : List String → Option String) (use : VarUse) : String :=
  match use with
  | .get _ => (texts use.place).getD ""
  | _ => ""

def readings (texts : List String → Option String) : List VarUse → String
  | [] => ""
  | use :: rest => use.read texts ++ readings (use.update texts) rest

/-- A path without braces and without blank components, and a text without tags. -/
structure Proper (use : VarUse) : Prop where
  unbraced : ∀ c ∈ use.path.toList, c ≠ '\x7b' ∧ c ≠ '\x7d'
  named : ∀ part ∈ Text.split "." use.path, Text.allBlank part = false
  plain : ∀ text, use.body? = some text → ∀ tag, .tag tag ∉ Delimiters.default.tokenize text

/-- The part of the parameter in front of the path, which chooses the tag. -/
def kind : VarUse → String
  | .set _ _ => "set"
  | .append _ _ => "append"
  | .get _ => "get"

def param (use : VarUse) : String :=
  use.kind ++ ":" ++ use.path

def binding : VarUse → Binding
  | .set _ _ => ⟨CoreTags.set, CoreTags.storing, true⟩
  | .append _ _ => ⟨CoreTags.append, CoreTags.storing, true⟩
  | .get _ => ⟨CoreTags.get, CoreTags.reading, true⟩

def resolved (use : VarUse) : Resolved :=
  ⟨use.binding, "var:" ++ use.kind, use.path⟩

section Written

open Delimiters (single_default)

theorem wrap_var (kind path : String) : Delimiters.default.wrap "var" (kind ++ ":" ++ path) =
    "\x7bvar:" ++ kind ++ ":" ++ path ++ "\x7d" := by
  have front : Delimiters.default.opener ++ "var" ++ Delimiters.default.separator =
      "\x7bvar:" := by decide
  rw [Delimiters.wrap, front]
  simp only [String.append_assoc]
  rfl

theorem written_eq (use : VarUse) : use.written = Delimiters.default.wrap "var" use.param ++
    (use.body?.map (· ++ Delimiters.default.wrap "" "var")).getD "" := by
  have set : "\x7bvar:" ++ "set" ++ ":" = "\x7bvar:set:" := by decide
  have append : "\x7bvar:" ++ "append" ++ ":" = "\x7bvar:append:" := by decide
  have get : "\x7bvar:" ++ "get" ++ ":" = "\x7bvar:get:" := by decide
  have close : Delimiters.default.wrap "" "var" = "\x7b:var\x7d" := by decide
  rw [param, wrap_var, close]
  cases use with
  | set path text =>
      rw [kind, set]
      exact String.append_assoc ..
  | append path text =>
      rw [kind, append]
      exact String.append_assoc ..
  | get path =>
      rw [kind, get]
      exact (String.append_empty ..).symm

theorem unbraced_param {use : VarUse} (proper : use.Proper) :
    ∀ c ∈ use.param.toList, c ≠ '\x7b' ∧ c ≠ '\x7d' := by
  have front : ∀ c ∈ (use.kind ++ ":").toList, c ≠ '\x7b' ∧ c ≠ '\x7d' := by
    cases use <;> simp [kind]
  intro c member
  rw [param, String.toList_append, List.mem_append] at member
  exact member.elim (front c) (proper.unbraced c)

/-- Uses one behind the other as well-nested segments. -/
inductive Nested : List VarUse → Nest → Prop where
  | nil : Nested [] (.literal "" .nil)
  | single {use : VarUse} {rest : List VarUse} {tag : Tag} {nest : Nest}
      (bodiless : use.body? = none) (name : tag.name = "var") (param : tag.param = use.param)
      (behind : Nested rest nest) : Nested (use :: rest) (.literal "" (.single tag nest))
  | pair {use : VarUse} {rest : List VarUse} {tag close : Tag} {text : String} {nest : Nest}
      (body : use.body? = some text) (name : tag.name = "var") (param : tag.param = use.param)
      (unnamed : close.name = "") (closes : close.param = "var") (behind : Nested rest nest) :
      Nested (use :: rest) (.literal "" (.pair tag (.literal text .nil) close nest))

theorem Nested.wellNested {uses : List VarUse} {nest : Nest} (nested : Nested uses nest) :
    nest.WellNested := by
  induction nested with
  | nil => exact .literal "" .nil
  | single bodiless name param behind ih =>
      refine .literal "" (.single ?_ ih)
      rw [Tag.isClose, name]
      rfl
  | @pair use rest tag close text nest body name param unnamed closes behind ih =>
      have opens : tag.isClose = false := by
        rw [Tag.isClose, name]
        rfl
      have ends : close.isClose = true := by
        rw [Tag.isClose, unnamed]
        rfl
      have same : close.closeName = tag.name := by
        rw [Tag.closeName, closes, name]
        decide
      have alone : ∀ single ∈ (Nest.literal text .nil).singles,
          close.closeName ≠ "" ∧ close.closeName ≠ single.name := by
        simp [Nest.singles]
      exact .literal "" (.pair opens ends (.inr same) alone (.literal text .nil) ih)

/-- What uses are written as is read as they are nested, wherever it stands. -/
theorem exists_nested {uses : List VarUse} (proper : ∀ use ∈ uses, use.Proper) (offset : Nat) :
    ∃ nest, Nested uses nest ∧
      (Delimiters.default.tokenize (String.join (uses.map written))).map (Segment.shift offset) =
        nest.segments := by
  induction uses generalizing offset with
  | nil => exact ⟨_, .nil, rfl⟩
  | cons use rest ih =>
      have properRest := fun other member => proper other (List.mem_cons_of_mem use member)
      have properUse := proper use List.mem_cons_self
      have empty : Delimiters.default.tokenize "" = [.literal ""] := rfl
      have named : ∀ c ∈ "var".toList, isNameChar c = true := List.all_eq_true.mp (by decide)
      have opens behind := single_default.exists_tokenize_join empty named
        (unbraced_param properUse) behind offset
      rw [List.map_cons, String.join_cons, written_eq]
      cases body : use.body? with
      | none =>
          obtain ⟨tag, further, name, param, opened⟩ := opens (String.join (rest.map written))
          obtain ⟨nest, nested, read⟩ := ih properRest further
          refine ⟨_, .single body name param nested, ?_⟩
          rw [String.empty_append, read] at opened
          rw [Option.map_none, Option.getD_none, String.append_empty]
          exact opened
      | some text =>
          have literal : Delimiters.default.tokenize text = [.literal text] :=
            single_default.delimiting.tokenize_of_no_tag (properUse.plain text body)
          obtain ⟨tag, further, name, param, opened⟩ :=
            opens (text ++ Delimiters.default.wrap "" "var" ++ String.join (rest.map written))
          obtain ⟨close, last, unnamed, closes, closed⟩ :=
            single_default.exists_tokenize_join literal (by simp : ∀ c ∈ "".toList, _)
              (by simp : ∀ c ∈ "var".toList, _) (String.join (rest.map written)) further
          obtain ⟨nest, nested, read⟩ := ih properRest last
          refine ⟨_, .pair body name param unnamed closes nested, ?_⟩
          rw [read] at closed
          rw [String.empty_append, closed] at opened
          rw [Option.map_some, Option.getD_some, String.append_assoc]
          exact opened

end Written

section Calls

open Evaluation (Level Returns callViolation directCall)
open Variables (names)

variable {use : VarUse} {places : List String → Prop} {texts : List String → Option String}
  {vars : Variables} {level : Level} {document : Document} {index : Nat} {tag : Tag}
  {closer : Option Nat}

theorem find?_param (use : VarUse) :
    CoreTags.registry.bindings.find? "var" use.param = some use.resolved := by
  have alone : CoreTags.registry.bindings.lookup? "var" = none := rfl
  have nonempty : use.param.isEmpty = false := by
    simp [param]
  have cut : Text.splitOnce ":" use.param = some (use.kind, use.path) := by
    apply @Text.splitOnce_append ':'
    cases use <;> rw [kind] <;> decide
  have held : CoreTags.registry.bindings.get? ("var" ++ ":" ++ use.kind) = some use.binding := by
    cases use <;> rfl
  have separator : CoreTags.registry.bindings.separator = ":" := rfl
  rw [Bindings.find?, alone]
  simp only [nonempty, separator, cut, Option.getD_some, held]
  rfl

theorem direct (use : VarUse) : use.resolved.binding.convention.Direct := by
  cases use <;> exact ⟨rfl, rfl, rfl, rfl, rfl⟩

theorem permitted (proper : use.Proper) :
    callViolation use.resolved.binding.convention use.resolved.param use.body?.isSome = none := by
  have filled : Text.allBlank use.resolved.param = false := Variables.allBlank_eq_false proper.named
  rw [callViolation, filled]
  cases use <;> rfl

/-- The handler of a use does to the variables what the use does to the map. -/
theorem exists_handled (proper : use.Proper) (separate : Variables.Separate places)
    (member : places use.place) (mirrors : vars.Mirrors places texts) (host : Host Id) :
    ∃ left, left.Mirrors places (use.update texts) ∧
      Returns ((use.binding.handler (directCall tag use.resolved use.body?)).run host) vars
        (use.read texts) left := by
  have named : Variables.components (Text.trim use.path) = .ok use.place :=
    Variables.components_trim proper.named
  cases use with
  | set path text =>
      have merged : Variables.merge .replace (.string text) ((texts (names path)).map .string) =
          .ok (.string text) := rfl
      obtain ⟨left, assigned, mirrored⟩ := mirrors.exists_assign separate member named merged
      exact ⟨left, mirrored, Returns.store assigned⟩
  | append path text =>
      have merged : Variables.merge .append (.string text) ((texts (names path)).map .string) =
          .ok (.string ((texts (names path)).getD "" ++ text)) := by
        cases texts (names path) with
        | none => simp [Variables.merge]
        | some old => rfl
      obtain ⟨left, assigned, mirrored⟩ := mirrors.exists_assign separate member named merged
      exact ⟨left, mirrored, Returns.store assigned⟩
  | get path =>
      have held : vars.toValue.at? (names path) = (texts (names path)).map .string :=
        mirrors.held _ member
      have read : vars.get? (Text.trim path) = .ok ((texts (names path)).map .string) := by
        rw [← held]
        exact Variables.get?_eq_at? named
      have written : CoreTags.answer (.ok ((texts (names path)).map .string)) =
          .done ((texts (names path)).getD "") := by
        cases texts (names path) <;> rfl
      refine ⟨vars, mirrors, .inspect fun view _ same => ?_⟩
      change Returns ((CoreTags.answer (view.vars.get? (Text.trim path))).run host) vars
        ((texts (names path)).getD "") vars
      rw [same, read, written]
      exact .pure _

/-- What stands behind a use meets the variables that the use has left. -/
theorem exists_items_cons {rest : List VarUse} {items : List Item} (proper : use.Proper)
    (separate : Variables.Separate places) (member : places use.place)
    (mirrors : vars.Mirrors places texts) (name : tag.name = "var") (param : tag.param = use.param)
    (bodied : Returns (Evaluation.bodyText level document use.binding.convention index closer) vars
      use.body? vars) (hasBody : closer.isSome = use.body?.isSome)
    (behind : ∀ texts (vars : Variables), vars.Mirrors places texts →
      ∃ left, Returns (Evaluation.items level document items) vars (readings texts rest) left) :
    ∃ left, Returns (Evaluation.items level document (.text "" :: .call index tag closer :: items))
      vars (readings texts (use :: rest)) left := by
  obtain ⟨middle, mirrored, handled⟩ :=
    @exists_handled use places texts vars tag proper separate member mirrors (Evaluation.host level)
  obtain ⟨left, returned⟩ := behind _ middle mirrored
  have found : CoreTags.registry.bindings.find? tag.name tag.param = some use.resolved := by
    rw [name, param, find?_param]
  have allowed := permitted proper
  rw [← hasBody] at allowed
  have called : Returns (Evaluation.item level document (.call index tag closer)) vars
      (use.read texts) middle := .call found use.direct allowed bodied handled
  have joined := Returns.items_text "" (Returns.items_cons called returned)
  rw [String.empty_append] at joined
  exact ⟨left, joined⟩

theorem Nested.exists_items {uses : List VarUse} {nest : Nest} (nested : Nested uses nest)
    (proper : ∀ use ∈ uses, use.Proper) (separate : Variables.Separate places)
    (members : ∀ use ∈ uses, places use.place) (mirrors : vars.Mirrors places texts)
    {start stop levels : Nat} (forms : document.Forms start stop (nest.forest start)) :
    ∃ left, Returns (Evaluation.items (Evaluation.range (levels + 1)) document
      (nest.forest start).items) vars (readings texts uses) left := by
  -- the variables and the map that they mirror differ from use to use
  induction nested generalizing start texts vars with
  | nil => exact ⟨vars, .items_text "" .items_nil⟩
  | @single use rest tag nest bodiless name param behind ih =>
      obtain ⟨properUse, properRest⟩ := List.forall_mem_cons.mp proper
      obtain ⟨memberUse, membersRest⟩ := List.forall_mem_cons.mp members
      cases forms with
      | text _ forms =>
          cases forms with
          | single _ _ _ forms =>
              refine exists_items_cons properUse separate memberUse mirrors name param ?_
                (by simp [bodiless]) fun _ _ mirrored => ih properRest membersRest mirrored forms
              rw [bodiless]
              exact .pure none
  | @pair use rest tag close text nest body name param unnamed closes behind ih =>
      obtain ⟨properUse, properRest⟩ := List.forall_mem_cons.mp proper
      obtain ⟨memberUse, membersRest⟩ := List.forall_mem_cons.mp members
      cases forms with
      | text _ forms =>
          cases forms with
          | pair _ _ _ inside _ _ forms =>
              have expanded : use.binding.convention.rawBody = false := by
                cases use <;> rfl
              refine exists_items_cons properUse separate memberUse mirrors name param ?_
                (by simp [body]) fun _ _ mirrored => ih properRest membersRest mirrored forms
              rw [body]
              exact .bodyText_plain expanded inside

end Calls

end VarUse

namespace Engine

variable {engine : Engine}

/-- The `var` tags behave like a map of texts: a template that stores and reads texts is written as
what its tags read of a map that is empty at first. -/
theorem render_varUses (ready : engine.HasCoreTags .empty) (idle : engine.evaluating = false)
    {uses : List VarUse} (proper : ∀ use ∈ uses, use.Proper)
    (separate : ∀ use ∈ uses, ∀ other ∈ uses, use.place <+: other.place → use.place = other.place)
    (batches : Nat) :
    ∃ after, (Expansion.render batches (String.join (uses.map VarUse.written))).run engine =
      some (.ok (VarUse.readings (fun _ => none) uses), after) := by
  -- the map is compared at the places of the uses alone
  let places (place : List String) : Prop := ∃ use ∈ uses, use.place = place
  have apart : Variables.Separate places := by
    rintro _ _ ⟨use, member, rfl⟩ ⟨other, there, rfl⟩
    exact separate use member other there
  have named : ∀ place, places place → place ≠ [] := by
    rintro _ ⟨use, member, rfl⟩
    exact Variables.ne_nil_of_components (Variables.components_trim (proper use member).named)
  obtain ⟨nest, nested, read⟩ := VarUse.exists_nested proper 0
  rw [Segment.shift_zero, List.map_id] at read
  obtain ⟨document, parsed, forms⟩ := Document.parse_of_wellNested nested.wellNested read
  obtain ⟨left, returned⟩ := nested.exists_items proper apart (fun use member => ⟨use, member, rfl⟩)
    (Variables.mirrors_empty named) forms
  rw [← forms.outline_eq] at returned
  obtain ⟨after, _, ran⟩ := ready.run_render idle parsed (.range returned) batches
  exact ⟨after, ran⟩

/-- A path with white space, a path with a separator in it, and a text that is missing. -/
theorem render_varUses_blank_separated_missing :
    ∃ after, (Expansion.render 0 ("\x7bvar:set:a.b\x7d1\x7b:var\x7d\x7bvar:get: a . b\x7d" ++
      "\x7bvar:append:c:d\x7d2\x7b:var\x7d\x7bvar:append:a.b\x7d3\x7b:var\x7d" ++
        "\x7bvar:get:a.b\x7d\x7bvar:get:c:d\x7d\x7bvar:get:e\x7d")).run withCoreTags =
          some (.ok "1132", after) := by
  let uses : List VarUse := [.set "a.b" "1", .get " a . b", .append "c:d" "2", .append "a.b" "3",
    .get "a.b", .get "c:d", .get "e"]
  have unbraced : ∀ use ∈ uses, ∀ c ∈ use.path.toList, c ≠ '\x7b' ∧ c ≠ '\x7d' := by
    simp [uses, VarUse.path]
  have named : ∀ use ∈ uses, ∀ part ∈ Text.split "." use.path, Text.allBlank part = false := by
    decide
  have literal : ∀ use ∈ uses, ∀ text ∈ use.body?,
      Delimiters.default.tokenize text = [.literal text] := by
    decide
  have proper : ∀ use ∈ uses, use.Proper := by
    intro use member
    refine ⟨unbraced use member, named use member, fun text body tag => ?_⟩
    rw [literal use member text body]
    simp
  exact render_varUses hasCoreTags_withCoreTags rfl proper (by decide) 0

end Engine

end TagTemplate
