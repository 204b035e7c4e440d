import TagTemplate.Proofs.Cutting
import TagTemplate.Proofs.Escaping.Inert
import TagTemplate.Proofs.Lexing.Printed
import TagTemplate.Proofs.Lexing.Wrapped
import TagTemplate.Proofs.Registry.Invariant
import TagTemplate.Proofs.Registry.Precedence

/-!
Names that tags lead to.

A tag has a name without a separator, and a look-up joins it with one part of the parameter at
most.  A name of more than two parts may be registered, but no tag leads to it.
-/

namespace TagTemplate

namespace Text

variable {mark : Char} {text first rest : String}

theorem exists_eq_append (member : mark ∈ text.toList) :
    ∃ before behind, text = before ++ .singleton mark ++ behind := by
  obtain ⟨before, behind, written⟩ := List.append_of_mem member
  refine ⟨.ofList before, .ofList behind, String.toList_injective ?_⟩
  simpa using written

theorem firstCut_of_not_mem (absent : mark ∉ text.toList) :
    FirstCut (.singleton mark) text text "" := by
  refine .uncut fun before behind written => absent ?_
  simp [written]

theorem FirstCut.not_mem (cut : FirstCut (.singleton mark) text first rest) :
    mark ∉ first.toList := by
  intro member
  obtain ⟨before, behind, rfl⟩ := exists_eq_append member
  cases cut with
  | uncut absent => exact absent _ _ rfl
  | cut whole earliest =>
      have shorter := earliest before (behind ++ .singleton mark ++ rest) (by
        simp only [whole, String.append_assoc])
      simp only [String.length_append, String.length_singleton] at shorter
      omega

end Text

/-- Some text holds an open tag that is led to a binding under a name. -/
def Registry.Reaches (registry : Registry) (name : String) (binding : Binding) : Prop :=
  ∃ text tag param, .tag tag ∈ Delimiters.default.tokenize text ∧ tag.isClose = false ∧
    registry.resolve tag.name tag.param = (.ok (some ⟨binding, name, param⟩), registry, [])

theorem Bindings.Picks.name_cases {bindings : Bindings} {name param : String} {resolved : Resolved}
    (picks : bindings.Picks name param (some resolved)) :
    bindings.get? catchAll = some resolved.binding ∨ resolved.name = name ∨
      ∃ first rest, Text.FirstCut bindings.separator param first rest ∧
        resolved.name = name ++ bindings.separator ++ first := by
  cases picks with
  | everything bound => exact .inl bound
  | own => exact .inr (.inl rfl)
  | subtype free unbound given cut => exact .inr (.inr ⟨_, _, cut, rfl⟩)

namespace Registry

variable {registry : Registry} {name : String} {binding : Binding}

theorem eq_single (registered : (empty ":").register name binding = (.ok (), registry)) :
    Bindings.isName ":" name ∧ registry = ⟨⟨":", [(name, binding)]⟩, none⟩ := by
  unfold register at registered
  split at registered
  · rename_i added registers
    obtain ⟨named, -, rfl⟩ := Bindings.register_eq_ok registers
    cases registered
    exact ⟨named, rfl⟩
  · cases registered

theorem get?_single (other : String) :
    (⟨":", [(name, binding)]⟩ : Bindings).get? other = if name = other then some binding else none :=
  rfl

theorem length_split_of_reaches (other : name ≠ catchAll)
    (reaches : Reaches ⟨⟨":", [(name, binding)]⟩, none⟩ name binding) :
    (Text.split ":" name).length ≤ 2 := by
  obtain ⟨text, tag, param, member, -, resolved⟩ := reaches
  have unnamed : ':' ∉ tag.name.toList := by
    intro inside
    have named := Delimiters.single_default.delimiting.named_of_mem_tokenize member ':' inside
    exact absurd named (by decide)
  rw [resolve_of_still rfl] at resolved
  have picks := Bindings.picks_find? ⟨":", [(name, binding)]⟩ tag.name tag.param
  rw [Except.ok.inj (congrArg Prod.fst resolved)] at picks
  -- neither the tag's name nor the part of the parameter that is joined to it has a separator
  rcases picks.name_cases with bound | own | ⟨first, rest, cut, joined⟩
  · rw [get?_single, if_neg other] at bound
    cases bound
  · have alone := @Text.split_intercalate_singleton ':' [tag.name] (by simpa using unnamed) (by simp)
    rw [String.intercalate_singleton, ← own] at alone
    exact alone ▸ (by simp)
  · have both := @Text.split_intercalate_singleton ':' [tag.name, first]
      (by simpa using ⟨unnamed, Text.FirstCut.not_mem cut⟩) (by simp)
    rw [show (String.singleton ':').intercalate [tag.name, first] = name from joined.symm] at both
    exact both ▸ (by simp)

theorem reaches_of_tag {name param found rest : String} (given : name ≠ "")
    (named : ∀ c ∈ name.toList, isNameChar c = true)
    (allowed : ∀ c ∈ param.toList, isNameChar c = true)
    (picks : Bindings.Picks ⟨":", [(found, binding)]⟩ name param (some ⟨binding, found, rest⟩)) :
    Reaches ⟨⟨":", [(found, binding)]⟩, none⟩ found binding := by
  have read := Delimiters.single_default.delimiting.tokenize_of_telling
    ⟨':', by decide, by decide⟩ named
      fun c inside => Delimiters.isParamChar_of_isNameChar (allowed c inside)
  refine ⟨_, _, rest, (by rw [read]; exact .tail _ (.head _)), ?_, ?_⟩
  · simpa [Tag.isClose] using given
  · rw [resolve_of_still rfl, picks.find?_eq]

theorem reaches_of_length_split (other : name ≠ catchAll) (accepted : Bindings.isName ":" name)
    (short : (Text.split ":" name).length ≤ 2) :
    Reaches ⟨⟨":", [(name, binding)]⟩, none⟩ name binding := by
  have parts := (Bindings.isName_iff.mp accepted).resolve_left other
  have whole := @Text.intercalate_split ":" (by decide) name
  have free : (⟨":", [(name, binding)]⟩ : Bindings).get? catchAll = none := by
    rw [get?_single, if_neg other]
  match split : Text.split ":" name with
  | [] => exact absurd split (Text.split_ne_nil (by decide) name)
  | [part] =>
      rw [split] at parts whole
      obtain rfl : part = name := whole
      obtain ⟨given, named⟩ := parts part (by simp)
      have none : ∀ c ∈ "".toList, isNameChar c = true := fun c inside => nomatch inside
      exact reaches_of_tag given named none (.own free ((get?_single part).trans (if_pos rfl)))
  | [first, second] =>
      rw [split] at parts whole
      obtain ⟨given, named⟩ := parts first (by simp)
      obtain ⟨present, allowed⟩ := parts second (by simp)
      obtain rfl : first ++ ":" ++ second = name := whole
      have absent : ':' ∉ second.toList := fun inside => absurd (allowed ':' inside) (by decide)
      have longer : first ++ ":" ++ second ≠ first := by
        simp [String.append_assoc]
      refine reaches_of_tag given named allowed (.subtype free ?_ present
        (Text.firstCut_of_not_mem absent) ((get?_single _).trans (if_pos rfl)))
      rw [get?_single, if_neg longer]
  | first :: second :: third :: rest => simp [split] at short

end Registry

/-- A tag leads to a name of one or two parts, and to no other one. -/
theorem reached_iff {registry : Registry} {name : String} {binding : Binding}
    (registered : (Registry.empty Delimiters.default.separator).register name binding =
      (.ok (), registry)) (other : name ≠ catchAll) :
    registry.Reaches name binding ↔
      (Text.split Delimiters.default.separator name).length ≤ 2 := by
  obtain ⟨accepted, rfl⟩ := Registry.eq_single registered
  exact ⟨Registry.length_split_of_reaches other, Registry.reaches_of_length_split other accepted⟩

theorem reached_iff_of_subtype :
    let binding : Binding := ⟨fun _ => .done "", {}, false⟩
    let outcome := (Registry.empty Delimiters.default.separator).register "row:init" binding
    outcome.1 = .ok () ∧ "row:init" ≠ catchAll ∧ outcome.2.Reaches "row:init" binding := by
  intro binding outcome
  have registered : outcome = (.ok (), outcome.2) := rfl
  have other : "row:init" ≠ catchAll := by decide
  exact ⟨rfl, other, (reached_iff registered other).mpr (by decide)⟩

/-- A name of three parts is accepted, but no tag leads to it. -/
theorem registered_unreached :
    let binding : Binding := ⟨fun _ => .done "", {}, false⟩
    let outcome := (Registry.empty Delimiters.default.separator).register "a:b:c" binding
    outcome.1 = .ok () ∧ "a:b:c" ≠ catchAll ∧ ¬ outcome.2.Reaches "a:b:c" binding := by
  intro binding outcome
  have other : "a:b:c" ≠ catchAll := by decide
  refine ⟨rfl, other, fun reaches => ?_⟩
  exact absurd (Registry.length_split_of_reaches other reaches) (by decide)

end TagTemplate
