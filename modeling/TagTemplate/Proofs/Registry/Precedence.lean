import TagTemplate.Proofs.Cutting
import TagTemplate.Proofs.Registry.Autoload

/-!
Which binding handles a tag.

The catch-all binding comes before the one of the tag's own name, and that one before the binding
of the name joined with what stands before the first separator of the parameter.  What the parts
of a tag spell between them is not changed by it.
-/

namespace TagTemplate

namespace Text

/-- What stands before the first separator of a text and what stands behind it.  A text without a
separator stands before it as a whole. -/
inductive FirstCut (separator text : String) : String → String → Prop where
  | cut {first rest : String} (whole : text = first ++ separator ++ rest)
      (earliest : ∀ before after, text = before ++ separator ++ after →
        first.length ≤ before.length) : FirstCut separator text first rest
  | uncut (absent : ∀ before after, text ≠ before ++ separator ++ after) :
      FirstCut separator text text ""

variable {separator parts first rest : String}

theorem firstCut_of_splitOnce (cut : splitOnce separator parts = some (first, rest)) :
    FirstCut separator parts first rest := by
  obtain ⟨⟨before, after⟩, found, same⟩ := Option.map_eq_some_iff.mp cut
  cases same
  refine .cut (String.toList_injective ?_) fun earlier later written => ?_
  · simpa using eq_append_of_cutOnce found
  · obtain ⟨shortest, _, here, shorter⟩ :=
      exists_cutOnce_append separator.toList earlier.toList later.toList
    rw [written, String.toList_append, String.toList_append, List.append_assoc, here] at found
    cases found
    rw [String.length_ofList]
    exact shorter

theorem firstCut_of_splitOnce_eq_none (uncut : splitOnce separator parts = none) :
    FirstCut separator parts parts "" := by
  refine .uncut fun before after written => ?_
  obtain ⟨_, _, cut, _⟩ := exists_cutOnce_append separator.toList before.toList after.toList
  simp [splitOnce, written, cut] at uncut

theorem FirstCut.unique {first' rest' : String} (one : FirstCut separator parts first rest)
    (other : FirstCut separator parts first' rest') : first = first' ∧ rest = rest' := by
  cases one with
  | uncut absent =>
      cases other with
      | uncut => exact ⟨rfl, rfl⟩
      | cut whole => exact absurd whole (absent _ _)
  | cut whole earliest =>
      cases other with
      | uncut absent => exact absurd whole (absent _ _)
      | cut whole' earliest' =>
          have length : first.length = first'.length :=
            Nat.le_antisymm (earliest _ _ whole') (earliest' _ _ whole)
          have same : first.toList ++ (separator.toList ++ rest.toList) =
              first'.toList ++ (separator.toList ++ rest'.toList) := by
            simpa using congrArg String.toList (whole.symm.trans whole')
          obtain ⟨front, behind⟩ := List.append_inj same length
          exact ⟨String.toList_injective front,
            String.toList_injective (List.append_cancel_left behind)⟩

theorem firstCut_splitOnce (separator parts : String) :
    let cut := (splitOnce separator parts).getD (parts, "")
    FirstCut separator parts cut.1 cut.2 := by
  cases found : splitOnce separator parts with
  | none => exact firstCut_of_splitOnce_eq_none found
  | some cut => exact firstCut_of_splitOnce found

end Text

/-- What handles a tag: the catch-all binding, else the binding of its name, else the binding of
its name with the first part of its parameter, else nothing. -/
inductive Bindings.Picks (bindings : Bindings) (name param : String) : Option Resolved → Prop where
  | everything {binding : Binding} (bound : bindings.get? catchAll = some binding) :
      Picks bindings name param (some ⟨binding, name, param⟩)
  | own {binding : Binding} (free : bindings.get? catchAll = none)
      (bound : bindings.get? name = some binding) :
      Picks bindings name param (some ⟨binding, name, param⟩)
  | subtype {first rest : String} {binding : Binding} (free : bindings.get? catchAll = none)
      (unbound : bindings.get? name = none) (given : param ≠ "")
      (cut : Text.FirstCut bindings.separator param first rest)
      (bound : bindings.get? (name ++ bindings.separator ++ first) = some binding) :
      Picks bindings name param (some ⟨binding, name ++ bindings.separator ++ first, rest⟩)
  | nothing (free : bindings.get? catchAll = none) (unbound : bindings.get? name = none)
      (missing : param ≠ "" → ∀ first rest, Text.FirstCut bindings.separator param first rest →
        bindings.get? (name ++ bindings.separator ++ first) = none) :
      Picks bindings name param none

/-- Only a separator with nothing behind it may be left out. -/
def Resolved.Spells (separator name param : String) (resolved : Resolved) : Prop :=
  resolved.name ++ separator ++ resolved.param = name ++ separator ++ param ∨
    resolved.param = "" ∧ resolved.name = name ++ separator ++ param

variable {bindings : Bindings} {name param : String}

namespace Bindings

theorem find?_of_lookup? {binding : Binding} (bound : bindings.lookup? name = some binding) :
    bindings.find? name param = some ⟨binding, name, param⟩ := by
  rw [find?, bound]

theorem find?_of_cut {first rest : String} (unbound : bindings.lookup? name = none)
    (given : param ≠ "") (cut : Text.FirstCut bindings.separator param first rest) :
    bindings.find? name param = (bindings.get? (name ++ bindings.separator ++ first)).map
      fun binding => ⟨binding, name ++ bindings.separator ++ first, rest⟩ := by
  obtain ⟨rfl, rfl⟩ := cut.unique (Text.firstCut_splitOnce bindings.separator param)
  simp only [find?, unbound, String.isEmpty_iff, given, if_false]

theorem lookup?_eq_none (free : bindings.get? catchAll = none)
    (unbound : bindings.get? name = none) : bindings.lookup? name = none :=
  Option.or_eq_none_iff.mpr ⟨free, unbound⟩

theorem Picks.find?_eq {found : Option Resolved} (picks : bindings.Picks name param found) :
    bindings.find? name param = found := by
  cases picks with
  | everything bound => exact find?_of_lookup? (by rw [lookup?, bound, Option.some_or])
  | own free bound => exact find?_of_lookup? (by rw [lookup?, free, Option.none_or, bound])
  | subtype free unbound given cut bound =>
      rw [find?_of_cut (lookup?_eq_none free unbound) given cut, bound, Option.map_some]
  | nothing free unbound missing =>
      exact find?_eq_none_iff.mpr ⟨free, unbound, fun given =>
        missing given _ _ (Text.firstCut_splitOnce bindings.separator param)⟩

theorem picks_find? (bindings : Bindings) (name param : String) :
    bindings.Picks name param (bindings.find? name param) := by
  cases everything : bindings.get? catchAll with
  | some binding =>
      rw [find?_of_lookup? (by rw [lookup?, everything, Option.some_or])]
      exact .everything everything
  | none =>
      cases own : bindings.get? name with
      | some binding =>
          rw [find?_of_lookup? (by rw [lookup?, everything, Option.none_or, own])]
          exact .own everything own
      | none =>
          by_cases empty : param = ""
          · rw [find?_eq_none_iff.mpr ⟨everything, own, absurd empty⟩]
            exact .nothing everything own (absurd empty)
          · have cut := Text.firstCut_splitOnce bindings.separator param
            rw [find?_of_cut (lookup?_eq_none everything own) empty cut]
            cases sub : bindings.get? _ with
            | some binding => exact .subtype everything own empty cut sub
            | none =>
                refine .nothing everything own fun _ first rest other => ?_
                rw [(other.unique cut).1]
                exact sub

end Bindings

theorem Bindings.Picks.spells {resolved : Resolved}
    (picks : bindings.Picks name param (some resolved)) :
    resolved.Spells bindings.separator name param := by
  cases picks with
  | everything => exact .inl rfl
  | own => exact .inl rfl
  | subtype free unbound given cut bound =>
      cases cut with
      | cut whole =>
          refine .inl ?_
          rw [whole]
          simp only [String.append_assoc]
      | uncut => exact .inr ⟨rfl, rfl⟩

/-- A look-up without autoload takes the binding that comes first, loses nothing of the
parameter, and leaves the registry as it is. -/
theorem resolve_by_precedence {registry : Registry} (still : registry.autoload = none)
    (name param : String) :
    ∃ found, registry.resolve name param = (.ok found, registry, []) ∧
      (∀ other, registry.bindings.Picks name param other ↔ other = found) ∧
      ∀ resolved, found = some resolved →
        resolved.Spells registry.bindings.separator name param := by
  have picks := registry.bindings.picks_find? name param
  refine ⟨_, Registry.resolve_of_still still name param, fun other => ?_, ?_⟩
  · constructor
    · exact fun picked => picked.find?_eq.symm
    · exact fun same => same ▸ picks
  · intro resolved same
    rw [same] at picks
    exact picks.spells

/-- A separator behind the first one stays in the parameter. -/
theorem resolve_by_precedence_of_subtype :
    let binding : Binding := ⟨fun _ => .done "", {}, false⟩
    let registry : Registry := ⟨⟨":", [("column", binding), ("row:init", binding)]⟩, none⟩
    registry.autoload = none ∧
      registry.bindings.Picks "row" "init::y" (some ⟨binding, "row:init", ":y"⟩) ∧
      registry.resolve "row" "init::y" =
        (.ok (some ⟨binding, "row:init", ":y"⟩), registry, []) := by
  intro binding registry
  have still : registry.autoload = none := rfl
  obtain ⟨found, resolved, only, -⟩ := resolve_by_precedence still "row" "init::y"
  have cut : Text.FirstCut ":" "init::y" "init" ":y" :=
    Text.firstCut_of_splitOnce (by decide)
  have given : "init::y" ≠ "" := by decide
  have bound : registry.bindings.get? ("row" ++ ":" ++ "init") = some binding := by cbv
  have picks : registry.bindings.Picks "row" "init::y" (some ⟨binding, "row:init", ":y"⟩) := by
    rw [show "row:init" = "row" ++ ":" ++ "init" by decide]
    exact .subtype rfl rfl given cut bound
  refine ⟨still, picks, ?_⟩
  rw [resolved, ← (only _).mp picks]

end TagTemplate
