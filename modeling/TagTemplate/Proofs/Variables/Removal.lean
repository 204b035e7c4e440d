import TagTemplate.Proofs.Variables.Lookup

/-!
What removing a variable changes.

The place of the variable is left by taking one entry out of one map.  The maps on the way to it
stay, and each of them keeps its other entries, so that only the paths to the place and behind it
read something else.
-/

namespace TagTemplate.Variables

open TagTemplate.Json (Value)

/-- A map without what components lead to. -/
inductive Taken : List String → Keyed Value → Keyed Value → Prop where
  | last {key : String} {members : Keyed Value} : Taken [key] members (Keyed.erase key members)
  | inside {part : String} {rest : List String} {members inner next : Keyed Value}
      (more : rest ≠ []) (found : Keyed.find? part members = some (.object inner))
      (below : Taken rest inner next) :
      Taken (part :: rest) members (Keyed.replace part (.object next) members)
  | blocked {part : String} {rest : List String} {members : Keyed Value} (more : rest ≠ [])
      (leaf : ∀ inner, Keyed.find? part members ≠ some (.object inner)) :
      Taken (part :: rest) members members

/-- A value on the way to a place that is left.  Only the entry under `key` is another one; it
goes if it is the place. -/
inductive OnTheWay (key : String) (rest : List String) : Option Value → Option Value → Prop where
  | last {inner : Keyed Value} (ends : rest = []) :
      OnTheWay key rest (some (.object inner)) (some (.object (Keyed.erase key inner)))
  | passed {inner inner' : Keyed Value} (more : rest ≠ [])
      (names : Keyed.keys inner' = Keyed.keys inner)
      (others : Keyed.erase key inner' = Keyed.erase key inner) :
      OnTheWay key rest (some (.object inner)) (some (.object inner'))
  | noMap {old : Option Value} (leaf : ∀ inner, old ≠ some (.object inner)) :
      OnTheWay key rest old old

/-- What the paths read after the variable under components was removed. -/
structure RemovedAt (parts : List String) (before after : Variables) : Prop where
  within : ∀ {query rest}, components query = .ok (parts ++ rest) → after.get? query = .ok none
  apart : ∀ {query names}, components query = .ok names → ¬ names <+: parts → ¬ parts <+: names →
    after.get? query = before.get? query
  above : ∀ {query names key rest}, components query = .ok names → parts = names ++ key :: rest →
    ∃ old new, before.get? query = .ok old ∧ after.get? query = .ok new ∧
      OnTheWay key rest old new
  root : ∀ {key rest}, parts = key :: rest →
    OnTheWay key rest (some before.toValue) (some after.toValue)

variable {key part : String} {names parts rest : List String} {members after : Keyed Value}
  {path : String} {vars : Variables}

theorem taken_discard (nonempty : parts ≠ []) (members : Keyed Value) :
    Taken parts members (discard parts members) := by
  induction parts generalizing members with
  | nil => contradiction
  | cons part rest ih =>
      by_cases last : rest = []
      · subst last
        exact .last
      · rw [discard]
        · split
          · rename_i inner found
            exact .inside last found (ih last inner)
          · rename_i leaf
            exact .blocked last leaf
        · exact last

theorem at?_behind_leaf (leaf : ∀ inner, Keyed.find? part members ≠ some (.object inner))
    (more : names ≠ []) : Value.at? (part :: names) (.object members) = none := by
  rcases Value.find?_cases part members with absent | ⟨inner, found⟩ | ⟨held, found, flat⟩
  · simp [absent]
  · exact absurd found (leaf inner)
  · obtain ⟨next, names, rfl⟩ := List.exists_cons_of_ne_nil more
    simp [found, Value.at?_leaf flat]

theorem at?_ne_object (leaf : ∀ inner, Keyed.find? part members ≠ some (.object inner))
    (names : List String) (inner : Keyed Value) :
    Value.at? (part :: names) (.object members) ≠ some (.object inner) := by
  by_cases last : names = []
  · rw [last, Value.at?_member]
    exact leaf inner
  · simp [at?_behind_leaf leaf last]

namespace Taken

theorem at?_below (taken : Taken parts members after) (rest : List String) :
    Value.at? (parts ++ rest) (.object after) = none := by
  induction taken with
  | last => simp [Keyed.find?_erase_self]
  | inside more found below ih => simp [Keyed.find?_replace_self found, ih]
  | blocked more leaf => exact at?_behind_leaf leaf (by simp [more])

theorem at?_apart (taken : Taken parts members after) (apart : ¬ names <+: parts)
    (other : ¬ parts <+: names) :
    Value.at? names (.object after) = Value.at? names (.object members) := by
  induction taken generalizing names with
  | blocked => rfl
  | @last key members =>
      cases names with
      | nil => exact absurd List.nil_prefix apart
      | cons first names =>
          have different : first ≠ key := fun same => other (by simp [same])
          simp [Keyed.find?_erase_of_ne different]
  | @inside part rest members inner next more found below ih =>
      cases names with
      | nil => exact absurd List.nil_prefix apart
      | cons first names =>
          by_cases same : first = part
          · subst same
            simp only [List.cons_prefix_cons, true_and] at apart other
            simp [Keyed.find?_replace_self found, found, ih apart other]
          · simp [Keyed.find?_replace_of_ne same]

theorem onTheWay (taken : Taken (key :: rest) members after) :
    OnTheWay key rest (some (.object members)) (some (.object after)) := by
  cases taken with
  | last => exact .last rfl
  | inside more => exact .passed more (Keyed.keys_replace ..) (Keyed.erase_replace ..)
  | blocked more => exact .passed more rfl rfl

theorem at?_above (taken : Taken (names ++ key :: rest) members after) :
    OnTheWay key rest (Value.at? names (.object members)) (Value.at? names (.object after)) := by
  induction names generalizing members after with
  | nil => exact taken.onTheWay
  | cons first names ih =>
      rw [List.cons_append] at taken
      generalize parts_eq : names ++ key :: rest = parts at taken
      cases taken with
      | last => simp at parts_eq
      | inside more found below =>
          subst parts_eq
          simpa [Keyed.find?_replace_self found, found] using ih below
      | blocked more leaf => exact .noMap (at?_ne_object leaf names)

theorem eq_of_missing (taken : Taken parts members after)
    (missing : Value.at? parts (.object members) = none) : after = members := by
  induction taken with
  | last => exact Keyed.erase_of_missing (by rwa [Value.at?_member] at missing)
  | blocked => rfl
  | inside more found below ih =>
      rw [Value.at?_object, found, Option.bind_some] at missing
      rw [ih missing, Keyed.replace_self found]

end Taken

theorem removedAt_of_taken {gone : Variables} (taken : Taken parts vars.members gone.members) :
    RemovedAt parts vars gone where
  within := by
    intro query rest named
    rw [get?_eq_at? named, toValue, taken.at?_below]
  apart := by
    intro query names named apart other
    rw [get?_eq_at? named, get?_eq_at? named, toValue, taken.at?_apart apart other, toValue]
  above := by
    rintro query names key rest named rfl
    exact ⟨_, _, get?_eq_at? named, get?_eq_at? named, taken.at?_above⟩
  root := by
    rintro key rest rfl
    exact taken.onTheWay

theorem remove_of_components (named : components path = .ok parts) :
    vars.remove path = (.ok (vars.toValue.at? parts), ⟨discard parts vars.members⟩) := by
  rw [remove, named, toValue, ← lookup_eq_at? (ne_nil_of_components named)]

/-- A variable is removed with all that lies behind it and with nothing else, and what it was is
returned; a path with a blank component is refused and changes nothing. -/
theorem remove_takes_subtree (path : String) (vars : Variables) :
    ((∀ part ∈ Text.split "." path, Text.allBlank part = false) → ∃ parts old after,
      components path = .ok parts ∧ vars.get? path = .ok old ∧
      vars.remove path = (.ok old, after) ∧ RemovedAt parts vars after ∧
      (old = none → after = vars)) ∧
    ((∃ part ∈ Text.split "." path, Text.allBlank part = true) →
      vars.remove path =
        (.error (.variableConflict path "path has an empty component"), vars)) := by
  constructor
  · intro filled
    cases named : components path with
    | error error =>
        obtain ⟨⟨part, member, blank⟩, _⟩ := components_eq_error_iff.mp named
        simp [filled part member] at blank
    | ok parts =>
        have taken := taken_discard (ne_nil_of_components named) vars.members
        refine ⟨parts, _, _, rfl, get?_eq_at? named, remove_of_components named,
          removedAt_of_taken taken, fun missing => ?_⟩
        rw [taken.eq_of_missing missing]
  · intro blank
    rw [remove, components_eq_error_iff.mpr ⟨blank, rfl⟩]

/-- The maps on the way to the only entry stay without it. -/
theorem remove_takes_subtree_nested :
    let vars : Variables := ⟨[("a", .object [("b", .object [("c", .null)])]), ("d", .null)]⟩
    (∀ part ∈ Text.split "." "a. b .c", Text.allBlank part = false) ∧ ∃ after,
      vars.remove "a. b .c" = (.ok (some .null), after) ∧ after.get? "a.b.c.x" = .ok none ∧
      after.get? "d" = .ok (some .null) ∧ after.get? "a.b" = .ok (some (.object [])) := by
  intro vars
  have filled : ∀ part ∈ Text.split "." "a. b .c", Text.allBlank part = false := by decide
  have place : components "a. b .c" = .ok ["a", "b", "c"] := by rfl
  have before : vars.get? "a. b .c" = .ok (some .null) := by rfl
  obtain ⟨parts, old, after, named, held, removed, left, -⟩ :=
    (remove_takes_subtree "a. b .c" vars).1 filled
  cases named.symm.trans place
  cases held.symm.trans before
  have behind : components "a.b.c.x" = .ok (["a", "b", "c"] ++ ["x"]) := by rfl
  have other : components "d" = .ok ["d"] := by rfl
  have above : components "a.b" = .ok ["a", "b"] := by rfl
  refine ⟨filled, after, removed, left.within behind, ?_, ?_⟩
  · rw [left.apart other (by decide) (by decide)]
    rfl
  · obtain ⟨old, new, was, now, way⟩ := left.above above rfl
    cases was.symm.trans (rfl : vars.get? "a.b" = .ok (some (.object [("c", .null)])))
    cases way with
    | last => exact now
    | passed more => contradiction
    | noMap leaf => exact absurd rfl (leaf _)

end TagTemplate.Variables
