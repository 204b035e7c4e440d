import TagTemplate.Placeholder
import TagTemplate.Proofs.Variables.Paths

/-!
The leaves of nested maps under dotted keys.

Where no key of a map has a dot, the key of a leaf can be cut into the components that lead
to it.  Different leaves then have different keys, and flattening keeps for the key of a path
what the components of the path lead to.
-/

namespace TagTemplate

/-- A key that a path can name as one of its components. -/
def IsComponent (part : String) : Prop :=
  part ≠ "" ∧ '.' ∉ part.toList

/-- The path of components. -/
def dottedPath (parts : List String) : String :=
  ".".intercalate parts

theorem Text.split_dottedPath {parts : List String} (nonempty : parts ≠ [])
    (named : ∀ part ∈ parts, '.' ∉ part.toList) : split "." (dottedPath parts) = parts :=
  @split_intercalate_singleton '.' parts named nonempty

theorem dottedPath_ne_empty {parts : List String} (nonempty : parts ≠ [])
    (named : ∀ part ∈ parts, IsComponent part) : dottedPath parts ≠ "" := by
  intro empty
  have cut := Text.split_dottedPath nonempty fun part member => (named part member).2
  rw [empty, show Text.split "." "" = [""] from rfl] at cut
  exact (named "" (by simp [← cut])).1 rfl

theorem dottedPath_injective {first second : List String}
    (named : ∀ part ∈ first, IsComponent part) (alsoNamed : ∀ part ∈ second, IsComponent part)
    (same : dottedPath first = dottedPath second) : first = second := by
  by_cases none : first = []
  · subst none
    by_contra different
    exact dottedPath_ne_empty (Ne.symm different) alsoNamed same.symm
  · by_cases alsoNone : second = []
    · subst alsoNone
      exact absurd same (dottedPath_ne_empty none named)
    · rw [← Text.split_dottedPath none fun part member => (named part member).2, same,
        Text.split_dottedPath alsoNone fun part member => (alsoNamed part member).2]

namespace Json

theorem dotted_dottedPath {front : List String} (named : ∀ part ∈ front, IsComponent part)
    (key : String) : dotted (dottedPath front) key = dottedPath (front ++ [key]) := by
  by_cases none : front = []
  · subst none
    rfl
  · have filled : (dottedPath front).isEmpty = false := by
      simpa using dottedPath_ne_empty none named
    rw [dotted, filled, if_neg (by simp), dottedPath, dottedPath,
      String.intercalate_append_of_ne_nil none (by simp), String.intercalate_singleton]

namespace Value

/-- Values that are no containers. -/
def isScalar : Value → Bool
  | .object _ | .array _ => false
  | _ => true

/-- Maps of maps of scalars, each with the names of components as its keys. -/
inductive Plain : Value → Prop where
  | scalar {value : Value} (scalar : value.isScalar = true) : Plain value
  | object {members : Keyed Value} (ordered : Keyed.Ordered members)
      (named : ∀ entry ∈ members, IsComponent entry.1)
      (below : ∀ entry ∈ members, Plain entry.2) : Plain (.object members)

/-- The template text of a scalar. -/
def scalarText? (value : Value) : Option String :=
  if value.isScalar then some value.display else none

theorem flattenInto_scalar {value : Value} (scalar : value.isScalar = true) (parent : String)
    (table : Keyed String) : value.flattenInto parent table = leafInto parent table value := by
  cases value with
  | object | array => cases scalar
  | null | bool | number | string => simp only [flattenInto]

theorem flattenInto_object {members : Keyed Value} (parent : String) (table : Keyed String) :
    (object members).flattenInto parent table = flattenMembers parent table members := by
  simp only [flattenInto]

variable {value : Value} {front rest parts : List String}

theorem flattenMembers_append {members more : Keyed Value} (parent : String)
    (table : Keyed String) : flattenMembers parent table (members ++ more) =
      flattenMembers parent (flattenMembers parent table members) more := by
  induction members generalizing table with
  | nil => simp only [List.nil_append, flattenMembers]
  | cons member members ih => simp only [List.cons_append, flattenMembers, ih]

theorem find?_flattenMembers_apart {members : Keyed Value} {key parent : String}
    (apart : ∀ entry ∈ members, ∀ table,
      Keyed.find? key (entry.2.flattenInto (dotted parent entry.1) table) = Keyed.find? key table)
    (table : Keyed String) :
    Keyed.find? key (flattenMembers parent table members) = Keyed.find? key table := by
  induction members generalizing table with
  | nil => simp only [flattenMembers]
  | cons entry members ih =>
      rw [flattenMembers, ih fun other member => apart other (List.mem_cons_of_mem _ member)]
      obtain ⟨name, held⟩ := entry
      rw [flattenMember]
      exact apart (name, held) List.mem_cons_self table

theorem named_append {key : String} (above : ∀ part ∈ front, IsComponent part)
    (named : IsComponent key) : ∀ part ∈ front ++ [key], IsComponent part := by
  intro part member
  rcases List.mem_append.mp member with earlier | last
  · exact above part earlier
  · exact List.mem_singleton.mp last ▸ named

theorem find?_leafInto_of_ne {key parent : String} (different : key ≠ parent)
    (table : Keyed String) (leaf : Value) :
    Keyed.find? key (leafInto parent table leaf) = Keyed.find? key table := by
  unfold leafInto
  split
  · rfl
  · exact Keyed.find?_insert_of_ne different _ table

namespace Plain

/-- Flattening a value leaves the keys alone that do not lie below its own. -/
theorem find?_flattenInto_apart (plain : value.Plain)
    (above : ∀ part ∈ front, IsComponent part) (named : ∀ part ∈ parts, IsComponent part)
    (apart : ¬ front <+: parts) (table : Keyed String) :
    Keyed.find? (dottedPath parts) (value.flattenInto (dottedPath front) table) =
      Keyed.find? (dottedPath parts) table := by
  induction plain generalizing front table with
  | scalar scalar =>
      have different : dottedPath parts ≠ dottedPath front := by
        intro same
        rw [dottedPath_injective named above same] at apart
        exact apart (List.prefix_refl _)
      rw [flattenInto_scalar scalar, find?_leafInto_of_ne different]
  | object ordered keys below ih =>
      rw [flattenInto_object]
      refine find?_flattenMembers_apart ?_ table
      intro entry member table
      rw [dotted_dottedPath above]
      refine ih entry member (named_append above (keys entry member)) ?_ table
      intro longer
      exact apart ((List.prefix_append front [entry.1]).trans longer)

/-- The members of a map that no path goes through leave its key alone. -/
theorem find?_flattenMembers_of_plain {entries : Keyed Value}
    (plain : ∀ entry ∈ entries, entry.2.Plain) (keys : ∀ entry ∈ entries, IsComponent entry.1)
    (above : ∀ part ∈ front, IsComponent part) (named : ∀ part ∈ parts, IsComponent part)
    (apart : ∀ entry ∈ entries, ¬ front ++ [entry.1] <+: parts) (table : Keyed String) :
    Keyed.find? (dottedPath parts) (flattenMembers (dottedPath front) table entries) =
      Keyed.find? (dottedPath parts) table := by
  refine find?_flattenMembers_apart ?_ table
  intro entry member table
  rw [dotted_dottedPath above]
  exact (plain entry member).find?_flattenInto_apart (named_append above (keys entry member)) named
    (apart entry member) table

theorem find?_flattenInto_of_scalar (scalar : value.isScalar = true)
    (above : ∀ part ∈ front, IsComponent part) (named : ∀ part ∈ rest, IsComponent part)
    (nonempty : front ++ rest ≠ []) (table : Keyed String) :
    Keyed.find? (dottedPath (front ++ rest)) (value.flattenInto (dottedPath front) table) =
      ((value.at? rest).bind scalarText?).or (Keyed.find? (dottedPath (front ++ rest)) table) := by
  rw [flattenInto_scalar scalar]
  cases rest with
  | nil =>
      rw [List.append_nil] at nonempty ⊢
      have filled : (dottedPath front).isEmpty = false := by
        simpa using dottedPath_ne_empty nonempty above
      rw [leafInto, filled, if_neg (by simp), Keyed.find?_insert_self]
      simp [scalarText?, scalar]
  | cons part rest =>
      have nothing : value.at? (part :: rest) = none := by
        refine at?_leaf ?_
        rintro members rfl
        cases scalar
      have different : dottedPath (front ++ part :: rest) ≠ dottedPath front := by
        intro same
        have equal := dottedPath_injective (List.forall_mem_append.mpr ⟨above, named⟩) above same
        simp at equal
      rw [nothing, find?_leafInto_of_ne different]
      rfl

/-- Flattening a value gives the key of a path the text of the scalar that the path leads to. -/
theorem find?_flattenInto (plain : value.Plain) (above : ∀ part ∈ front, IsComponent part)
    (named : ∀ part ∈ rest, IsComponent part) (nonempty : front ++ rest ≠ [])
    (table : Keyed String) :
    Keyed.find? (dottedPath (front ++ rest)) (value.flattenInto (dottedPath front) table) =
      ((value.at? rest).bind scalarText?).or (Keyed.find? (dottedPath (front ++ rest)) table) := by
  induction plain generalizing front rest table with
  | scalar scalar => exact find?_flattenInto_of_scalar scalar above named nonempty table
  | @object members ordered keys below ih =>
      have whole := List.forall_mem_append.mpr ⟨above, named⟩
      rw [flattenInto_object]
      cases rest with
      | nil =>
          have apart : ∀ entry ∈ members, ¬ front ++ [entry.1] <+: front ++ [] := by
            intro entry _ shorter
            rw [List.prefix_append_right_inj] at shorter
            simp at shorter
          rw [find?_flattenMembers_of_plain below keys above whole apart]
          rfl
      | cons part rest =>
          have apart : ∀ entry : String × Value, entry.1 ≠ part →
              ¬ front ++ [entry.1] <+: front ++ part :: rest := by
            intro entry different shorter
            rw [List.prefix_append_right_inj, List.cons_prefix_cons] at shorter
            exact different shorter.1
          cases found : Keyed.find? part members with
          | none =>
              have missing : ∀ entry ∈ members, entry.1 ≠ part := by
                intro entry member same
                have listed := Keyed.mem_keys_iff.mp (List.mem_map_of_mem (f := Prod.fst) member)
                rw [same, found] at listed
                cases listed
              rw [find?_flattenMembers_of_plain below keys above whole
                fun entry member => apart entry (missing entry member)]
              simp [found]
          | some held =>
              -- The path goes through one member, and those on both sides lie apart from it.
              obtain ⟨before, behind, rfl, different⟩ := ordered.exists_split found
              obtain ⟨belowBefore, belowBehind⟩ := List.forall_mem_append.mp below
              obtain ⟨keysBefore, keysBehind⟩ := List.forall_mem_append.mp keys
              have deeper := ih (part, held) (by simp)
                (named_append above (named part List.mem_cons_self))
                (fun other member => named other (List.mem_cons_of_mem _ member)) (by simp)
              simp only [List.append_assoc, List.singleton_append] at deeper
              rw [flattenMembers_append, flattenMembers,
                find?_flattenMembers_of_plain (List.forall_mem_cons.mp belowBehind).2
                  (List.forall_mem_cons.mp keysBehind).2 above whole
                  fun other member => apart other (different other (by simp [member])),
                flattenMember, dotted_dottedPath above, deeper,
                find?_flattenMembers_of_plain belowBefore keysBefore above whole
                  fun other member => apart other (different other (by simp [member]))]
              simp [found]

/-- A flattened map holds the scalars of its paths, and nothing else under a path. -/
theorem find?_flatten (plain : value.Plain) (named : ∀ part ∈ parts, IsComponent part)
    (nonempty : parts ≠ []) :
    Keyed.find? (dottedPath parts) value.flatten = (value.at? parts).bind scalarText? := by
  have found : Keyed.find? (dottedPath ([] ++ parts)) (value.flattenInto (dottedPath []) []) =
      ((value.at? parts).bind scalarText?).or (Keyed.find? (dottedPath ([] ++ parts)) []) :=
    plain.find?_flattenInto (by simp) named (by simpa) []
  simpa [Keyed.find?, flatten, dottedPath] using found

end Plain

end Value

end Json

end TagTemplate
