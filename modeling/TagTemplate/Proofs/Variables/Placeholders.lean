import TagTemplate.Proofs.Placeholder.Admitted
import TagTemplate.Proofs.Variables.Flattened
import TagTemplate.Proofs.Variables.Setting

/-!
Placeholders filled with variables.

Variables that are set to scalars are maps of maps of scalars, whose keys are components of
paths.  Walking down a path and looking its key up among the flattened leaves then give the
same.
-/

namespace TagTemplate

open TagTemplate.Json (Value)

theorem mem_dottedPath {parts : List String} {c : Char} (member : c ∈ (dottedPath parts).toList) :
    c = '.' ∨ ∃ part ∈ parts, c ∈ part.toList := by
  induction parts with
  | nil => simp [dottedPath] at member
  | cons part parts ih =>
      by_cases last : parts = []
      · subst last
        exact .inr ⟨part, by simp, by simpa [dottedPath] using member⟩
      · rw [dottedPath, String.intercalate_cons_of_ne_nil last, String.toList_append,
          String.toList_append, List.append_assoc, List.mem_append, List.mem_append] at member
        rcases member with here | dot | behind
        · exact .inr ⟨part, List.mem_cons_self, here⟩
        · exact .inl (List.mem_singleton.mp dot)
        · rcases ih behind with dot | ⟨other, listed, inside⟩
          · exact .inl dot
          · exact .inr ⟨other, List.mem_cons_of_mem _ listed, inside⟩

namespace Variables

variable {mode : SetMode} {value new : Value} {old : Option Value} {path : String}
  {parts : List String} {members : Keyed Value} {vars : Variables}

theorem components_dottedPath (nonempty : parts ≠ []) (named : ∀ part ∈ parts, IsComponent part)
    (unblank : ∀ part ∈ parts, ∀ c ∈ part.toList, Text.isBlank c = false) :
    components (dottedPath parts) = .ok parts := by
  have trimmed : parts.map Text.trim = parts := by
    refine (List.map_congr_left fun part member => ?_).trans (List.map_id parts)
    have stripped : Text.strip Text.isBlank part.toList = part.toList :=
      Text.strip_eq_self (fun c first => unblank part member c (List.mem_of_head? first))
        fun c last => unblank part member c (List.mem_of_getLast? last)
    rw [Text.trim, stripped, String.ofList_toList, id]
  have filled : ¬ parts.any String.isEmpty = true := by
    intro blank
    obtain ⟨part, member, empty⟩ := List.any_eq_true.mp blank
    exact (named part member).1 (String.isEmpty_iff.mp empty)
  rw [components, Text.split_dottedPath nonempty fun part member => (named part member).2, trimmed,
    if_neg filled]

theorem isComponent_of_components (named : components path = .ok parts) :
    ∀ part ∈ parts, IsComponent part := by
  rw [components] at named
  split at named
  · cases named
  · rename_i filled
    cases named
    intro part member
    refine ⟨?_, ?_⟩
    · rintro rfl
      exact filled (List.any_eq_true.mpr ⟨"", member, rfl⟩)
    · obtain ⟨piece, listed, rfl⟩ := List.mem_map.mp member
      obtain ⟨cs, cut, rfl⟩ := List.mem_map.mp listed
      intro dot
      rw [Text.trim, String.toList_ofList, String.toList_ofList] at dot
      exact Text.mark_not_mem_piecesFrom cs cut (Text.strip_subset _ cs dot)

/-- Variables that have been set to scalars, removed and cleared, from none on.  Setting one
may fail. -/
inductive Reached : Variables → Prop where
  | empty : Reached .empty
  | assigned {vars : Variables} {value : Value} (path : String) (mode : SetMode)
      (reached : Reached vars) (scalar : value.isScalar = true) :
      Reached (vars.assign path value mode).2
  | removed {vars after : Variables} {path : String} {held : Option Value}
      (reached : Reached vars) (done : vars.remove path = (.ok held, after)) : Reached after
  | cleared {vars : Variables} (reached : Reached vars) : Reached .empty

theorem Merged.isScalar (merged : Merged mode value old new) (scalar : value.isScalar = true)
    (plain : ∀ held ∈ old, held.Plain) : new.isScalar = true := by
  cases merged with
  | whole => exact scalar
  | joined => rfl
  | extended _ _ | pushed _ _ =>
      cases plain _ rfl with
      | scalar array => cases array

end Variables

namespace Json.Value.Plain

open Variables

variable {mode : SetMode} {value held : Value} {key part : String} {parts : List String}
  {members : Keyed Value}

theorem of_find? (plain : (Value.object members).Plain)
    (found : Keyed.find? key members = some held) : held.Plain := by
  cases plain with
  | scalar scalar => cases scalar
  | object _ _ below => exact below _ (Keyed.mem_of_find? found)

theorem empty : (Value.object []).Plain :=
  .object .nil (by simp) (by simp)

theorem insert (plain : (Value.object members).Plain) (named : IsComponent key)
    (below : held.Plain) : (Value.object (Keyed.insert key held members)).Plain := by
  cases plain with
  | scalar scalar => cases scalar
  | object ordered keys others =>
      refine .object (ordered.insert key held) ?_ ?_ <;> intro entry member <;>
        rcases Keyed.mem_insert member with rfl | old
      · exact named
      · exact keys entry old
      · exact below
      · exact others entry old

theorem replace (plain : (Value.object members).Plain) (named : IsComponent key)
    (below : held.Plain) : (Value.object (Keyed.replace key held members)).Plain := by
  cases plain with
  | scalar scalar => cases scalar
  | object ordered keys others =>
      refine .object (ordered.replace key held) ?_ ?_ <;> intro entry member <;>
        rcases Keyed.mem_replace member with rfl | old
      · exact named
      · exact keys entry old
      · exact below
      · exact others entry old

theorem erase (plain : (Value.object members).Plain) (key : String) :
    (Value.object (Keyed.erase key members)).Plain := by
  cases plain with
  | scalar scalar => cases scalar
  | object ordered keys others =>
      exact .object (ordered.erase key)
        (fun entry member => keys entry (List.mem_filter.mp member).1)
        fun entry member => others entry (List.mem_filter.mp member).1

theorem store (plain : (Value.object members).Plain) (scalar : value.isScalar = true)
    (named : ∀ part ∈ parts, IsComponent part) :
    (Value.object (Variables.store mode value parts members).2).Plain := by
  induction parts generalizing members with
  | nil => exact plain
  | cons part rest ih =>
      obtain ⟨here, behind⟩ := List.forall_mem_cons.mp named
      by_cases last : rest = []
      · subst last
        rw [store_last]
        cases merged : merge mode value (Keyed.find? part members) with
        | error fault => exact plain
        | ok new =>
            have below := (merged_of_merge merged).isScalar scalar fun held found =>
              plain.of_find? found
            exact plain.insert here (.scalar below)
      · rcases find?_cases part members with missing | ⟨inner, found⟩ | ⟨held, found, leaf⟩
        -- An empty map is inserted first, and then the rest of the path is stored in it.
        · rw [store_created missing last]
          exact (plain.insert here .empty).replace here (ih .empty behind)
        · rw [store_entered found last]
          exact plain.replace here (ih (plain.of_find? found) behind)
        · rw [store_blocked found leaf last]
          exact plain

theorem discard (plain : (Value.object members).Plain) (named : ∀ part ∈ parts, IsComponent part) :
    (Value.object (Variables.discard parts members)).Plain := by
  induction parts generalizing members with
  | nil => exact plain
  | cons part rest ih =>
      obtain ⟨here, behind⟩ := List.forall_mem_cons.mp named
      cases rest with
      | nil => exact plain.erase part
      | cons next rest =>
          rw [Variables.discard]
          · split
            · rename_i inner found
              exact plain.replace here (ih (plain.of_find? found) behind)
            · exact plain
          · simp

/-- What a path leads to from a plain value is plain, so it is a scalar or a map. -/
theorem at? {found : Value} (plain : value.Plain) (reached : value.at? parts = some found) :
    found.Plain := by
  induction parts generalizing value with
  | nil =>
      cases reached
      exact plain
  | cons part rest ih =>
      cases value with
      | object members =>
          obtain ⟨next, here, behind⟩ := Option.bind_eq_some_iff.mp reached
          exact ih (plain.of_find? here) behind
      | null | bool | number | string | array => cases reached

end Json.Value.Plain

theorem Variables.Reached.plain {vars : Variables} (reached : vars.Reached) :
    vars.toValue.Plain := by
  induction reached with
  | empty | cleared => exact .empty
  | @assigned vars value path mode reached scalar ih =>
      cases named : components path with
      | error error =>
          simp only [assign, named]
          exact ih
      | ok parts =>
          rw [assign_of_components named]
          exact Value.Plain.store ih scalar (isComponent_of_components named)
  | @removed vars after path held reached done ih =>
      rw [remove] at done
      cases named : components path with
      | error error =>
          rw [named] at done
          cases done
      | ok parts =>
          rw [named] at done
          cases done
          exact Value.Plain.discard ih (isComponent_of_components named)

namespace PlaceholderSyntax

/-- A placeholder as it is written without white space. -/
def written (key : String) : String :=
  "\x7b:=" ++ key ++ "\x7d"

variable {key : String}

theorem placeholderAt?_written (nonempty : key ≠ "")
    (named : ∀ c ∈ key.toList, isNameChar c = true) :
    default.placeholderAt? (written key).toList =
      some (⟨key.toList, (written key).toList⟩, (written key).toList.length) := by
  have spelled : (written key).toList = default.spell [] key.toList [] := by
    simp [written, spell, default]
  have admits : default.Admits ⟨key.toList, (written key).toList⟩ := by
    rw [spelled]
    exact .spelled (by simp) (by simpa using nonempty) named (by simp)
  have found := placeholderAt?_of_admits admits []
  rwa [List.append_nil] at found

theorem fill_written (nonempty : key ≠ "") (named : ∀ c ∈ key.toList, isNameChar c = true)
    (values : Value) :
    default.fill (written key) values =
      (Keyed.find? key values.flatten).getD (written key) := by
  have matched := placeholderAt?_written nonempty named
  have scanned : Text.scan default.placeholderAt? (written key).toList =
      [.found ⟨key.toList, (written key).toList⟩] := by
    obtain ⟨c, cs, chars⟩ : ∃ c cs, (written key).toList = c :: cs :=
      ⟨'\x7b', [':', '='] ++ key.toList ++ ['\x7d'], by simp [written]⟩
    rw [chars] at matched ⊢
    rw [Text.scan_of_match matched, List.length_cons, Nat.add_sub_cancel, List.drop_length,
      Text.scan_nil]
  simp only [fill, scanned, Text.Piece.render_found, Text.Piece.render_nil, List.append_nil,
    String.ofList_toList]
  cases Keyed.find? key values.flatten <;> simp

end PlaceholderSyntax

namespace Variables

/-- A placeholder and the variables agree on a path: where the path has a scalar, the
placeholder is replaced by its text, and where it has a map or nothing, the placeholder
stays as it is written. -/
theorem fill_eq_getText? {vars : Variables} (reached : vars.Reached) {parts : List String}
    (nonempty : parts ≠ []) (named : ∀ part ∈ parts, part ≠ "" ∧
      ∀ c ∈ part.toList, c.isAlphanum = true ∨ c = '_' ∨ c = '-') :
    let path := ".".intercalate parts
    let filled := PlaceholderSyntax.default.fill ("\x7b:=" ++ path ++ "\x7d") vars.toValue
    (∃ leaf, leaf.isScalar = true ∧ vars.get? path = .ok (some leaf) ∧
        vars.getText? path = .ok (some filled)) ∨
      (vars.get? path = .ok none ∧ filled = "\x7b:=" ++ path ++ "\x7d") ∨
      ∃ members, vars.get? path = .ok (some (.object members)) ∧
        filled = "\x7b:=" ++ path ++ "\x7d" := by
  have nameChars : ∀ part ∈ parts, ∀ c ∈ part.toList, isNameChar c = true ∧ c ≠ '.' := by
    intro part member c inside
    rcases (named part member).2 c inside with letter | rfl | rfl
    · refine ⟨by simp [isNameChar, letter], ?_⟩
      rintro rfl
      revert letter
      decide
    · decide
    · decide
  have component : ∀ part ∈ parts, IsComponent part := fun part member =>
    ⟨(named part member).1, fun dot => (nameChars part member '.' dot).2 rfl⟩
  have cut : components (dottedPath parts) = .ok parts :=
    components_dottedPath nonempty component fun part member c inside =>
      isBlank_of_isNameChar (nameChars part member c inside).1
  have chars : ∀ c ∈ (dottedPath parts).toList, isNameChar c = true := by
    intro c member
    rcases mem_dottedPath member with rfl | ⟨part, listed, inside⟩
    · rfl
    · exact (nameChars part listed c inside).1
  intro path filled
  have looked : vars.get? path = .ok (vars.toValue.at? parts) := get?_eq_at? cut
  have written : filled = (Keyed.find? path vars.toValue.flatten).getD ("\x7b:=" ++ path ++ "\x7d") :=
    PlaceholderSyntax.fill_written (dottedPath_ne_empty nonempty component) chars vars.toValue
  have agree : Keyed.find? path vars.toValue.flatten =
      (vars.toValue.at? parts).bind Value.scalarText? :=
    reached.plain.find?_flatten component nonempty
  rw [agree] at written
  cases found : vars.toValue.at? parts with
  | none =>
      rw [found] at looked written
      exact .inr (.inl ⟨looked, written⟩)
  | some value =>
      rw [found] at looked written
      cases reached.plain.at? found with
      | scalar scalar =>
          have text : vars.getText? path = .ok (some value.display) := by
            rw [getText?, looked]
            rfl
          refine .inl ⟨value, scalar, looked, ?_⟩
          rw [text, written]
          simp [Value.scalarText?, scalar]
      | object => exact .inr (.inr ⟨_, looked, written⟩)

/-- Two variables of one map, of which one is appended to and the other removed again. -/
theorem fill_eq_getText?_nested :
    ∃ vars : Variables, vars.Reached ∧
      PlaceholderSyntax.default.fill "\x7b:=page.title\x7d" vars.toValue = "ab" ∧
      PlaceholderSyntax.default.fill "\x7b:=page.size\x7d" vars.toValue =
        "\x7b:=page.size\x7d" := by
  let vars : Variables := ⟨[("page", .object [("title", .string "ab")])]⟩
  have reached : vars.Reached := by
    have first : Reached ⟨[("page", .object [("title", .string "a")])]⟩ :=
      @Reached.assigned .empty (.string "a") "page.title" .replace .empty rfl
    have second : Reached vars := @Reached.assigned _ (.string "b") "page.title" .append first rfl
    have third : Reached ⟨[("page", .object [("size", .null), ("title", .string "ab")])]⟩ :=
      @Reached.assigned _ .null "page.size" .keep second rfl
    exact @Reached.removed _ _ "page.size" _ third rfl
  have named : ∀ parts : List String,
      (parts.all fun part => part != "" && part.toList.all Char.isAlphanum) = true →
      ∀ part ∈ parts, part ≠ "" ∧ ∀ c ∈ part.toList, c.isAlphanum = true ∨ c = '_' ∨ c = '-' := by
    intro parts letters part member
    have both := List.all_eq_true.mp letters part member
    simp only [Bool.and_eq_true, bne_iff_ne, List.all_eq_true] at both
    exact ⟨both.1, fun c inside => .inl (both.2 c inside)⟩
  have title := @fill_eq_getText? vars reached ["page", "title"] (by simp) (named _ (by decide))
  have size := @fill_eq_getText? vars reached ["page", "size"] (by simp) (named _ (by decide))
  refine ⟨vars, reached, ?_, ?_⟩
  · have held : vars.getText? "page.title" = .ok (some "ab") := rfl
    rcases title with ⟨leaf, _, _, text⟩ | ⟨missing, _⟩ | ⟨members, map, _⟩
    · exact Option.some.inj (Except.ok.inj (text.symm.trans held))
    · cases missing
    · cases map
  · rcases size with ⟨leaf, _, found, _⟩ | ⟨_, kept⟩ | ⟨members, map, _⟩
    · cases found
    · exact kept
    · cases map

end Variables

end TagTemplate
