import TagTemplate.Proofs.Cutting
import TagTemplate.Proofs.Stripping
import TagTemplate.Shape

/-!
Key-value bodies that are read as they were written.

Entries are written one behind the other with a delimiter at the end of each, or as lines.  The
delimiter is looked for in the whole body, so the lines are read as lines only because no part of
the delimiter can go over the end of a line.
-/

namespace TagTemplate.Shape

/-- An entry as it is written. -/
def written (pair : String × String) : String :=
  pair.1 ++ "=" ++ pair.2

/-- A key and a value of which nothing is lost when their entry is cut out and read. -/
structure Plain (pair : String × String) : Prop where
  key : Text.trim pair.1 = pair.1
  value : Text.trim pair.2 = pair.2
  given : pair.1 ≠ ""
  unsplit : '=' ∉ pair.1.toList
  apart : Text.Apart "|#|".toList (written pair).toList

variable {pair : String × String} {pairs : List (String × String)} {text : String}

theorem Plain.trim_written (plain : Plain pair) : Text.trim (written pair) = written pair := by
  obtain ⟨first, -⟩ := Text.trim_eq_self_iff.mp plain.key
  obtain ⟨-, last⟩ := Text.trim_eq_self_iff.mp plain.value
  obtain ⟨c, rest, starts⟩ := List.exists_cons_of_ne_nil (mt String.toList_eq_nil_iff.mp plain.given)
  have whole : (written pair).toList = c :: (rest ++ '=' :: pair.2.toList) := by
    simp [written, starts]
  rw [Text.trim_eq_self_iff, whole]
  constructor
  · simpa [starts] using first
  · rw [← List.cons_append, List.getLast?_append_cons, List.getLast?_cons]
    rintro _ ⟨⟩
    cases ends : pair.2.toList.getLast? with
    | none => decide
    | some c => exact last c ends

theorem Plain.entry_written (plain : Plain pair) : entry "=" (written pair) = .ok pair := by
  have cut : Text.splitOnce "=" (written pair) = some pair :=
    @Text.splitOnce_append '=' _ plain.unsplit pair.2
  simp [entry, cut, plain.key, plain.value, plain.given]

theorem isEmpty_written (pair : String × String) : (written pair).isEmpty = false := by
  simp [written]

theorem keyValues_of_entryTexts (plain : ∀ pair ∈ pairs, Plain pair)
    (texts : entryTexts .default text = pairs.map written) :
    keyValues .default text = .ok (Keyed.insertAll pairs []) := by
  rw [keyValues, texts]
  clear texts
  generalize ([] : Keyed String) = table
  induction pairs generalizing table with
  | nil => rfl
  | cons pair pairs ih =>
      obtain ⟨here, behind⟩ := List.forall_mem_cons.mp plain
      rw [List.map_cons, List.foldlM_cons]
      show (entry "=" (written pair) >>= _) >>= _ = _
      rw [here.entry_written]
      exact ih behind _

theorem filter_written (plain : ∀ pair ∈ pairs, Plain pair) :
    ((pairs.map written).map Text.trim).filter (fun entry => !entry.isEmpty) =
      pairs.map written := by
  have kept : (pairs.map written).map Text.trim = pairs.map written := by
    rw [List.map_map]
    exact List.map_congr_left fun pair member => (plain pair member).trim_written
  rw [kept, List.filter_eq_self, List.forall_mem_map]
  intro pair _
  rw [isEmpty_written, Bool.not_false]

theorem entryTexts_terminated (plain : ∀ pair ∈ pairs, Plain pair) :
    entryTexts .default (String.join (pairs.map fun pair => written pair ++ "|#|")) =
      pairs.map written := by
  cases pairs with
  | nil => decide
  | cons pair pairs =>
      have cut := @Text.split_terminated "|#|" ((pair :: pairs).map written) (by decide)
        (List.forall_mem_map.mpr fun pair member => (plain pair member).apart)
      rw [List.map_map, Function.comp_def] at cut
      have occurs : Text.occurs ShapeSyntax.default.listDelimiter.toList
          (String.join ((pair :: pairs).map fun pair => written pair ++ "|#|")).toList = true := by
        rw [Text.occurs_iff, String.toList_join, List.map_cons, List.flatMap_cons,
          String.toList_append]
        exact List.infix_append _ _ _
      rw [entryTexts, if_pos occurs]
      show ((Text.split "|#|" (String.join _)).map Text.trim).filter _ = _
      rw [cut, List.map_append, List.filter_append, filter_written plain]
      exact List.append_nil _

theorem entryTexts_lines (plain : ∀ pair ∈ pairs, Plain pair)
    (lines : ∀ pair ∈ pairs, '\n' ∉ (written pair).toList) :
    entryTexts .default ("\n".intercalate (pairs.map written)) = pairs.map written := by
  cases pairs with
  | nil => decide
  | cons pair pairs =>
      have cut := Text.split_intercalate_singleton (List.forall_mem_map.mpr lines) (by simp)
      have unmarked : ¬ Text.occurs ShapeSyntax.default.listDelimiter.toList
          ("\n".intercalate ((pair :: pairs).map written)).toList = true := by
        rw [Text.occurs_iff, String.toList_intercalate]
        -- the delimiter has no line feed, so it would stand within one line
        intro found
        obtain ⟨_, member, inside⟩ :=
          Text.exists_infix_of_infix_intercalate (by decide) (by decide) found
        obtain ⟨_, entry, rfl⟩ := List.mem_map.mp member
        obtain ⟨other, among, rfl⟩ := List.mem_map.mp entry
        exact (plain other among).apart.not_infix (by decide) inside
      rw [entryTexts, if_neg unmarked]
      show ((Text.split (String.singleton '\n') _).map Text.trim).filter _ = _
      rw [show "\n" = String.singleton '\n' from rfl, cut, filter_written plain]

/-- The entries give each key its last value, delimited or as lines. -/
theorem keyValues_written (pairs : List (String × String)) (plain : ∀ pair ∈ pairs, Plain pair) :
    ∃ table : Keyed String, table.Ordered ∧
      (∀ key, Keyed.find? key table = Keyed.last? key pairs) ∧
      keyValues .default (String.join (pairs.map fun pair => written pair ++ "|#|")) = .ok table ∧
      ((∀ pair ∈ pairs, '\n' ∉ pair.1.toList ∧ '\n' ∉ pair.2.toList) →
        keyValues .default ("\n".intercalate (pairs.map written)) = .ok table) := by
  refine ⟨Keyed.insertAll pairs [], Keyed.Ordered.insertAll .nil pairs, fun key => ?_, ?_, ?_⟩
  · rw [Keyed.find?_insertAll]
    exact Option.or_none
  · exact keyValues_of_entryTexts plain (entryTexts_terminated plain)
  · intro lines
    refine keyValues_of_entryTexts plain (entryTexts_lines plain fun pair member => ?_)
    simpa [written] using lines pair member

/-- A key that is given twice, and a value with the characters of the delimiter. -/
theorem keyValues_written_twice :
    let pairs := [("a", "1=2"), ("b", "|# #|"), ("a", "")]
    (∀ pair ∈ pairs, Plain pair) ∧
      (∀ pair ∈ pairs, '\n' ∉ pair.1.toList ∧ '\n' ∉ pair.2.toList) ∧
      ∃ table, keyValues .default "a=1=2|#|b=|# #||#|a=|#|" = .ok table ∧
        keyValues .default "a=1=2\nb=|# #|\na=" = .ok table ∧
        Keyed.find? "a" table = some "" ∧ Keyed.find? "b" table = some "|# #|" := by
  intro pairs
  have plain : ∀ pair ∈ pairs, Plain pair := by
    simp only [pairs, List.forall_mem_cons]
    refine ⟨?_, ?_, ?_, nofun⟩ <;>
      exact ⟨by decide, by decide, by decide, by decide, Text.apart_of_not_infix (by decide)⟩
  have single : ∀ pair ∈ pairs, '\n' ∉ pair.1.toList ∧ '\n' ∉ pair.2.toList := by decide
  obtain ⟨table, -, last, terminated, lines⟩ := keyValues_written pairs plain
  exact ⟨plain, single, table, terminated, lines single, last "a", last "b"⟩

end TagTemplate.Shape
