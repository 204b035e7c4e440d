/-!
Entries under text keys, in increasing order of their keys.

The order is that of the code points, which is also the order of the UTF-8 bytes.
The operations keep each key once and leave the order intact, so that equal
contents are equal lists.
-/

namespace TagTemplate

/-- Entries in increasing order of their keys. -/
abbrev Keyed (α : Type u) := List (String × α)

namespace Keyed

variable {α : Type u}

def keys (entries : Keyed α) : List String :=
  entries.map Prod.fst

def find? (key : String) : Keyed α → Option α
  | [] => none
  | (k, v) :: rest => if k = key then some v else find? key rest

/-- Puts a value under a key, in place of the one that was there. -/
def insert (key : String) (value : α) : Keyed α → Keyed α
  | [] => [(key, value)]
  | (k, v) :: rest =>
    if key < k then (key, value) :: (k, v) :: rest
    else if k = key then (key, value) :: rest
    else (k, v) :: insert key value rest

/-- Removes a key and its value. -/
def erase (key : String) (entries : Keyed α) : Keyed α :=
  entries.filter fun entry => entry.1 ≠ key

def contains (key : String) (entries : Keyed α) : Bool :=
  (find? key entries).isSome

/-- Puts a value under a key that is missing. -/
def ensure (key : String) (value : α) (entries : Keyed α) : Keyed α :=
  if contains key entries then entries else insert key value entries

/-- The value that the last entry of a key gives it. -/
def last? (key : String) : List (String × α) → Option α
  | [] => none
  | (k, v) :: rest => (last? key rest).or (if k = key then some v else none)

/-- Puts entries in one after the other, so that of several values for a key the last one stays. -/
def insertAll (entries : List (String × α)) (table : Keyed α) : Keyed α :=
  entries.foldl (fun table entry => insert entry.1 entry.2 table) table

/-- Changes the value of a key that is there, in its place. -/
def replace (key : String) (value : α) : Keyed α → Keyed α
  | [] => []
  | (k, v) :: rest => if k = key then (k, value) :: rest else (k, v) :: replace key value rest

def Ordered (entries : Keyed α) : Prop :=
  entries.Pairwise fun a b => a.1 < b.1

theorem mem_insert {key : String} {value : α} {entries : Keyed α} {entry : String × α}
    (member : entry ∈ insert key value entries) : entry = (key, value) ∨ entry ∈ entries := by
  induction entries with
  | nil => exact .inl (List.mem_singleton.mp member)
  | cons first rest ih =>
      obtain ⟨k, v⟩ := first
      unfold insert at member
      split at member
      · exact List.mem_cons.mp member
      · split at member
        · exact (List.mem_cons.mp member).imp_right (List.mem_cons_of_mem _)
        · rcases List.mem_cons.mp member with rfl | later
          · exact .inr (by simp)
          · exact (ih later).imp_right (List.mem_cons_of_mem _)

theorem Ordered.insert {entries : Keyed α} (ordered : Ordered entries) (key : String) (value : α) :
    Ordered (insert key value entries) := by
  induction entries with
  | nil => exact List.pairwise_singleton _ _
  | cons first rest ih =>
      obtain ⟨k, v⟩ := first
      obtain ⟨above, later⟩ := List.pairwise_cons.mp ordered
      unfold Keyed.insert
      split
      · rename_i before
        refine List.pairwise_cons.mpr ⟨fun entry member => ?_, ordered⟩
        rcases List.mem_cons.mp member with rfl | deeper
        · exact before
        · exact String.lt_trans before (above entry deeper)
      · split
        · rename_i same
          subst same
          exact List.pairwise_cons.mpr ⟨above, later⟩
        · rename_i notBefore different
          refine List.pairwise_cons.mpr ⟨fun entry member => ?_, ih later⟩
          rcases mem_insert member with rfl | old
          · exact Std.lt_of_le_of_ne (String.not_lt.mp notBefore) different
          · exact above entry old

theorem Ordered.erase {entries : Keyed α} (ordered : Ordered entries) (key : String) :
    Ordered (erase key entries) :=
  List.Pairwise.filter _ ordered

theorem mem_replace {key : String} {value : α} {entries : Keyed α} {entry : String × α}
    (member : entry ∈ replace key value entries) : entry = (key, value) ∨ entry ∈ entries := by
  induction entries with
  | nil => cases member
  | cons first rest ih =>
      obtain ⟨k, v⟩ := first
      unfold replace at member
      split at member
      · rename_i same
        subst same
        exact (List.mem_cons.mp member).imp_right (List.mem_cons_of_mem _)
      · rcases List.mem_cons.mp member with rfl | later
        · exact .inr (by simp)
        · exact (ih later).imp_right (List.mem_cons_of_mem _)

theorem keys_replace (key : String) (value : α) (entries : Keyed α) :
    keys (replace key value entries) = keys entries := by
  induction entries with
  | nil => rfl
  | cons first rest ih =>
      obtain ⟨k, v⟩ := first
      unfold replace
      split
      · rfl
      · exact congrArg (k :: ·) ih

theorem pairwise_keys_iff {entries : Keyed α} :
    (keys entries).Pairwise (· < ·) ↔ Ordered entries :=
  List.pairwise_map

theorem Ordered.replace {entries : Keyed α} (ordered : Ordered entries) (key : String)
    (value : α) : Ordered (replace key value entries) := by
  rw [← pairwise_keys_iff, keys_replace]
  exact pairwise_keys_iff.mpr ordered

theorem mem_keys_iff {key : String} {entries : Keyed α} :
    key ∈ keys entries ↔ (find? key entries).isSome := by
  induction entries with
  | nil => simp [keys, find?]
  | cons first rest ih =>
      obtain ⟨k, v⟩ := first
      by_cases same : k = key
      · simp [keys, find?, same]
      · simpa [keys, find?, same, Ne.symm same] using ih

theorem mem_of_find? {key : String} {value : α} {entries : Keyed α}
    (found : find? key entries = some value) : (key, value) ∈ entries := by
  induction entries with
  | nil => cases found
  | cons entry rest ih =>
      obtain ⟨k, v⟩ := entry
      rw [find?] at found
      split at found
      · rename_i same
        cases found
        simp [same]
      · exact List.mem_cons_of_mem _ (ih found)

/-- The entry of a key, and all others beside it. -/
theorem Ordered.exists_split {key : String} {value : α} {entries : Keyed α}
    (ordered : Ordered entries) (found : find? key entries = some value) :
    ∃ before behind, entries = before ++ (key, value) :: behind ∧
      ∀ entry ∈ before ++ behind, entry.1 ≠ key := by
  obtain ⟨before, behind, rfl⟩ := List.append_of_mem (mem_of_find? found)
  obtain ⟨_, above, below⟩ := List.pairwise_append.mp ordered
  refine ⟨before, behind, rfl, ?_⟩
  intro entry member same
  rcases List.mem_append.mp member with earlier | later
  · exact String.lt_irrefl key (same ▸ below entry earlier (key, value) List.mem_cons_self)
  · exact String.lt_irrefl key (same ▸ List.rel_of_pairwise_cons above later)

theorem find?_insert_self (key : String) (value : α) (entries : Keyed α) :
    find? key (insert key value entries) = some value := by
  induction entries with
  | nil => simp [insert, find?]
  | cons entry rest ih =>
      obtain ⟨k, v⟩ := entry
      unfold insert
      split
      · simp [find?]
      · split
        · simp [find?]
        · rename_i different
          simp [find?, different, ih]

theorem find?_insert_of_ne {key other : String} (different : other ≠ key) (value : α)
    (entries : Keyed α) :
    find? other (insert key value entries) = find? other entries := by
  induction entries with
  | nil => simp [insert, find?, Ne.symm different]
  | cons entry rest ih =>
      obtain ⟨k, v⟩ := entry
      unfold insert
      split
      · simp [find?, Ne.symm different]
      · split
        · rename_i same
          subst same
          simp [find?, Ne.symm different]
        · simp [find?, ih]

/-- A key behind all others is put at the end. -/
theorem insert_last {key : String} {entries : Keyed α} (below : ∀ entry ∈ entries, entry.1 < key)
    (value : α) : insert key value entries = entries ++ [(key, value)] := by
  induction entries with
  | nil => rfl
  | cons first rest ih =>
      obtain ⟨k, v⟩ := first
      have before : k < key := below (k, v) List.mem_cons_self
      have different : k ≠ key := fun same => String.lt_irrefl key (same ▸ before)
      have behind := ih fun entry member => below entry (List.mem_cons_of_mem _ member)
      rw [insert, if_neg (String.lt_asymm before), if_neg different, behind, List.cons_append]

theorem contains_of_below {key : String} {entries : Keyed α}
    (below : ∀ entry ∈ entries, entry.1 < key) : contains key entries = false := by
  rw [contains, Option.isSome_eq_false_iff, Option.isNone_iff_eq_none]
  cases found : find? key entries with
  | none => rfl
  | some value => exact absurd (below _ (mem_of_find? found)) (String.lt_irrefl key)

theorem find?_erase_self (key : String) (entries : Keyed α) :
    find? key (erase key entries) = none := by
  induction entries with
  | nil => rfl
  | cons entry rest ih =>
      obtain ⟨k, v⟩ := entry
      by_cases same : k = key
      · simpa [erase, same] using ih
      · simpa [erase, find?, same] using ih

theorem find?_erase_of_ne {key other : String} (different : other ≠ key)
    (entries : Keyed α) :
    find? other (erase key entries) = find? other entries := by
  induction entries with
  | nil => rfl
  | cons entry rest ih =>
      obtain ⟨k, v⟩ := entry
      by_cases same : k = key
      · subst same
        simpa [erase, find?, Ne.symm different] using ih
      · simp only [erase, ne_eq, same, not_false_eq_true, decide_true, List.filter_cons_of_pos,
          find?]
        rw [← ih]
        rfl

theorem erase_of_missing {key : String} {entries : Keyed α} (missing : find? key entries = none) :
    erase key entries = entries := by
  apply List.filter_eq_self.mpr
  rintro ⟨k, v⟩ member
  have absent : key ∉ keys entries := by simp [mem_keys_iff, missing]
  have different : k ≠ key := fun same => absent (same ▸ List.mem_map_of_mem member)
  simpa using different

theorem erase_replace (key : String) (value : α) (entries : Keyed α) :
    erase key (replace key value entries) = erase key entries := by
  induction entries with
  | nil => rfl
  | cons entry rest ih =>
      obtain ⟨k, v⟩ := entry
      by_cases same : k = key
      · simp [replace, erase, same]
      · simpa [replace, erase, same] using ih

theorem ensure_of_find? {key : String} {old : α} {entries : Keyed α}
    (found : find? key entries = some old) (value : α) : ensure key value entries = entries := by
  simp [ensure, contains, found]

theorem ensure_of_missing {key : String} {entries : Keyed α}
    (missing : find? key entries = none) (value : α) :
    ensure key value entries = insert key value entries := by
  simp [ensure, contains, missing]

theorem find?_replace_self {key : String} {old : α} {entries : Keyed α}
    (found : find? key entries = some old) (value : α) :
    find? key (replace key value entries) = some value := by
  induction entries with
  | nil => cases found
  | cons entry rest ih =>
      obtain ⟨k, v⟩ := entry
      by_cases same : k = key
      · simp [replace, find?, same]
      · simp only [find?, same, if_false] at found
        simpa [replace, find?, same] using ih found

theorem find?_replace_of_ne {key other : String} (different : other ≠ key) (value : α)
    (entries : Keyed α) :
    find? other (replace key value entries) = find? other entries := by
  induction entries with
  | nil => rfl
  | cons entry rest ih =>
      obtain ⟨k, v⟩ := entry
      by_cases same : k = key
      · simp [replace, find?, same, Ne.symm different]
      · simp [replace, find?, same, ih]

theorem last?_isSome_iff {key : String} {entries : List (String × α)} :
    (last? key entries).isSome ↔ key ∈ keys entries := by
  induction entries with
  | nil => simp [last?, keys]
  | cons entry rest ih =>
      obtain ⟨k, v⟩ := entry
      by_cases same : k = key
      · simp [last?, keys, same]
      · simpa [last?, keys, same, Ne.symm same] using ih

theorem find?_insertAll (key : String) (entries : List (String × α)) (table : Keyed α) :
    find? key (insertAll entries table) = (last? key entries).or (find? key table) := by
  induction entries generalizing table with
  | nil => rfl
  | cons entry rest ih =>
      obtain ⟨k, v⟩ := entry
      rw [insertAll, List.foldl_cons, ← insertAll, ih, last?]
      by_cases same : k = key
      · subst same
        rw [find?_insert_self, if_pos rfl, Option.or_assoc, Option.some_or]
      · rw [find?_insert_of_ne (Ne.symm same), if_neg same, Option.or_none]

theorem Ordered.insertAll {table : Keyed α} (ordered : Ordered table)
    (entries : List (String × α)) : Ordered (insertAll entries table) := by
  induction entries generalizing table with
  | nil => exact ordered
  | cons entry rest ih => exact ih (ordered.insert entry.1 entry.2)

/-- Writing back what is there changes nothing. -/
theorem replace_self {key : String} {value : α} {entries : Keyed α}
    (found : find? key entries = some value) : replace key value entries = entries := by
  induction entries with
  | nil => rfl
  | cons entry rest ih =>
      obtain ⟨k, v⟩ := entry
      by_cases same : k = key
      · simp only [find?, same, if_true, Option.some.injEq] at found
        simp [replace, same, found]
      · simp only [find?, same, if_false] at found
        simp [replace, same, ih found]

end Keyed

end TagTemplate
