import TagTemplate.Text.Scan

/-!
What a scan of a text says about its parts.

A scan loses nothing, and each run of its pieces is the scan of the text of that run.
-/

namespace TagTemplate.Text

variable {α : Type} {matcher : Matcher α} {write : α → List Char}
  {text left right : List Char} {pieces before middle after : List (Piece α)}

namespace Piece

@[simp] theorem render_nil : render write [] = [] := rfl

@[simp] theorem render_char {c : Char} :
    render write (.char c :: pieces) = c :: render write pieces := rfl

@[simp] theorem render_found {a : α} :
    render write (.found a :: pieces) = write a ++ render write pieces := rfl

@[simp] theorem render_append :
    render write (before ++ after) = render write before ++ render write after :=
  List.flatMap_append

theorem mem_render_iff {c : Char} :
    c ∈ render write pieces ↔ .char c ∈ pieces ∨ ∃ a, .found a ∈ pieces ∧ c ∈ write a := by
  induction pieces with
  | nil => simp
  | cons piece pieces ih => cases piece <;> simp [ih, or_and_right, exists_or, or_left_comm, or_assoc]

theorem render_chars (write : α → List Char) (text : List Char) :
    render write (text.map .char) = text := by
  induction text with
  | nil => rfl
  | cons c text ih => simp [ih]

end Piece

/-- A character that no match is written with stands between the matches. -/
theorem Piece.split_at_char {c : Char} (absent : ∀ a, .found a ∈ pieces → c ∉ write a)
    (split : Piece.render write pieces = left ++ c :: right) :
    ∃ before after, pieces = before ++ .char c :: after ∧ Piece.render write before = left ∧
      Piece.render write after = right := by
  induction pieces generalizing left with
  | nil => simp at split
  | cons piece pieces ih =>
      have behind := fun left => @ih left fun a member => absent a (List.mem_cons_of_mem _ member)
      cases piece with
      | char first =>
          cases left with
          | nil =>
              cases split
              exact ⟨[], pieces, rfl, rfl, rfl⟩
          | cons other left =>
              obtain ⟨rfl, same⟩ := List.cons_eq_cons.mp split
              obtain ⟨before, after, rfl, rfl, rfl⟩ := behind left same
              exact ⟨.char first :: before, after, rfl, rfl, rfl⟩
      | found a =>
          rw [render_found, List.append_eq_append_iff] at split
          rcases split with ⟨rest, rfl, same⟩ | ⟨rest, written, same⟩
          · obtain ⟨before, after, rfl, rfl, rfl⟩ := behind rest same
            exact ⟨.found a :: before, after, rfl, rfl, rfl⟩
          · cases rest with
            | nil =>
                obtain ⟨before, after, rfl, here, rfl⟩ := behind [] same.symm
                refine ⟨.found a :: before, after, rfl, ?_, rfl⟩
                rw [render_found, here, written, List.append_nil, List.append_nil]
            | cons first rest =>
                cases same
                exact absurd (by simp [written]) (absent a List.mem_cons_self)

/-- A matcher reads what `write` prints.  It covers the text of what it finds and no
more, finds something in every text that goes on behind a match, and finds the same
when the text behind a match is shortened. -/
structure Reads (matcher : Matcher α) (write : α → List Char) : Prop where
  covers : ∀ {text a covered}, matcher text = some (a, covered) →
    covered = (write a).length ∧ write a <+: text
  nonempty : ∀ {text a covered}, matcher text = some (a, covered) → write a ≠ []
  extend : ∀ {text} more, (matcher text).isSome → (matcher (text ++ more)).isSome
  restrict : ∀ {a text more covered}, matcher (write a ++ text ++ more) = some (a, covered) →
    matcher (write a ++ text) = some (a, covered)

/-- The pieces of a text, one rule for each step of a scan. -/
inductive Scanned (matcher : Matcher α) (write : α → List Char) :
    List Char → List (Piece α) → Prop where
  | nil : Scanned matcher write [] []
  | char {c : Char} {text : List Char} {pieces : List (Piece α)}
      (silent : matcher (c :: text) = none) (rest : Scanned matcher write text pieces) :
      Scanned matcher write (c :: text) (.char c :: pieces)
  | found {a : α} {text : List Char} {pieces : List (Piece α)}
      (nonempty : write a ≠ [])
      (matched : matcher (write a ++ text) = some (a, (write a).length))
      (rest : Scanned matcher write text pieces) :
      Scanned matcher write (write a ++ text) (.found a :: pieces)

theorem scan_of_match {a : α} {c : Char} {covered : Nat}
    (matched : matcher (c :: text) = some (a, covered)) :
    scan matcher (c :: text) = .found a :: scan matcher (text.drop (covered - 1)) := by
  rw [scan, scanFrom, matched]
  simp only [scan, ← scanFrom_drop]

theorem scan_of_silent {c : Char} (silent : matcher (c :: text) = none) :
    scan matcher (c :: text) = .char c :: scan matcher text := by
  rw [scan, scanFrom, silent]
  rfl

/-- What a scan needs of a matcher: a match covers what is written of it, which is something. -/
theorem scanned_of_covers
    (covers : ∀ {text a covered}, matcher text = some (a, covered) →
      covered = (write a).length ∧ write a <+: text)
    (nonempty : ∀ {text a covered}, matcher text = some (a, covered) → write a ≠ [])
    (text : List Char) : Scanned matcher write text (scan matcher text) := by
  generalize size : text.length = count
  induction count using Nat.strongRecOn generalizing text with
  | ind count ih =>
      cases text with
      | nil => exact .nil
      | cons c text =>
          cases matched : matcher (c :: text) with
          | none =>
              rw [scan_of_silent matched]
              exact .char matched (ih text.length (by simp [← size]) text rfl)
          | some result =>
              obtain ⟨a, covered⟩ := result
              obtain ⟨rfl, rest, same⟩ := covers matched
              have filled := nonempty matched
              have positive := List.length_pos_iff.mpr filled
              have dropped : text.drop ((write a).length - 1) = rest := by
                have shifted : (c :: text).drop ((write a).length - 1 + 1) = rest := by
                  rw [Nat.sub_add_cancel positive, ← same, List.drop_left]
                simpa using shifted
              rw [scan_of_match matched, dropped]
              rw [← same] at matched ⊢
              refine .found filled matched (ih rest.length ?_ rest rfl)
              have total := congrArg List.length same
              simp only [List.length_append, List.length_cons] at total size
              omega

theorem Reads.scanned (reads : Reads matcher write) (text : List Char) :
    Scanned matcher write text (scan matcher text) :=
  scanned_of_covers reads.covers reads.nonempty text

theorem Scanned.scan_eq (scanned : Scanned matcher write text pieces) :
    scan matcher text = pieces := by
  induction scanned with
  | nil => rfl
  | char silent rest ih => rw [scan_of_silent silent, ih]
  | @found a text pieces nonempty matched rest ih =>
      cases written : write a with
      | nil => contradiction
      | cons c more =>
          rw [written] at matched
          simp only [List.cons_append, List.length_cons] at matched ⊢
          rw [scan_of_match matched, Nat.add_sub_cancel, List.drop_left, ih]

theorem Scanned.render_eq (scanned : Scanned matcher write text pieces) :
    Piece.render write pieces = text := by
  induction scanned with
  | nil => rfl
  | char silent rest ih => rw [Piece.render_char, ih]
  | found nonempty matched rest ih => rw [Piece.render_found, ih]

theorem Scanned.exists_match {a : α} (scanned : Scanned matcher write text pieces)
    (member : .found a ∈ pieces) :
    ∃ left right, text = left ++ (write a ++ right) ∧
      matcher (write a ++ right) = some (a, (write a).length) := by
  induction scanned with
  | nil => cases member
  | @char c text pieces silent rest ih =>
      cases member with
      | tail _ member =>
          obtain ⟨left, right, rfl, here⟩ := ih member
          exact ⟨c :: left, right, rfl, here⟩
  | @found b text pieces nonempty matched rest ih =>
      cases member with
      | head => exact ⟨[], text, rfl, matched⟩
      | tail _ member =>
          obtain ⟨left, right, rfl, here⟩ := ih member
          exact ⟨write b ++ left, right, by rw [List.append_assoc], here⟩

/-- A scan that finds nothing has met no match. -/
theorem Scanned.silent_of_chars {c : Char} (scanned : Scanned matcher write text pieces)
    (chars : ∀ a, .found a ∉ pieces) (split : text = left ++ c :: right) :
    matcher (c :: right) = none := by
  induction scanned generalizing left with
  | nil => simp at split
  | char silent rest ih =>
      cases left with
      | nil =>
          cases split
          exact silent
      | cons first left =>
          cases split
          exact ih (fun a member => chars a (List.mem_cons_of_mem _ member)) rfl
  | found nonempty matched rest ih => exact absurd List.mem_cons_self (chars _)

theorem Scanned.right_of_append (scanned : Scanned matcher write text (before ++ after)) :
    ∃ rest, Scanned matcher write rest after := by
  induction before generalizing text with
  | nil => exact ⟨text, scanned⟩
  | cons piece before ih =>
      cases scanned with
      | char silent rest => exact ih rest
      | found nonempty matched rest => exact ih rest

theorem Scanned.left_of_append (reads : Reads matcher write)
    (scanned : Scanned matcher write text (before ++ after)) :
    Scanned matcher write (Piece.render write before) before := by
  induction before generalizing text with
  | nil => exact .nil
  | cons piece before ih =>
      cases scanned with
      | @char c text _ silent rest =>
          have whole : Piece.render write (before ++ after) = text := rest.render_eq
          rw [← whole, Piece.render_append] at silent
          rw [Piece.render_char]
          refine .char ?_ (ih rest)
          -- a match in the shorter text would have been one in the whole text
          rw [← Option.not_isSome_iff_eq_none]
          intro matched
          have longer := reads.extend (Piece.render write after) matched
          rw [List.cons_append, silent] at longer
          contradiction
      | @found a text _ nonempty matched rest =>
          have whole : Piece.render write (before ++ after) = text := rest.render_eq
          rw [← whole, Piece.render_append, ← List.append_assoc] at matched
          rw [Piece.render_found]
          exact .found nonempty (reads.restrict matched) (ih rest)

/-- A run of pieces of a text is what a scan finds in the text of that run. -/
theorem Reads.scan_render (reads : Reads matcher write)
    (split : scan matcher text = before ++ middle ++ after) :
    scan matcher (Piece.render write middle) = middle := by
  have scanned := reads.scanned text
  rw [split, List.append_assoc] at scanned
  obtain ⟨rest, behind⟩ := scanned.right_of_append
  exact (behind.left_of_append reads).scan_eq

theorem mem_matchesOf_iff {a : α} : a ∈ matchesOf matcher text ↔ .found a ∈ scan matcher text := by
  rw [matchesOf, List.mem_filterMap]
  constructor
  · rintro ⟨piece, member, same⟩
    cases piece with
    | char c => cases same
    | found b =>
        cases same
        exact member
  · exact fun member => ⟨_, member, rfl⟩

section LongestRun

variable {β : Type} {p : Char → Bool} {next : List Char → Option β} {run rest : List Char} {b : β}

theorem longestRun_cons_eq {c : Char} :
    longestRun p next (c :: text) =
      ((if p c then longestRun p next text else none).map fun found =>
        (c :: found.1, found.2)).or ((next (c :: text)).map fun b => ([], b)) := by
  rw [longestRun]
  split
  · rename_i found
    rw [found]
    rfl
  · rename_i missing
    rw [missing]
    rfl

theorem longestRun_sound (found : longestRun p next text = some (run, b)) :
    (∀ c ∈ run, p c = true) ∧ ∃ rest, text = run ++ rest ∧ next rest = some b := by
  induction text generalizing run with
  | nil =>
      simp only [longestRun, Option.map_eq_some_iff, Prod.mk.injEq] at found
      obtain ⟨_, matched, rfl, rfl⟩ := found
      exact ⟨by simp, [], rfl, matched⟩
  | cons c text ih =>
      rw [longestRun_cons_eq, Option.or_eq_some_iff] at found
      rcases found with longer | ⟨_, here⟩
      · obtain ⟨⟨shorter, b'⟩, found, same⟩ := Option.map_eq_some_iff.mp longer
        cases same
        split at found
        · rename_i accepted
          obtain ⟨all, rest, split, matched⟩ := ih found
          refine ⟨?_, rest, by rw [split]; rfl, matched⟩
          intro x member
          rcases List.mem_cons.mp member with rfl | member
          · exact accepted
          · exact all x member
        · contradiction
      · simp only [Option.map_eq_some_iff, Prod.mk.injEq] at here
        obtain ⟨_, matched, rfl, rfl⟩ := here
        exact ⟨by simp, c :: text, rfl, matched⟩

/-- Where the characters of the class stop, what follows them has to be accepted. -/
theorem longestRun_of_stop (accepted : ∀ c ∈ run, p c = true)
    (stops : ∀ c ∈ rest.head?, p c = false) (found : next rest = some b) :
    longestRun p next (run ++ rest) = some (run, b) := by
  induction run with
  | nil =>
      cases rest with
      | nil => simp [longestRun, found]
      | cons c rest => simp [longestRun, found, stops c rfl]
  | cons c run ih =>
      have shorter := ih fun c member => accepted c (List.mem_cons_of_mem _ member)
      simp [longestRun, accepted c List.mem_cons_self, shorter]

theorem longestRun_isSome_cons {c : Char} :
    (longestRun p next (c :: text)).isSome ↔
      (p c = true ∧ (longestRun p next text).isSome) ∨ (next (c :: text)).isSome := by
  rw [longestRun_cons_eq, Option.isSome_or, Bool.or_eq_true, Option.isSome_map, Option.isSome_map]
  split <;> simp_all

theorem longestRun_isSome_of_next (here : (next text).isSome) :
    (longestRun p next text).isSome := by
  cases text with
  | nil => simpa [longestRun] using here
  | cons c text => exact longestRun_isSome_cons.mpr (.inr here)

theorem longestRun_isSome_append (accepted : ∀ c ∈ run, p c = true) (here : (next rest).isSome) :
    (longestRun p next (run ++ rest)).isSome := by
  induction run with
  | nil => exact longestRun_isSome_of_next here
  | cons c run ih =>
      have shorter := ih fun c member => accepted c (List.mem_cons_of_mem _ member)
      exact longestRun_isSome_cons.mpr (.inl ⟨accepted c List.mem_cons_self, shorter⟩)

theorem prefix_of_longestRun {longest : List Char} (accepted : ∀ c ∈ run, p c = true)
    (here : (next rest).isSome) (found : longestRun p next (run ++ rest) = some (longest, b)) :
    run <+: longest := by
  induction run generalizing longest with
  | nil => exact List.nil_prefix
  | cons c run ih =>
      have shorter := fun x member => accepted x (List.mem_cons_of_mem c member)
      obtain ⟨⟨inner, last⟩, behind⟩ := Option.isSome_iff_exists.mp
        (longestRun_isSome_append shorter here)
      rw [List.cons_append, longestRun_cons_eq, if_pos (accepted c List.mem_cons_self), behind,
        Option.map_some, Option.some_or] at found
      cases found
      exact List.cons_prefix_cons.mpr ⟨rfl, ih shorter behind⟩

/-- A text that goes on behind what follows a run still has a run. -/
theorem longestRun_extend {more : List Char}
    (extend : ∀ cs, (next cs).isSome → (next (cs ++ more)).isSome)
    (found : (longestRun p next text).isSome) : (longestRun p next (text ++ more)).isSome := by
  induction text with
  | nil => exact longestRun_isSome_of_next (extend [] (by simpa [longestRun] using found))
  | cons c text ih =>
      rw [List.cons_append, longestRun_isSome_cons]
      rcases longestRun_isSome_cons.mp found with ⟨accepted, longer⟩ | here
      · exact .inl ⟨accepted, ih longer⟩
      · exact .inr (extend (c :: text) here)

/-- The longest run stays the longest when the text behind what follows it is cut
off. -/
theorem longestRun_restrict {more : List Char}
    (extend : ∀ cs, (next cs).isSome → (next (cs ++ more)).isSome)
    (kept : next rest = some b)
    (found : longestRun p next (run ++ rest ++ more) = some (run, b)) :
    longestRun p next (run ++ rest) = some (run, b) := by
  induction run with
  | nil =>
      rw [List.nil_append] at found ⊢
      cases rest with
      | nil => simp [longestRun, kept]
      | cons c rest =>
          -- a longer run in the shorter text would also be one in the whole text
          have none : (if p c then longestRun p next rest else none) = none := by
            split
            · rename_i accepted
              rw [← Option.not_isSome_iff_eq_none]
              intro shorter
              have longer := longestRun_extend extend shorter
              rw [List.cons_append, longestRun_cons_eq, if_pos accepted] at found
              cases result : longestRun p next (rest ++ more) with
              | none => simp [result] at longer
              | some result => simp [*] at found
            · rfl
          rw [longestRun_cons_eq, none, kept]
          rfl
  | cons c run ih =>
      rw [List.cons_append, List.cons_append, longestRun_cons_eq, Option.or_eq_some_iff] at found
      rcases found with longer | ⟨_, here⟩
      · obtain ⟨⟨shorter, b'⟩, found, same⟩ := Option.map_eq_some_iff.mp longer
        cases same
        split at found
        · rename_i accepted
          rw [List.cons_append, longestRun_cons_eq, if_pos accepted, ih found]
          rfl
        · contradiction
      · simp at here

end LongestRun

end TagTemplate.Text
