import TagTemplate.Proofs.Variables.Paths
import TagTemplate.Xml.Tree

/-!
Reading the pieces of a printed element.

Texts and attribute values are printed with entities for the five characters that mean
something to the reader.  Each piece is read as it was printed, whatever stands behind it:
the lemmas have a rest, so that they follow one another.
-/

namespace TagTemplate.Xml

open TagTemplate.Text (isAsciiBlank strip)

/-- A character of a text or an attribute value as it is printed. -/
def escapeChar (c : Char) : List Char :=
  if c = '&' then "&amp;".toList
  else if c = '<' then "&lt;".toList
  else if c = '>' then "&gt;".toList
  else if c = '"' then "&quot;".toList
  else if c = '\'' then "&apos;".toList
  else [c]

def escape (text : String) : List Char :=
  text.toList.flatMap escapeChar

def printAttribute (entry : String × String) : List Char :=
  ' ' :: (entry.1.toList ++ '=' :: '"' :: (escape entry.2 ++ ['"']))

def printAttributes (attributes : List (String × String)) : List Char :=
  attributes.flatMap printAttribute

/-- The names of elements and the keys of attributes that are printed. -/
def IsName (name : String) : Prop :=
  name ≠ "" ∧ ∀ c ∈ name.toList, c.isAlphanum = true

/-- A text without a blank at either end. -/
def Trimmed (text : String) : Prop :=
  (∀ c ∈ text.toList.head?, isAsciiBlank c = false) ∧
    ∀ c ∈ text.toList.getLast?, isAsciiBlank c = false

/-- What is neither a delimiter of tags and attributes nor a blank. -/
structure Unmarked (c : Char) : Prop where
  opener : c ≠ '<'
  closer : c ≠ '>'
  double : c ≠ '"'
  single : c ≠ '\''
  equals : c ≠ '='
  slash : c ≠ '/'
  bang : c ≠ '!'
  question : c ≠ '?'
  unblank : isAsciiBlank c = false

variable {c : Char} {cs more rest : List Char} {name key value : String}

theorem unmarked_of_isAlphanum (named : c.isAlphanum = true) : Unmarked c := by
  constructor
  case unblank =>
    rw [Bool.eq_false_iff]
    intro blank
    simp only [isAsciiBlank, Bool.or_eq_true, beq_iff_eq] at blank
    rcases blank with ((rfl | rfl) | rfl) | rfl <;> revert named <;> decide
  all_goals
    rintro rfl
    revert named
    decide

theorem IsName.unmarked (named : IsName name) : ∀ c ∈ name.toList, Unmarked c :=
  fun c member => unmarked_of_isAlphanum (named.2 c member)

theorem IsName.exists_eq_cons (named : IsName name) :
    ∃ c cs, name.toList = c :: cs ∧ Unmarked c := by
  obtain ⟨c, cs, same⟩ := List.exists_cons_of_ne_nil (l := name.toList) (by simpa using named.1)
  exact ⟨c, cs, same, named.unmarked c (by simp [same])⟩

section Escape

/-- Escaped characters are markup no more. -/
theorem mem_escapeChar {x : Char} (member : x ∈ escapeChar c) :
    x ≠ '<' ∧ x ≠ '>' ∧ x ≠ '"' ∧ x ≠ '\'' := by
  unfold escapeChar at member
  split_ifs at member with amp lt gt quot apos
  case neg =>
    cases List.mem_singleton.mp member
    exact ⟨lt, gt, quot, apos⟩
  all_goals
    have plain := List.all_eq_true.mp (by decide : List.all _ fun x =>
      x != '<' && x != '>' && x != '"' && x != '\'') x member
    simpa [and_assoc] using plain

theorem mem_escape {x : Char} (member : x ∈ escape value) :
    x ≠ '<' ∧ x ≠ '>' ∧ x ≠ '"' ∧ x ≠ '\'' := by
  obtain ⟨c, _, inside⟩ := List.mem_flatMap.mp member
  exact mem_escapeChar inside

theorem head_escapeChar : ∃ first written, escapeChar c = first :: written ∧
    (first = '&' ∨ first = c) := by
  unfold escapeChar
  split_ifs
  case neg => exact ⟨c, [], rfl, .inr rfl⟩
  all_goals exact ⟨'&', _, rfl, .inl rfl⟩

theorem getLast_escapeChar : ∃ before last, escapeChar c = before ++ [last] ∧
    (last = ';' ∨ last = c) := by
  unfold escapeChar
  split_ifs
  case neg => exact ⟨[], c, rfl, .inr rfl⟩
  all_goals exact ⟨_, ';', (List.dropLast_append_getLast (by decide)).symm, .inl rfl⟩

theorem Trimmed.strip_escape {text : String} (trimmed : Trimmed text) :
    strip isAsciiBlank (escape text) = escape text := by
  obtain ⟨first, last⟩ := trimmed
  apply Text.strip_eq_self
  · intro x member
    cases chars : text.toList with
    | nil => simp [escape, chars] at member
    | cons c cs =>
        obtain ⟨start, written, same, kept⟩ := @head_escapeChar c
        have here : start = x := by simpa [escape, chars, same] using member
        subst here
        rcases kept with rfl | rfl
        · rfl
        · exact first start (by simp [chars])
  · intro x member
    rcases List.eq_nil_or_concat text.toList with chars | ⟨cs, c, chars⟩
    · simp [escape, chars] at member
    · obtain ⟨before, stop, same, kept⟩ := @getLast_escapeChar c
      have here : stop = x := by simpa [escape, chars, same] using member
      subst here
      rcases kept with rfl | rfl
      · rfl
      · exact last stop (by simp [chars])

theorem escape_ne_nil {text : String} (nonempty : text ≠ "") : escape text ≠ [] := by
  obtain ⟨c, cs, chars⟩ := List.exists_cons_of_ne_nil (l := text.toList) (by simpa using nonempty)
  obtain ⟨first, written, same, _⟩ := @head_escapeChar c
  simp [escape, chars, same]

theorem characterAt?_escapeChar (c : Char) (rest : List Char) :
    characterAt? (escapeChar c ++ rest) = some (c, (escapeChar c).length) := by
  unfold escapeChar
  split_ifs with amp lt gt quot apos
  case neg =>
    rw [List.singleton_append, characterAt?]
    · rfl
    · exact amp
  all_goals
    subst c
    simp [characterAt?, List.span_eq_takeWhile_dropWhile, reference?, namedEntity?]

theorem tokensFrom_drop {α : Type} (matcher : Text.Matcher α) (skip : Nat) (text : List Char) :
    Text.tokensFrom matcher skip text = Text.tokensFrom matcher 0 (text.drop skip) := by
  induction text generalizing skip with
  | nil => cases skip <;> rfl
  | cons c cs ih =>
      cases skip with
      | zero => rfl
      | succ skip => exact ih skip

/-- The entities of an escaped text are resolved to the text. -/
theorem resolve?_escape (text : String) : resolve? (escape text) = some text.toList := by
  unfold escape resolve?
  induction text.toList with
  | nil => rfl
  | cons c cs ih =>
      have found := characterAt?_escapeChar c (cs.flatMap escapeChar)
      obtain ⟨first, written, same, _⟩ := @head_escapeChar c
      rw [same, List.cons_append] at found
      rw [List.flatMap_cons, same, List.cons_append, Text.tokensFrom, found]
      simp only [List.length_cons, Nat.add_sub_cancel]
      rw [tokensFrom_drop, List.drop_left, ih]
      rfl

end Escape

section Tags

theorem tagContent?_plain (plain : ∀ c ∈ cs, Unmarked c) (more : List Char) :
    tagContent? none (cs ++ more) = (tagContent? none more).map (cs ++ ·) := by
  induction cs with
  | nil => simp
  | cons c cs ih =>
      have here := plain c List.mem_cons_self
      have behind := ih fun x member => plain x (List.mem_cons_of_mem _ member)
      simp [tagContent?, here.closer, here.double, here.single, behind, Function.comp_def]

/-- A quoted value hides what it holds up to its quote. -/
theorem tagContent?_quoted (unquoted : ∀ c ∈ cs, c ≠ '"') (more : List Char) :
    tagContent? (some '"') (cs ++ '"' :: more) =
      (tagContent? none more).map (cs ++ '"' :: ·) := by
  induction cs with
  | nil => simp [tagContent?]
  | cons c cs ih =>
      have here := unquoted c List.mem_cons_self
      have behind := ih fun x member => unquoted x (List.mem_cons_of_mem _ member)
      simp [tagContent?, here, behind, Function.comp_def]

theorem tagContent?_printAttribute {entry : String × String} (named : IsName entry.1)
    (more : List Char) : tagContent? none (printAttribute entry ++ more) =
      (tagContent? none more).map (printAttribute entry ++ ·) := by
  have unquoted : ∀ c ∈ escape entry.2, c ≠ '"' := fun c member => (mem_escape member).2.2.1
  have quoted := tagContent?_quoted unquoted more
  have key := tagContent?_plain named.unmarked ('=' :: '"' :: (escape entry.2 ++ '"' :: more))
  simp [printAttribute, tagContent?, key, quoted, Function.comp_def]

theorem tagContent?_printAttributes {attributes : List (String × String)}
    (named : ∀ entry ∈ attributes, IsName entry.1) (more : List Char) :
    tagContent? none (printAttributes attributes ++ more) =
      (tagContent? none more).map (printAttributes attributes ++ ·) := by
  induction attributes with
  | nil => simp [printAttributes]
  | cons entry attributes ih =>
      have behind := ih fun other member => named other (List.mem_cons_of_mem _ member)
      rw [printAttributes] at behind ⊢
      rw [List.flatMap_cons, List.append_assoc,
        tagContent?_printAttribute (named entry List.mem_cons_self), behind, Option.map_map]
      simp [Function.comp_def]

theorem attributesFrom?_drop (known : Keyed String) (skip : Nat) (text : List Char) :
    attributesFrom? known skip text = attributesFrom? known 0 (text.drop skip) := by
  induction text generalizing skip with
  | nil => cases skip <;> rfl
  | cons c cs ih =>
      cases skip with
      | zero => rfl
      | succ skip => exact ih skip

theorem span_append_of_stop {p : Char → Bool} (accepted : ∀ c ∈ cs, p c = true)
    (stops : p c = false) : (cs ++ c :: more).span p = (cs, c :: more) := by
  rw [List.span_eq_takeWhile_dropWhile, List.takeWhile_append_of_pos accepted,
    List.dropWhile_append_of_pos accepted]
  simp [stops]

/-- A printed attribute is read, and what stands behind it. -/
theorem attributesFrom?_printAttribute {entry : String × String} {known : Keyed String}
    (named : IsName entry.1) (fresh : Keyed.contains entry.1 known = false) :
    attributesFrom? known 0 (printAttribute entry ++ rest) =
      attributesFrom? (Keyed.insert entry.1 entry.2 known) 0 rest := by
  obtain ⟨first, key, same, unmarked⟩ := named.exists_eq_cons
  have whole : String.ofList (first :: key) = entry.1 := by rw [← same, String.ofList_toList]
  have accepted : ∀ c ∈ key, (c != '=' && !isAsciiBlank c) = true := by
    intro c member
    have plain := named.unmarked c (by simp [same, member])
    simp [plain.equals, plain.unblank]
  have keySpan : (key ++ '=' :: '"' :: (escape entry.2 ++ '"' :: rest)).span
      (fun c => c != '=' && !isAsciiBlank c) =
        (key, '=' :: '"' :: (escape entry.2 ++ '"' :: rest)) :=
    span_append_of_stop accepted (by simp)
  have unquoted : ∀ c ∈ escape entry.2, (c != '"') = true := by
    intro c member
    simp [(mem_escape member).2.2.1]
  have valueSpan : (escape entry.2 ++ '"' :: rest).span (· != '"') =
      (escape entry.2, '"' :: rest) := span_append_of_stop unquoted (by simp)
  have written : printAttribute entry ++ rest =
      ' ' :: first :: (key ++ '=' :: '"' :: (escape entry.2 ++ '"' :: rest)) := by
    simp [printAttribute, same]
  have blank : isAsciiBlank ' ' = true := rfl
  rw [written, attributesFrom?, if_pos blank, attributesFrom?, unmarked.unblank,
    if_neg (by simp), keySpan]
  have equals (text : List Char) : ('=' :: text).dropWhile isAsciiBlank = '=' :: text := rfl
  have quote (text : List Char) : ('"' :: text).dropWhile isAsciiBlank = '"' :: text := rfl
  simp only [whole, fresh, Bool.false_eq_true, if_false, equals, quote, beq_self_eq_true,
    Bool.true_or, if_true, valueSpan, resolve?_escape, String.ofList_toList]
  rw [attributesFrom?_drop]
  congr 1
  have split : key ++ '=' :: '"' :: (escape entry.2 ++ '"' :: rest) =
      (key ++ '=' :: '"' :: (escape entry.2 ++ ['"'])) ++ rest := by simp
  rw [split, List.length_append, Nat.add_sub_cancel, List.drop_left]

theorem attributesFrom?_printAttributes {attributes known : Keyed String}
    (named : ∀ entry ∈ attributes, IsName entry.1) (ordered : Keyed.Ordered (known ++ attributes)) :
    attributesFrom? known 0 (printAttributes attributes) = some (known ++ attributes) := by
  induction attributes generalizing known with
  | nil => simp [printAttributes, attributesFrom?]
  | cons entry attributes ih =>
      obtain ⟨key, value⟩ := entry
      have below : ∀ other ∈ known, other.1 < key := by
        intro other member
        exact (List.pairwise_append.mp ordered).2.2 other member (key, value) List.mem_cons_self
      have longer : known ++ (key, value) :: attributes =
          (known ++ [(key, value)]) ++ attributes := by simp
      rw [longer] at ordered ⊢
      rw [printAttributes, List.flatMap_cons,
        attributesFrom?_printAttribute (named _ List.mem_cons_self) (Keyed.contains_of_below below),
        Keyed.insert_last below, ← printAttributes]
      exact ih (fun other member => named other (List.mem_cons_of_mem _ member)) ordered

/-- What stands between the brackets of a start tag. -/
def printHead (name : String) (attributes : List (String × String)) : List Char :=
  name.toList ++ printAttributes attributes

theorem nameAndAttributes?_printHead {attributes : Keyed String} (named : IsName name)
    (keys : ∀ entry ∈ attributes, IsName entry.1) (ordered : Keyed.Ordered attributes) :
    nameAndAttributes? (printHead name attributes) = some (name, attributes) := by
  have read : attributesFrom? [] 0 (printAttributes attributes) = some ([] ++ attributes) :=
    attributesFrom?_printAttributes keys ordered
  have accepted : ∀ c ∈ name.toList, (!isAsciiBlank c) = true := by
    intro c member
    simp [(named.unmarked c member).unblank]
  have span : (printHead name attributes).span (fun c => !isAsciiBlank c) =
      (name.toList, printAttributes attributes) := by
    cases attributes with
    | nil =>
        rw [printHead, printAttributes, List.flatMap_nil, List.append_nil,
          List.span_eq_takeWhile_dropWhile, List.takeWhile_eq_self_iff.mpr accepted,
          List.dropWhile_eq_nil_iff.mpr accepted]
    | cons entry attributes =>
        exact span_append_of_stop accepted (c := ' ') (by decide)
  rw [nameAndAttributes?, span]
  simp [read]

/-- A start tag does not end with a slash, so that it is none of an empty element. -/
theorem startTag?_printHead {attributes : Keyed String} (named : IsName name)
    (keys : ∀ entry ∈ attributes, IsName entry.1) (ordered : Keyed.Ordered attributes) :
    startTag? (printHead name attributes) = some (.start name attributes) := by
  have read := nameAndAttributes?_printHead named keys ordered
  rw [startTag?]
  split
  · rename_i reversed same
    have last : '/' ∈ (printHead name attributes).getLast? := by
      rw [List.getLast?_eq_head?_reverse, same]
      rfl
    rcases List.eq_nil_or_concat attributes with rfl | ⟨before, entry, rfl⟩
    · rw [printHead, printAttributes, List.flatMap_nil, List.append_nil] at last
      exact absurd rfl (named.unmarked '/' (List.mem_of_getLast? last)).slash
    · have quoted : printHead name (before.concat entry) = (name.toList ++ printAttributes before ++
          ' ' :: (entry.1.toList ++ '=' :: '"' :: escape entry.2)) ++ ['"'] := by
        simp [printHead, printAttributes, printAttribute]
      rw [quoted, List.getLast?_concat] at last
      cases last
  · rw [read]
    rfl

end Tags

section Pieces

def printStart (name : String) (attributes : List (String × String)) : List Char :=
  '<' :: (printHead name attributes ++ ['>'])

def printStop (name : String) : List Char :=
  '<' :: '/' :: (name.toList ++ ['>'])

theorem markupAt?_printStart {attributes : Keyed String} (named : IsName name)
    (keys : ∀ entry ∈ attributes, IsName entry.1) (ordered : Keyed.Ordered attributes) :
    markupAt? (printStart name attributes ++ rest) =
      some (.start name attributes, (printStart name attributes).length) := by
  have content : tagContent? none (printHead name attributes ++ '>' :: rest) =
      some (printHead name attributes) := by
    rw [printHead, List.append_assoc, tagContent?_plain named.unmarked,
      tagContent?_printAttributes keys]
    simp [tagContent?]
  have written : printStart name attributes ++ rest =
      '<' :: (printHead name attributes ++ '>' :: rest) := by simp [printStart]
  obtain ⟨c, cs, same, unmarked⟩ := named.exists_eq_cons
  rw [written]
  unfold markupAt?
  split
  · rename_i other
    simp [printHead, same, unmarked.bang] at other
  · rename_i other
    simp [printHead, same, unmarked.question] at other
  · rename_i other
    simp [printHead, same, unmarked.slash] at other
  · rename_i cs _ _ _ other
    cases other
    rw [content, Option.bind_eq_bind, Option.bind_some, startTag?_printHead named keys ordered]
    simp [printStart]
  · rename_i other
    exact absurd rfl (other _)

theorem endName_of_isName (named : IsName name) : endName name.toList = name := by
  have unblank : ∀ c ∈ name.toList.reverse.head?, ¬ isAsciiBlank c = true := by
    intro c last
    simp [(named.unmarked c (List.mem_reverse.mp (List.mem_of_head? last))).unblank]
  have kept : name.toList.reverse.dropWhile isAsciiBlank = name.toList.reverse := by
    cases reversed : name.toList.reverse with
    | nil => rfl
    | cons c cs => simp [unblank c (by simp [reversed])]
  have filled : name.toList.isEmpty = false := by simpa using named.1
  rw [endName, kept, List.reverse_reverse]
  simp [filled]

theorem markupAt?_printStop (named : IsName name) :
    markupAt? (printStop name ++ rest) = some (.stop name, (printStop name).length) := by
  have content : tagContent? none (name.toList ++ '>' :: rest) = some name.toList := by
    rw [tagContent?_plain named.unmarked]
    simp [tagContent?]
  have written : printStop name ++ rest = '<' :: '/' :: (name.toList ++ '>' :: rest) := by
    simp [printStop]
  rw [written, markupAt?, content, Option.map_some, endName_of_isName named]
  simp [printStop]

theorem markupAt?_escape {text : String} (nonempty : text ≠ "") (trimmed : Trimmed text) :
    markupAt? (escape text ++ '<' :: rest) = some (.text text.toList, (escape text).length) := by
  have accepted : ∀ c ∈ escape text, (c != '<') = true := by
    intro c member
    simp [(mem_escape member).1]
  have data : (escape text ++ '<' :: rest).takeWhile (· != '<') = escape text := by
    rw [List.takeWhile_append_of_pos accepted]
    simp
  have filled : (escape text).isEmpty = false := by simpa using escape_ne_nil nonempty
  obtain ⟨first, written, same⟩ := List.exists_cons_of_ne_nil (escape_ne_nil nonempty)
  have member : first ∈ escape text := by simp [same]
  have content : first ≠ '<' := (mem_escape member).1
  unfold markupAt?
  split
  case h_5 =>
    dsimp only
    rw [data, trimmed.strip_escape, filled, resolve?_escape]
    rfl
  all_goals
    rename_i other
    rw [same, List.cons_append] at other
    exact absurd (List.cons.inj other).1 content

end Pieces

end TagTemplate.Xml
