import TagTemplate.Proofs.Lexing.Marked
import TagTemplate.Proofs.Lexing.Printed

/-!
Tags that are looked for by their beginning.

Where all that a scan finds is written with a mark in front and none behind it, no match that
begins with the mark is covered by another one.  This holds of the tags of a text, and of the
beginnings that they have in common, if each delimiter is one character of its own.
-/

namespace TagTemplate

namespace Text

variable {α : Type} {matcher : Matcher α} {write : α → List Char} {pieces : List (Piece α)}
  {text left right : List Char} {mark : Char}

/-- A scan comes to every place where a match begins with the mark. -/
theorem Scanned.mem_of_match {a : α} {covered : Nat} (scanned : Scanned matcher write text pieces)
    (marked : ∀ a, .found a ∈ pieces → Marked mark (write a)) (split : text = left ++ right)
    (begins : right.head? = some mark) (matched : matcher right = some (a, covered)) :
    .found a ∈ pieces := by
  induction scanned generalizing left with
  | nil =>
      obtain ⟨-, rfl⟩ := List.append_eq_nil_iff.mp split.symm
      cases begins
  | char silent rest ih =>
      have later := fun a member => marked a (List.mem_cons_of_mem _ member)
      cases left with
      | nil =>
          subst split
          simp [silent] at matched
      | cons first left =>
          cases split
          exact List.mem_cons_of_mem _ (ih later rfl)
  | @found b text pieces nonempty here rest ih =>
      have later := fun a member => marked a (List.mem_cons_of_mem _ member)
      obtain ⟨inside, written, absent⟩ := (marked b List.mem_cons_self).exists_eq_cons
      cases left with
      | nil =>
          rw [List.nil_append] at split
          subst split
          cases here.symm.trans matched
          exact List.mem_cons_self
      | cons first left =>
          -- the place lies behind the match, which holds no second mark
          rw [written, List.cons_append, List.cons_append] at split
          obtain ⟨rfl, tails⟩ := List.cons_eq_cons.mp split
          rcases List.append_eq_append_iff.mp tails with ⟨between, rfl, same⟩ | ⟨within, rfl, same⟩
          · exact List.mem_cons_of_mem _ (ih later same)
          · cases within with
            | nil =>
                have start : text = [] ++ right := same.symm
                exact List.mem_cons_of_mem _ (ih later start)
            | cons c within =>
                subst same
                cases begins
                exact absurd (by simp) absent

end Text

namespace Delimiters

open TagTemplate.Text (Matcher Marked Scanned scan)

variable {d : Delimiters} {opener separator closer : Char} {name cs head text left right : List Char}
  {tag : List Char × List Char} {covered : Nat}

/-- Where the beginning of a tag occurs, whether the tag does. -/
def beginning (d : Delimiters) (head : List Char) : Matcher Bool := fun cs =>
  if head.isPrefixOf cs then some ((d.tagAt? cs).isSome, head.length) else none

theorem beginning_eq_some_iff {whole : Bool} : d.beginning head cs = some (whole, covered) ↔
    head <+: cs ∧ (d.tagAt? cs).isSome = whole ∧ head.length = covered := by
  simp [beginning]

theorem scanned_beginning (nonempty : head ≠ []) (text : List Char) :
    Scanned (d.beginning head) (fun _ => head) text (scan (d.beginning head) text) := by
  apply Text.scanned_of_covers
  · intro text whole covered matched
    obtain ⟨starts, -, same⟩ := beginning_eq_some_iff.mp matched
    exact ⟨same.symm, starts⟩
  · exact fun _ => nonempty

theorem hasTag_iff {text name : String} (given : name ≠ "") : d.hasTag text name = true ↔
    .found true ∈ scan (d.beginning (d.opener ++ name ++ d.separator).toList) text.toList := by
  have filled : name.isEmpty = false := by simpa using given
  rw [← Text.mem_matchesOf_iff, hasTag, if_neg (by simp [filled]), List.any_eq_true]
  constructor
  · rintro ⟨whole, member, rfl⟩
    exact member
  · exact fun member => ⟨true, member, rfl⟩

namespace Single

/-- The name of a tag is all that stands between its opener and its first separator. -/
theorem name_eq (single : d.Single opener separator closer)
    (named : ∀ c ∈ name, isNameChar c = true)
    (starts : opener :: (name ++ [separator]) <+: cs) (read : d.tagAt? cs = some (tag, covered)) :
    tag.1 = name := by
  have run : ∀ {name more : List Char}, (∀ c ∈ name, isNameChar c = true) →
      (name ++ separator :: more).takeWhile isNameChar = name := by
    intro name more named
    rw [List.takeWhile_append_of_pos named, List.takeWhile_cons, single.unnamed.2.1]
    simp
  obtain ⟨behind, rfl⟩ := starts
  obtain ⟨rest, same⟩ := (single.delimiting.reads.covers read).2
  have names := (chars_of_tagAt? single.delimiting.closer read).1
  simp only [spell, single.opens, single.separates, List.cons_append, List.nil_append,
    List.cons.injEq, true_and, List.append_assoc] at same
  rw [← run names, same, run named]

theorem marked_head (single : d.Single opener separator closer)
    (named : ∀ c ∈ name, isNameChar c = true) : Marked opener (opener :: (name ++ [separator])) where
  first := rfl
  absent := by
    have unnamed : opener ∉ name := fun member => by
      simpa [single.unnamed.1] using named opener member
    simp [unnamed, single.apart.1]

theorem marked_spell (single : d.Single opener separator closer)
    (named : ∀ c ∈ tag.1, isNameChar c = true) (allowed : ∀ c ∈ tag.2, d.isParamChar c = true) :
    Marked opener (d.spell tag) := by
  obtain ⟨rest, written, absent⟩ := single.spell_eq tag named allowed
  rw [written]
  exact ⟨rfl, absent⟩

/-- No tag is covered by another one. -/
theorem mem_scan_of_tagAt? (single : d.Single opener separator closer)
    (split : text = left ++ right) (read : d.tagAt? right = some (tag, covered)) :
    .found tag ∈ scan d.tagAt? text := by
  have scanned := single.delimiting.reads.scanned text
  have marked : ∀ other, .found other ∈ scan d.tagAt? text →
      Marked opener (d.spell other) := by
    intro other member
    obtain ⟨_, _, _, found⟩ := scanned.exists_match member
    obtain ⟨named, allowed⟩ := chars_of_tagAt? single.delimiting.closer found
    exact single.marked_spell named allowed
  have begins : right.head? = some opener := by
    obtain ⟨rest, rfl⟩ := (single.delimiting.reads.covers read).2
    simp [spell, single.opens]
  exact scanned.mem_of_match marked split begins read

theorem mem_scan_beginning (single : d.Single opener separator closer)
    (split : text = left ++ right) (named : ∀ c ∈ name, isNameChar c = true)
    (starts : opener :: (name ++ [separator]) <+: right) :
    .found (d.tagAt? right).isSome ∈
      scan (d.beginning (opener :: (name ++ [separator]))) text := by
  have scanned := scanned_beginning (d := d) (by simp : opener :: (name ++ [separator]) ≠ []) text
  have begins : right.head? = some opener := by
    obtain ⟨rest, rfl⟩ := starts
    rfl
  exact scanned.mem_of_match (fun _ _ => single.marked_head named) split begins
    (beginning_eq_some_iff.mpr ⟨starts, rfl, rfl⟩)

end Single

/-- An open tag is found by its name alone exactly if the text has one when it is tokenized. -/
theorem hasTag_iff_mem_tokenize (single : d.Single opener separator closer) {name : String}
    (given : name ≠ "") (named : ∀ c ∈ name.toList, isNameChar c = true) (text : String) :
    d.hasTag text name = true ↔
      ∃ tag, .tag tag ∈ d.tokenize text ∧ tag.isClose = false ∧ tag.name = name := by
  have head : (d.opener ++ name ++ d.separator).toList = opener :: (name.toList ++ [separator]) := by
    simp [single.opens, single.separates]
  rw [hasTag_iff given, head]
  constructor
  · intro found
    obtain ⟨left, right, split, here⟩ := (scanned_beginning (by simp) _).exists_match found
    obtain ⟨starts, read, -⟩ := beginning_eq_some_iff.mp here
    obtain ⟨⟨⟨_, param⟩, covered⟩, read⟩ := Option.isSome_iff_exists.mp read
    cases single.name_eq named starts read
    obtain ⟨tag, member, same⟩ := mem_tokenize_iff.mp (single.mem_scan_of_tagAt? split read)
    obtain rfl : tag.name = name := String.toList_injective (congrArg Prod.fst same)
    exact ⟨tag, member, by simpa [Tag.isClose] using given, rfl⟩
  · rintro ⟨tag, member, -, rfl⟩
    obtain ⟨left, right, split, read⟩ := (single.delimiting.reads.scanned _).exists_match
      (mem_tokenize_iff.mpr ⟨tag, member, rfl⟩)
    have starts : opener :: (tag.name.toList ++ [separator]) <+:
        d.spell (tag.name.toList, tag.param.toList) ++ right := by
      simp [spell, single.opens, single.separates]
    have found := single.mem_scan_beginning split named starts
    rwa [read, Option.isSome_some] at found

/-- Half a tag, a longer name and a tag that follows another half of itself. -/
theorem hasTag_iff_mem_tokenize_halves :
    default.Single '\x7b' ':' '\x7d' ∧ "a" ≠ "" ∧ (∀ c ∈ "a".toList, isNameChar c = true) ∧
      default.hasTag "\x7ba:\x7bab:\x7d\x7b:a\x7d" "a" = false ∧
      default.hasTag "\x7ba:\x7bab:\x7d\x7ba:\x7ba:b:c\x7d" "a" = true := by
  have given : "a" ≠ "" := by decide
  have named : ∀ c ∈ "a".toList, isNameChar c = true := List.all_eq_true.mp (by decide)
  refine ⟨single_default, given, named, ?_, ?_⟩
  · rw [← Bool.not_eq_true, hasTag_iff_mem_tokenize single_default given named]
    rintro ⟨tag, member, -, called⟩
    have read : default.tokenize "\x7ba:\x7bab:\x7d\x7b:a\x7d" = [.literal "\x7ba:",
        .tag ⟨"ab", "", 3, 8⟩, .literal "", .tag ⟨"", "a", 8, 12⟩, .literal ""] := by
      decide +kernel
    simp only [read, List.mem_cons, Segment.tag.injEq, reduceCtorEq, false_or, List.not_mem_nil,
      or_false] at member
    rcases member with rfl | rfl <;> exact absurd called (by decide)
  · refine (hasTag_iff_mem_tokenize single_default given named _).mpr ?_
    exact ⟨⟨"a", "b:c", 11, 18⟩, by decide +kernel, rfl, rfl⟩

end Delimiters

end TagTemplate
