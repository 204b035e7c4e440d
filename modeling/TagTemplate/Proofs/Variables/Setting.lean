import TagTemplate.Proofs.Variables.Refusal

/-!
What setting a variable changes.

The place of the value is reached through one map after the other.  In each of them the entry
on the way is replaced and every other entry stays, so that a path reads something new only if
it leads to the place, ends on the way to it or goes on behind it.
-/

namespace TagTemplate.Variables

open TagTemplate.Json (Value)

/-- A value with a new one under components: the maps on the way keep their other entries. -/
inductive Put (new : Value) : List String → Option Value → Value → Prop where
  | here {old : Option Value} : Put new [] old new
  | inside {part : String} {rest : List String} {old : Option Value} {members : Keyed Value}
      {next : Value} (found : Keyed.find? part members = some next)
      (others : ∀ other, other ≠ part → Keyed.find? other members = old.bind (Value.at? [other]))
      (below : Put new rest (old.bind (Value.at? [part])) next) :
      Put new (part :: rest) old (.object members)

/-- The value that takes the place of an old one. -/
inductive Merged (mode : SetMode) (value : Value) : Option Value → Value → Prop where
  | whole {old : Option Value} (fresh : mode ≠ .append ∨ old = none) : Merged mode value old value
  | joined {text : String} (append : mode = .append) :
      Merged mode value (some (.string text)) (.string (text ++ value.display))
  | extended {items more : List Value} (append : mode = .append) (list : value = .array more) :
      Merged mode value (some (.array items)) (.array (items ++ more))
  | pushed {items : List Value} (append : mode = .append) (single : ∀ more, value ≠ .array more) :
      Merged mode value (some (.array items)) (.array (items ++ [value]))

/-- What the paths read after a new value was put under components. -/
structure SetTo (new : Value) (parts : List String) (before after : Variables) : Prop where
  apart : ∀ {query names}, components query = .ok names → ¬ names <+: parts → ¬ parts <+: names →
    after.get? query = before.get? query
  above : ∀ {query names key rest}, components query = .ok names → parts = names ++ key :: rest →
    ∃ old inner, before.get? query = .ok old ∧ after.get? query = .ok (some (.object inner)) ∧
      ∀ other, other ≠ key → Keyed.find? other inner = old.bind (Value.at? [other])
  within : ∀ {query rest}, components query = .ok (parts ++ rest) →
    after.get? query = .ok (new.at? rest)

variable {mode : SetMode} {value new : Value} {old : Option Value} {key part : String}
  {names parts rest : List String} {members : Keyed Value} {vars : Variables} {path : String}

theorem merged_of_merge (merged : merge mode value old = .ok new) : Merged mode value old new := by
  cases mode with
  | replace =>
      cases merged
      exact .whole (.inl (by simp))
  | keep =>
      cases old with
      | none => cases merged; exact .whole (.inr rfl)
      | some held => cases merged
  | append =>
      cases old with
      | none => cases merged; exact .whole (.inr rfl)
      | some held =>
          cases held with
          | string text => cases merged; exact .joined rfl
          | array items =>
              cases value with
              | array more => cases merged; exact .extended rfl rfl
              | null | bool | number | string | object => cases merged; exact .pushed rfl (by simp)
          | null | bool | number | object => cases merged

theorem bind_at?_cons : (old.bind (Value.at? [part])).bind (Value.at? rest) =
    old.bind (Value.at? (part :: rest)) := by
  cases old with
  | none => rfl
  | some held => exact (@Value.at?_append held [part] rest).symm

namespace Put

variable {after : Value}

theorem of_empty (inside : rest ≠ []) (put : Put new rest (some (.object [])) after) :
    Put new rest none after := by
  cases put with
  | here => contradiction
  | inside found others below => exact .inside found others below

theorem replaced {entered : Keyed Value} {held next : Value}
    (found : Keyed.find? part entered = some held)
    (kept : ∀ other, other ≠ part → Keyed.find? other entered = Keyed.find? other members)
    (below : Put new rest (Keyed.find? part members) next) :
    Put new (part :: rest) (some (.object members)) (.object (Keyed.replace part next entered)) := by
  apply Put.inside (Keyed.find?_replace_self found next)
  · intro other different
    rw [Keyed.find?_replace_of_ne different, kept other different, Option.bind_some,
      Value.at?_member]
  · rwa [Option.bind_some, Value.at?_member]

theorem at?_append (put : Put new parts old after) : after.at? (parts ++ rest) = new.at? rest := by
  induction put with
  | here => rfl
  | inside found _ _ ih => simp [found, ih]

theorem at?_of_apart (put : Put new parts old after) (apart : ¬ names <+: parts)
    (other : ¬ parts <+: names) : after.at? names = old.bind (Value.at? names) := by
  induction put generalizing names with
  | here => exact absurd (List.nil_prefix) other
  | @inside part rest old members next found others below ih =>
      cases names with
      | nil => exact absurd (List.nil_prefix) apart
      | cons first names =>
          rw [← bind_at?_cons, Value.at?_object]
          by_cases same : first = part
          · subst same
            simp only [List.cons_prefix_cons, true_and] at apart other
            rw [found, Option.bind_some, ih apart other]
          · rw [others first same]

theorem at?_above (put : Put new (names ++ key :: rest) old after) :
    ∃ inner, after.at? names = some (.object inner) ∧
      ∀ other, other ≠ key →
        Keyed.find? other inner = (old.bind (Value.at? names)).bind (Value.at? [other]) := by
  induction names generalizing old after with
  | nil =>
      cases put with
      | @inside _ _ _ members _ _ others _ =>
          refine ⟨members, rfl, ?_⟩
          intro other different
          rw [others other different]
          cases old <;> rfl
  | cons first names ih =>
      cases put with
      | inside found _ below =>
          obtain ⟨inner, reached, kept⟩ := ih below
          refine ⟨inner, by simp [found, reached], ?_⟩
          intro other different
          rw [kept other different, bind_at?_cons]

end Put

theorem put_of_store {after : Keyed Value} (nonempty : parts ≠ [])
    (stored : store mode value parts members = (.ok (), after)) :
    ∃ new, merge mode value (Value.at? parts (.object members)) = .ok new ∧
      Put new parts (some (.object members)) (.object after) := by
  induction parts generalizing members after with
  | nil => contradiction
  | cons part rest ih =>
      by_cases last : rest = []
      · subst last
        rw [store_last] at stored
        rw [Value.at?_member]
        cases merged : merge mode value (Keyed.find? part members) with
        | error fault => simp [merged] at stored
        | ok new =>
            simp only [merged, Prod.mk.injEq, true_and] at stored
            subst stored
            refine ⟨new, rfl, .inside (Keyed.find?_insert_self part new members) ?_ .here⟩
            intro other different
            rw [Keyed.find?_insert_of_ne different, Option.bind_some, Value.at?_member]
      · rcases Value.find?_cases part members with missing | ⟨inner, found⟩ | ⟨held, found, leaf⟩
        · -- behind the map that is created there is nothing, as there was behind the missing key
          rw [store_created missing last] at stored
          obtain ⟨done, rfl⟩ := Prod.mk.inj stored
          obtain ⟨new, merged, put⟩ := ih last (Prod.ext done rfl)
          obtain ⟨next, more, rfl⟩ := List.exists_cons_of_ne_nil last
          refine ⟨new, by simpa [missing, Keyed.find?] using merged, ?_⟩
          apply Put.replaced (Keyed.find?_insert_self part (.object []) members)
          · exact fun other different => Keyed.find?_insert_of_ne different _ members
          · rw [missing]
            exact put.of_empty last
        · rw [store_entered found last] at stored
          obtain ⟨done, rfl⟩ := Prod.mk.inj stored
          obtain ⟨new, merged, put⟩ := ih last (Prod.ext done rfl)
          refine ⟨new, by simpa [found] using merged, ?_⟩
          apply Put.replaced found
          · exact fun _ _ => rfl
          · rw [found]
            exact put
        · rw [store_blocked found leaf last] at stored
          cases stored

theorem setTo_of_put {after : Variables} (put : Put new parts (some vars.toValue) after.toValue) :
    SetTo new parts vars after where
  apart := by
    intro query names named apart other
    rw [get?_eq_at? named, get?_eq_at? named, put.at?_of_apart apart other, Option.bind_some]
  above := by
    rintro query names key rest named rfl
    obtain ⟨inner, reached, kept⟩ := put.at?_above
    refine ⟨vars.toValue.at? names, inner, get?_eq_at? named, ?_, kept⟩
    rw [get?_eq_at? named, reached]
  within := by
    intro query rest named
    rw [get?_eq_at? named, put.at?_append]

/-- A variable that was set has the new value or what the mode makes of the old one, and is read
through every path that goes on behind it; on the way to it there are maps with the entries that
were there, and no other path reads anything new. -/
theorem get?_assign {after : Variables} (done : vars.assign path value mode = (.ok (), after)) :
    ∃ parts old new, components path = .ok parts ∧ vars.get? path = .ok old ∧
      Merged mode value old new ∧ SetTo new parts vars after := by
  cases named : components path with
  | error reason =>
      simp only [assign, named] at done
      cases done
  | ok parts =>
      rw [assign_of_components named] at done
      cases stored : store mode value parts vars.members with
      | mk result left =>
          cases result with
          | error fault => rw [stored] at done; cases done
          | ok =>
              rw [stored] at done
              cases done
              obtain ⟨new, merged, put⟩ := put_of_store (ne_nil_of_components named) stored
              exact ⟨parts, _, new, rfl, get?_eq_at? named, merged_of_merge merged,
                setTo_of_put put⟩

/-- An item is added to a list beside another entry, under a path written with blanks. -/
theorem get?_assign_appended :
    let vars : Variables := ⟨[("page", .object [("tags", .array [.null]), ("title", .string "T")])]⟩
    ∃ after, vars.assign " page . tags" (.bool true) .append = (.ok (), after) ∧
      after.get? "page.tags" = .ok (some (.array [.null, .bool true])) ∧
      after.get? "page.title" = .ok (some (.string "T")) := by
  intro vars
  have done : vars.assign " page . tags" (.bool true) .append = (.ok (), ⟨[("page",
      .object [("tags", .array [.null, .bool true]), ("title", .string "T")])]⟩) := by rfl
  have place : components " page . tags" = .ok ["page", "tags"] := by rfl
  have before : vars.get? " page . tags" = .ok (some (.array [.null])) := by rfl
  obtain ⟨parts, old, new, named, held, merged, set⟩ := get?_assign done
  cases named.symm.trans place
  cases held.symm.trans before
  cases merged with
  | whole fresh => simp at fresh
  | extended append list => cases list
  | pushed append single =>
      have other : components "page.title" = .ok ["page", "title"] := by rfl
      refine ⟨_, done, @SetTo.within _ _ _ _ set "page.tags" [] rfl, ?_⟩
      rw [set.apart other (by decide) (by decide)]
      rfl

end TagTemplate.Variables
