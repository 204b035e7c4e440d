import TagTemplate.Proofs.Lexing.Tokens
import TagTemplate.Proofs.Pairing.Refinement

/-!
Placeholders among the tags of a text.

A placeholder is read as a close tag whose name no open tag can have.  The stack machine
goes over it as it goes over a literal: nothing waits for it, and nothing that comes
later looks at the role that it was given.
-/

namespace TagTemplate

/-- A close tag that names something with an equals sign in front. -/
def Tag.isPlaceholder (tag : Tag) : Bool :=
  tag.isClose && tag.closeName.toList.head? == some '='

namespace Segment

def isPlaceholder : Segment → Bool
  | .literal _ => false
  | .tag t => t.isPlaceholder

/-- The literal with the text of a placeholder; any other segment as it is. -/
def inert (d : Delimiters) (segment : Segment) : Segment :=
  if segment.isPlaceholder then .literal (segment.text d) else segment

end Segment

theorem Tag.isClose_of_isPlaceholder {tag : Tag} (placeholder : tag.isPlaceholder = true) :
    tag.isClose = true := by
  simp only [isPlaceholder, Bool.and_eq_true] at placeholder
  exact placeholder.1

theorem Tag.isPlaceholder_of_named {tag : Tag} (named : tag.isClose = false) :
    tag.isPlaceholder = false := by
  simp [isPlaceholder, named]

namespace Pairing

/-- A table of roles in which placeholders have none, as literals have none. -/
def withoutPlaceholders (segments : List Segment) (roles : Roles) : Roles :=
  roles.mapIdx fun index role =>
    if (segments[index]?).any Segment.isPlaceholder then none else role

variable {segments : List Segment} {roles : Roles} {segment : Segment} {role : Option Role}
  {machine next : Machine} {index : Nat} {tag : Tag}

@[simp] theorem size_withoutPlaceholders :
    (withoutPlaceholders segments roles).size = roles.size := by
  simp [withoutPlaceholders]

theorem getElem?_withoutPlaceholders :
    (withoutPlaceholders segments roles)[index]? = (roles[index]?).map fun role =>
      if (segments[index]?).any Segment.isPlaceholder then none else role := by
  rw [withoutPlaceholders, Array.getElem?_mapIdx]

theorem withoutPlaceholders_push (size : roles.size = segments.length) :
    withoutPlaceholders (segments ++ [segment]) (roles.push role) =
      (withoutPlaceholders segments roles).push (if segment.isPlaceholder then none else role) := by
  apply Array.ext_getElem?
  intro index
  rw [getElem?_withoutPlaceholders, Array.getElem?_push, Array.getElem?_push,
    getElem?_withoutPlaceholders, size_withoutPlaceholders]
  by_cases last : index = roles.size
  · simp [last, size]
  · by_cases inside : index < segments.length
    · rw [if_neg last, if_neg last, List.getElem?_append_left inside]
    · rw [if_neg last, if_neg last, Array.getElem?_eq_none (by omega)]
      rfl

theorem withoutPlaceholders_set (found : segments[index]? = some segment)
    (tagged : segment.isPlaceholder = false) :
    withoutPlaceholders segments (roles.setIfInBounds index role) =
      (withoutPlaceholders segments roles).setIfInBounds index role := by
  apply Array.ext_getElem?
  intro place
  rw [getElem?_withoutPlaceholders, Array.getElem?_setIfInBounds, Array.getElem?_setIfInBounds,
    getElem?_withoutPlaceholders, size_withoutPlaceholders]
  by_cases same : index = place
  · subst same
    simp only [if_true, found, Option.any_some, tagged, Bool.false_eq_true, if_false,
      Option.map_id_fun', id]
  · rw [if_neg same, if_neg same]

namespace Machine

/-- The machine after the same segments with literals in the place of placeholders. -/
def forget (segments : List Segment) (machine : Machine) : Machine :=
  { machine with roles := withoutPlaceholders segments machine.roles }

theorem refused_of_placeholder (placeholder : tag.isPlaceholder = true) {waiting : Waiting}
    (plain : '=' ∉ waiting.name.toList) : waiting.answers tag.closeName = false := by
  simp only [Tag.isPlaceholder, Bool.and_eq_true, beq_iff_eq] at placeholder
  have starts : '=' ∈ tag.closeName.toList := List.mem_of_head? placeholder.2
  rw [Bool.eq_false_iff, Ne, Waiting.answers_iff, not_or]
  constructor
  · intro empty
    simp [empty] at starts
  · intro same
    exact plain (same ▸ starts)

/-- A placeholder takes nothing, and is never refused. -/
theorem step_placeholder (invariant : machine.Invariant segments)
    (plain : ∀ tag, .tag tag ∈ segments → '=' ∉ tag.name.toList)
    (placeholder : tag.isPlaceholder = true) :
    machine.step (.tag tag) = some (machine.assign (some .dangling)) := by
  refine step_eq_some_iff.mpr (.dangling (Tag.isClose_of_isPlaceholder placeholder) ?_)
  intro waiting member
  obtain ⟨_, openTag, found, _, sameName⟩ := invariant.waiting waiting member
  refine refused_of_placeholder placeholder ?_
  rw [← sameName]
  exact plain openTag (List.mem_of_getElem? found)

theorem forget_assign (size : machine.roles.size = segments.length) :
    (machine.assign role).forget (segments ++ [segment]) =
      (machine.forget segments).assign (if segment.isPlaceholder then none else role) := by
  simp [forget, assign, withoutPlaceholders_push size]

theorem forget_take {above below : List Waiting} {opener : Waiting}
    (invariant : machine.Invariant segments) (shown : opener ∈ machine.visible)
    (other : segment.isPlaceholder = false) :
    (machine.take above opener below).forget (segments ++ [segment]) =
      (machine.forget segments).take above opener below := by
  obtain ⟨_, openTag, found, named, _⟩ :=
    invariant.waiting opener (List.mem_append_left _ shown)
  have size : (machine.roles.setIfInBounds opener.index
      (some (.closedAt machine.roles.size))).size = segments.length := by
    rw [Array.size_setIfInBounds, invariant.nested.size]
  have kept : (Segment.tag openTag).isPlaceholder = false := Tag.isPlaceholder_of_named named
  simp [forget, take, withoutPlaceholders_push size, withoutPlaceholders_set found kept, other]

/-- Any other segment moves the machine in the same way, whatever stood for the
placeholders before it. -/
theorem step_forget (invariant : machine.Invariant segments)
    (other : segment.isPlaceholder = false) :
    (machine.forget segments).step segment =
      (machine.step segment).map (forget (segments ++ [segment])) := by
  have size := invariant.nested.size
  have assigned (role : Option Role) : (machine.forget segments).assign role =
      (machine.assign role).forget (segments ++ [segment]) := by
    rw [forget_assign size, other]
    rfl
  cases segment with
  | literal text => exact congrArg some (assigned none)
  | tag tag =>
      cases unnamed : tag.isClose with
      | false =>
          simp only [step, unnamed, Bool.false_eq_true, if_false, Option.map_some]
          rw [push, assigned]
          simp [push, forget]
      | true =>
          simp only [step, unnamed, if_true]
          rcases stack_cases machine.visible tag.closeName with
            ⟨above, opener, below, stack, refused, answered⟩ | refused
          · have shown : opener ∈ machine.visible := by simp [stack]
            -- Only roles are forgotten, the stack is the same.
            have again : (machine.forget segments).visible = above ++ opener :: below := stack
            rw [close_of_stack stack refused answered, close_of_stack again refused answered,
              Option.map_some, forget_take invariant shown other]
          · have again : ∀ waiting ∈ (machine.forget segments).visible,
                waiting.answers tag.closeName = false := refused
            rw [close_of_refused refused, close_of_refused again, assigned]
            change (if machine.hidden.any _ then _ else _) = _
            split <;> rfl

/-- Literals in the place of the placeholders lead the machine to the same stack and to
the same roles of all other segments, and it stops with them where it stops without. -/
theorem run_inert (d : Delimiters) (plain : ∀ tag, .tag tag ∈ segments → '=' ∉ tag.name.toList) :
    run (segments.map (Segment.inert d)) = (run segments).map (forget segments) := by
  -- The machine reads from the left, so the last segment is taken off.
  induction segments using List.reverseRecOn with
  | nil => rfl
  | append_singleton segments segment ih =>
      have earlier : ∀ tag, .tag tag ∈ segments → '=' ∉ tag.name.toList :=
        fun tag member => plain tag (List.mem_append_left _ member)
      rw [List.map_append, List.map_cons, List.map_nil, run_concat, run_concat, ih earlier]
      cases ran : run segments with
      | none => rfl
      | some machine =>
          have invariant := invariant_of_run ran
          rw [Option.map_some, Option.bind_some, Option.bind_some]
          cases placeholder : segment.isPlaceholder with
          | false =>
              rw [Segment.inert, placeholder]
              exact step_forget invariant placeholder
          | true =>
              cases segment with
              | literal text => cases placeholder
              | tag tag =>
                  have stepped : machine.step (.tag tag) =
                      some (machine.assign (some .dangling)) :=
                    step_placeholder invariant earlier placeholder
                  rw [stepped, Segment.inert, placeholder,
                    Option.map_some, forget_assign invariant.nested.size, placeholder]
                  rfl

end Machine

/-- Replacing the placeholders by literals changes neither whether the tags of a text can
be paired nor the role of anything else. -/
theorem toOption_pairTags_inert (d : Delimiters)
    (plain : ∀ tag, .tag tag ∈ segments → '=' ∉ tag.name.toList) :
    (pairTags (segments.toArray.map (Segment.inert d)) d).toOption =
      (pairTags segments.toArray d).toOption.map (withoutPlaceholders segments) := by
  have replaced : (segments.toArray.map (Segment.inert d)).toList =
      segments.map (Segment.inert d) := by simp
  have same := Machine.run_inert d plain
  rw [← replaced] at same
  cases ran : Machine.run segments with
  | none =>
      obtain ⟨_, _, failed⟩ := pairTags_of_stuck segments.toArray d ran
      rw [ran] at same
      obtain ⟨_, _, alsoFailed⟩ := pairTags_of_stuck _ d same
      rw [failed, alsoFailed]
      rfl
  | some machine =>
      rw [ran] at same
      rw [pairTags_of_run segments.toArray d ran, pairTags_of_run _ d same]
      rfl

theorem Nested.dangling_of_placeholder (nested : Nested segments roles)
    (plain : ∀ tag, .tag tag ∈ segments → '=' ∉ tag.name.toList)
    (found : segments[index]? = some (.tag tag)) (placeholder : tag.isPlaceholder = true) :
    RoleAt roles index .dangling := by
  rcases nested.closer found (Tag.isClose_of_isPlaceholder placeholder) with
    dangles | ⟨opener, closes⟩
  · exact dangles
  · obtain ⟨_, openTag, closeTag, openFound, closeFound, _, _, agree⟩ :=
      nested.matched (nested.partner.mpr closes)
    rw [found] at closeFound
    cases closeFound
    let waiting : Waiting := ⟨opener, openTag.name⟩
    have unlike : '=' ∉ waiting.name.toList := plain openTag (List.mem_of_getElem? openFound)
    have refused := Machine.refused_of_placeholder placeholder unlike
    rw [Waiting.answers_iff.mpr agree] at refused
    contradiction

end Pairing

namespace Delimiters

theorem Delimiting.equals_not_mem_name {d : Delimiters} (delimiting : d.Delimiting)
    {text : String} {tag : Tag} (member : .tag tag ∈ d.tokenize text) :
    '=' ∉ tag.name.toList := by
  intro equals
  have nameChar := delimiting.named_of_mem_tokenize member '=' equals
  revert nameChar
  decide

end Delimiters

end TagTemplate
