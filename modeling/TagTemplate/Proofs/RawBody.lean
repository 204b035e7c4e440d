import TagTemplate.Proofs.Lexing.Lossless
import TagTemplate.Proofs.Pairing.Body
import TagTemplate.Proofs.Pairing.Refinement

/-!
The raw text of a body is parsed as it was in its place.

Tokenizing finds a run of segments again in the text of the run, and the machine reads
the body of a pair alone as it reads it between the tags of the pair.
-/

namespace TagTemplate

/-- A segment of a text that has `offset` more bytes in front. -/
def Segment.shift (offset : Nat) : Segment → Segment
  | .literal text => .literal text
  | .tag t => .tag { t with start := offset + t.start, stop := offset + t.stop }

variable {d : Delimiters} {segments front middle behind : List Segment} {here offset : Nat}
  {text : String}

@[simp] theorem Segment.pieces_shift {segment : Segment} :
    (segment.shift offset).pieces = segment.pieces := by
  cases segment <;> rfl

@[simp] theorem Segment.shift_zero : Segment.shift 0 = id := by
  funext segment
  cases segment <;> simp [shift]

theorem Tokens.shift (tokens : Tokens d here segments) (offset : Nat) :
    Tokens d (offset + here) (segments.map (Segment.shift offset)) := by
  induction tokens with
  | last text => exact .last text
  | next text start stop behind ih =>
      refine .next text ?_ ?_ ih
      · rw [start, Nat.add_assoc]
      · rw [stop, Nat.add_assoc]

/-- A run of segments that starts and ends with a literal is found again in its own text. -/
theorem Delimiters.Delimiting.tokenize_detokenize (delimiting : d.Delimiting)
    (split : d.tokenize text = front ++ middle ++ behind) (tokens : Tokens d here middle) :
    (d.tokenize (d.detokenize middle)).map (Segment.shift here) = middle := by
  have scanned := d.pieces_tokenize text
  rw [split, List.flatMap_append, List.flatMap_append] at scanned
  have again := delimiting.reads.scan_render scanned.symm
  rw [← toList_detokenize, ← pieces_tokenize] at again
  have shifted := (d.tokenize_tokens (d.detokenize middle)).shift here
  refine shifted.unique tokens ?_
  rw [← again, List.flatMap_map]
  simp

theorem Delimiters.Delimiting.tokenize_literal (delimiting : d.Delimiting) {literal : String}
    (member : .literal literal ∈ d.tokenize text) : d.tokenize literal = [.literal literal] := by
  obtain ⟨front, behind, split⟩ := List.mem_iff_append.mp member
  have run : d.tokenize text = front ++ [.literal literal] ++ behind := by simpa using split
  have tokens : Tokens d 0 [.literal literal] := .last literal
  simpa [detokenize_cons, Segment.text] using delimiting.tokenize_detokenize run tokens

namespace Pairing.Machine

theorem step_shift {machine : Machine} {segment : Segment} :
    machine.step (segment.shift offset) = machine.step segment := by
  cases segment <;> rfl

theorem run_map_shift : run (segments.map (Segment.shift offset)) = run segments := by
  simp only [run, runFrom, List.foldlM_map, step_shift]

end Pairing.Machine

theorem split_at_pair {first last : Segment} {start stop : Nat}
    (firstFound : segments[start]? = some first) (lastFound : segments[stop]? = some last)
    (before : start < stop) :
    ∃ front middle behind, segments = front ++ first :: (middle ++ last :: behind) ∧
      front.length = start ∧ front.length + 1 + middle.length = stop ∧
      (segments.take stop).drop (start + 1) = middle := by
  obtain ⟨bound, rfl⟩ := List.getElem?_eq_some_iff.mp lastFound
  obtain ⟨_, rfl⟩ := List.getElem?_eq_some_iff.mp firstFound
  have inside : start < (segments.take stop).length := by
    rw [List.length_take]
    omega
  refine ⟨segments.take start, (segments.take stop).drop (start + 1), segments.drop (stop + 1),
    ?_, by rw [List.length_take]; omega, by simp only [List.length_take, List.length_drop]; omega,
    rfl⟩
  calc segments = segments.take stop ++ segments.drop stop := (List.take_append_drop ..).symm
    _ = segments.take start ++ (segments.take stop).drop start ++ segments.drop stop := by
        rw [← take_eq_append (Nat.le_of_lt before)]
    _ = _ := by
        rw [List.drop_eq_getElem_cons inside, List.drop_eq_getElem_cons bound]
        simp

/-- The body of a pair is read again from its own text. -/
theorem reread_body (delimiting : d.Delimiting) {openTag closeTag : Tag}
    {machine : Pairing.Machine}
    (split : d.tokenize text = front ++ .tag openTag :: (middle ++ .tag closeTag :: behind))
    (ran : Pairing.Machine.run (d.tokenize text) = some machine)
    (paired : Pairing.RoleAt machine.roles (front.length + 1 + middle.length)
      (.closes front.length)) :
    (d.tokenize (d.detokenize middle)).map (Segment.shift openTag.stop) = middle ∧
      ∃ inner, Pairing.Machine.run (d.tokenize (d.detokenize middle)) = some inner ∧
        ∀ index < middle.length, machine.roles[front.length + 1 + index]? =
          inner.roles[index]?.map (Option.map (Role.shift (front.length + 1))) := by
  have tokens := d.tokenize_tokens text
  rw [split] at tokens ran
  have again : (d.tokenize (d.detokenize middle)).map (Segment.shift openTag.stop) = middle := by
    have run : d.tokenize text =
        (front ++ [.tag openTag]) ++ middle ++ .tag closeTag :: behind := by
      rw [split]
      simp
    exact delimiting.tokenize_detokenize run tokens.split.2.split.1
  obtain ⟨inner, ranInner, same⟩ := Pairing.Machine.run_body ran paired
  refine ⟨again, inner, ?_, same⟩
  rw [← Pairing.Machine.run_map_shift, again]
  exact ranInner

namespace Document

variable {document body : Document} {opener closer index : Nat} {role : Role}

theorem role?_eq_some_iff :
    document.role? index = some role ↔ Pairing.RoleAt document.roles index role := by
  rw [role?, Option.join_eq_some_iff, Pairing.RoleAt]

/-- `body` is what `document` is from position `first` up to position `stop`, where the
text of the body starts at byte `origin`. -/
structure IsBody (document : Document) (first stop origin : Nat) (body : Document) :
    Prop where
  segments : body.segments.toList.map (Segment.shift origin) = document.range first stop
  roles : ∀ index < body.size,
    document.role? (first + index) = (body.role? index).map (Role.shift first)

theorem parse_raw (delimiting : d.Delimiting) (parsed : parse d text = .ok document)
    (paired : document.role? opener = some (.closedAt closer)) :
    ∃ openTag body, document.tag? opener = some openTag ∧
      parse d (document.raw d (opener + 1) closer) = .ok body ∧
      document.IsBody (opener + 1) closer openTag.stop body := by
  obtain ⟨rfl, segments, accepted⟩ := parse_eq_ok_iff.mp parsed
  obtain ⟨machine, ran, roles⟩ := Pairing.run_of_pairTags accepted
  have nested := Pairing.nested_of_pairTags accepted
  have opens := role?_eq_some_iff.mp paired
  have closes := nested.partner.mp opens
  obtain ⟨before, openTag, closeTag, openFound, closeFound, _⟩ := nested.matched opens
  obtain ⟨front, middle, behind, split, rfl, rfl, range⟩ :=
    split_at_pair openFound closeFound before
  change document.range _ _ = middle at range
  rw [segments] at split ran
  rw [← roles] at closes
  obtain ⟨again, inner, ranInner, same⟩ := reread_body delimiting split ran closes
  let body : Document :=
    ⟨d.detokenize middle, (d.tokenize (d.detokenize middle)).toArray, inner.roles⟩
  refine ⟨openTag, body, ?_, ?_, ?_, ?_⟩
  · rw [tag?, ← Array.getElem?_toList, openFound]
    rfl
  · rw [raw, range]
    exact parse_eq_ok_iff.mpr ⟨rfl, rfl, Pairing.pairTags_of_run _ d ranInner⟩
  · rw [range]
    exact again
  · intro index bound
    have inside : index < middle.length := by
      rw [← again, List.length_map]
      exact bound
    rw [role?, role?, ← roles, same index inside]
    cases inner.roles[index]? <;> rfl

end Document

/-- The raw text of a body is parsed to the segments and the roles that it has in its
place, and a literal has no tag in it. -/
theorem parse_raw_body (d : Delimiters) (valid : d.validate = .ok ()) (text : String) :
    (∀ document opener closer, Document.parse d text = .ok document →
      document.role? opener = some (.closedAt closer) →
      ∃ openTag body, document.tag? opener = some openTag ∧
        Document.parse d (document.raw d (opener + 1) closer) = .ok body ∧
        document.IsBody (opener + 1) closer openTag.stop body) ∧
    ∀ literal, .literal literal ∈ d.tokenize text → d.tokenize literal = [.literal literal] := by
  have delimiting := Delimiters.Delimiting.of_validate valid
  refine ⟨fun _ _ _ parsed paired => Document.parse_raw delimiting parsed paired, ?_⟩
  intro literal member
  exact delimiting.tokenize_literal member

/-- A pair inside the body of a pair; the body starts at byte 6. -/
theorem parse_raw_body_nested :
    Delimiters.default.validate = .ok () ∧
      ∃ document, document.source = "é\x7ba:\x7dx\x7bb:\x7dy\x7b:b\x7dz\x7b:a\x7d" ∧
        Document.parse .default document.source = .ok document ∧
        document.role? 1 = some (.closedAt 7) ∧
        ∃ body, Document.parse .default "x\x7bb:\x7dy\x7b:b\x7dz" = .ok body ∧
          document.IsBody 2 7 6 body := by
  have valid : Delimiters.default.validate = .ok () := by decide
  let document : Document := ⟨"é\x7ba:\x7dx\x7bb:\x7dy\x7b:b\x7dz\x7b:a\x7d",
    #[.literal "é", .tag ⟨"a", "", 2, 6⟩, .literal "x", .tag ⟨"b", "", 7, 11⟩, .literal "y",
      .tag ⟨"", "b", 12, 16⟩, .literal "z", .tag ⟨"", "a", 17, 21⟩, .literal ""],
    #[none, some (.closedAt 7), none, some (.closedAt 5), none, some (.closes 3), none,
      some (.closes 1), none]⟩
  have parsed : Document.parse .default document.source = .ok document := by
    decide +kernel
  obtain ⟨reparsed, _⟩ := parse_raw_body .default valid document.source
  obtain ⟨openTag, body, found, parsedBody, isBody⟩ := reparsed document 1 7 parsed rfl
  cases found
  have raw : document.raw .default 2 7 = "x\x7bb:\x7dy\x7b:b\x7dz" := by decide
  rw [raw] at parsedBody
  exact ⟨valid, document, rfl, parsed, rfl, body, parsedBody, isBody⟩

end TagTemplate
