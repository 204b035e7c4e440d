import TagTemplate.Proofs.Xml.Printed

/-!
Printing an element tree and reading it back.

An element is printed as its start tag, its text, its child elements and its end tag.  To
the builder a printed element is one complete element, so that an induction on the tree
puts every element where it belongs.
-/

namespace TagTemplate.Xml

open TagTemplate.Text (isAsciiBlank)

/-- Trees whose names can be written in tags and whose texts keep their ends. -/
inductive Printable : Node → Prop where
  | element {node : Node} (named : IsName node.name)
      (keys : ∀ entry ∈ node.attributes, IsName entry.1) (ordered : Keyed.Ordered node.attributes)
      (trimmed : Trimmed node.text) (below : ∀ child ∈ node.children, Printable child) :
      Printable node

mutual

/-- The characters that a tree is printed as. -/
def Node.chars : Node → List Char
  | ⟨name, attributes, children, text⟩ =>
    printStart name attributes ++ escape text ++ charsOfAll children ++ printStop name

def charsOfAll : List Node → List Char
  | [] => []
  | node :: rest => node.chars ++ charsOfAll rest

end

def Node.print (node : Node) : String :=
  String.ofList node.chars

namespace Builder

variable {builder next : Builder} {markup : Markup} {piece rest : List Char} {node : Node}
  {outer : List Node} {root : Option Node} {name text : String}
  {attributes : List (String × String)}

theorem read_drop (builder : Builder) (skip : Nat) (text : List Char) :
    builder.read skip text = builder.read 0 (text.drop skip) := by
  induction text generalizing skip with
  | nil => cases skip <;> simp [read]
  | cons c cs ih =>
      cases skip with
      | zero => rfl
      | succ skip =>
          rw [read]
          exact ih skip

theorem read_piece (nonempty : piece ≠ [])
    (found : markupAt? (piece ++ rest) = some (markup, piece.length))
    (stepped : builder.step markup = .ok next) :
    builder.read 0 (piece ++ rest) = next.read 0 rest := by
  obtain ⟨c, cs, rfl⟩ := List.exists_cons_of_ne_nil nonempty
  rw [List.cons_append] at found ⊢
  rw [read, found]
  simp only [stepped, List.length_cons, Nat.add_sub_cancel]
  rw [read_drop, List.drop_left]

theorem read_escape {text : String} (trimmed : Trimmed text) :
    (Builder.mk (⟨name, attributes, [], ""⟩ :: outer) root).read 0 (escape text ++ '<' :: rest) =
      (Builder.mk (⟨name, attributes, [], text⟩ :: outer) root).read 0 ('<' :: rest) := by
  by_cases none : text = ""
  · subst none
    rfl
  · refine read_piece (escape_ne_nil none) (markupAt?_escape none trimmed) ?_
    simp [step, addText]

/-- Children are attached one after the other, if each is read as one element. -/
theorem read_children {before children : List Node} (each : ∀ child ∈ children,
      ∀ (builder next : Builder) (rest : List Char), builder.attach child = .ok next →
        builder.read 0 (child.chars ++ rest) = next.read 0 rest) :
    (Builder.mk (⟨name, attributes, before, text⟩ :: outer) root).read 0
        (charsOfAll children ++ rest) =
      (Builder.mk (⟨name, attributes, before ++ children, text⟩ :: outer) root).read 0 rest := by
  induction children generalizing before with
  | nil => simp [charsOfAll]
  | cons child children ih =>
      have first := each child List.mem_cons_self
      have others := fun other member => each other (List.mem_cons_of_mem child member)
      rw [charsOfAll, List.append_assoc, first _ _ (charsOfAll children ++ rest) rfl]
      simpa using @ih (before ++ [child]) others

theorem exists_tag_behind_text (children : List Node) :
    ∃ more, charsOfAll children ++ (printStop name ++ rest) = '<' :: more := by
  cases children with
  | nil => exact ⟨_, rfl⟩
  | cons child children =>
      obtain ⟨name, attributes, inner, text⟩ := child
      simp [charsOfAll, Node.chars, printStart]

/-- A printed tree is read as one element. -/
theorem read_chars (printable : Printable node) (attached : builder.attach node = .ok next) :
    builder.read 0 (node.chars ++ rest) = next.read 0 rest := by
  induction printable generalizing builder next rest with
  | @element node named keys ordered trimmed below ih =>
      obtain ⟨name, attributes, children, text⟩ := node
      obtain ⟨opened, root⟩ := builder
      -- Every child is read whatever is printed behind it.
      have each : ∀ child ∈ children, ∀ (builder next : Builder) (rest : List Char),
          builder.attach child = .ok next →
            builder.read 0 (child.chars ++ rest) = next.read 0 rest :=
        fun child member builder next rest attached => ih child member attached
      obtain ⟨more, behind⟩ := @exists_tag_behind_text rest name children
      calc (Builder.mk opened root).read 0 (Node.chars ⟨name, attributes, children, text⟩ ++ rest)
          = (Builder.mk opened root).read 0 (printStart name attributes ++ (escape text ++
              (charsOfAll children ++ (printStop name ++ rest)))) := by
            simp [Node.chars]
        _ = (Builder.mk (Node.leaf name attributes :: opened) root).read 0 (escape text ++
              (charsOfAll children ++ (printStop name ++ rest))) :=
            read_piece (by simp [printStart]) (markupAt?_printStart named keys ordered) rfl
        _ = (Builder.mk (⟨name, attributes, [], text⟩ :: opened) root).read 0
              (charsOfAll children ++ (printStop name ++ rest)) := by
            rw [behind]
            exact read_escape trimmed
        _ = (Builder.mk (⟨name, attributes, children, text⟩ :: opened) root).read 0
              (printStop name ++ rest) := read_children each
        _ = next.read 0 rest := by
            refine read_piece (by simp [printStop]) (markupAt?_printStop named) ?_
            rw [step, close]
            simpa using attached

end Builder

/-- Printing an element tree and reading it back gives the tree. -/
theorem Node.parse_print {node : Node} (printable : Printable node) :
    Node.parse node.print = .ok node := by
  have attached : Builder.start.attach node = .ok ⟨[], some node⟩ := rfl
  have read : Builder.start.read 0 (node.chars ++ []) =
      (Builder.mk [] (some node)).read 0 [] := Builder.read_chars printable attached
  have unmarked : Text.dropMark node.chars = node.chars := by
    obtain ⟨name, attributes, children, text⟩ := node
    rfl
  rw [List.append_nil] at read
  rw [Node.parse, Node.print, String.toList_ofList, unmarked, read]
  rfl

/-- A root with an attribute that needs quoting, and a text that needs entities before a child. -/
theorem Node.parse_print_quoted :
    let tree : Node := ⟨"page", [("id", "a\"<b")], [⟨"br", [], [], ""⟩], "1 & 2"⟩
    tree.print = "<page id=\"a&quot;&lt;b\">1 &amp; 2<br></br></page>" ∧
      Node.parse tree.print = .ok tree := by
  intro tree
  have named : ∀ name ∈ ["page", "id", "br"], IsName name := fun name member => by
    have letters : ∀ name ∈ ["page", "id", "br"],
        name ≠ "" ∧ name.toList.all Char.isAlphanum = true := by decide
    exact ⟨(letters name member).1, List.all_eq_true.mp (letters name member).2⟩
  have child : Printable ⟨"br", [], [], ""⟩ :=
    .element (named "br" (by simp)) (by simp) .nil ⟨by simp, by simp⟩ (by simp)
  have trimmed : Trimmed "1 & 2" := ⟨by simp [isAsciiBlank], by simp [isAsciiBlank]⟩
  have printable : Printable tree := by
    refine .element (named "page" (by simp)) ?_ (List.pairwise_singleton _ _) trimmed ?_
    · intro entry member
      cases List.mem_singleton.mp member
      exact named "id" (by simp)
    · intro node member
      cases List.mem_singleton.mp member
      exact child
  exact ⟨by decide, parse_print printable⟩

end TagTemplate.Xml
