import TagTemplate.Xml.Node
import TagTemplate.Xml.Entity
import TagTemplate.Text.Blank
import TagTemplate.Text.Cut

/-!
The pieces of a markup text: tags, character data, and parts that carry no
content.

A tag runs from `<` to the first `>` outside quotes.  Its name is everything up to
the first blank, with no check of its characters.  Comments, processing
instructions and the document type are skipped.
-/

namespace TagTemplate.Xml

open TagTemplate.Text (Matcher isAsciiBlank strip cutOnce)

inductive Markup where
  | start (name : String) (attributes : List (String × String))
  | empty (name : String) (attributes : List (String × String))
  | stop (name : String)
  | text (content : List Char)
  | skipped
deriving Repr

/-- The characters up to the first `>` outside quotes.  `quote` is the quote that
is open, if one is. -/
def tagContent? (quote : Option Char) : List Char → Option (List Char)
  | [] => none
  | c :: cs =>
    match quote with
    | some q => (tagContent? (if c == q then none else some q) cs).map (c :: ·)
    | none =>
      if c == '>' then some []
      else (tagContent? (if c == '"' || c == '\'' then some c else none) cs).map (c :: ·)

/-- Reads attributes, each a key, an equals sign and a quoted value, with blanks
around them.  A key runs to the next equals sign or blank behind its first character,
whatever that is.  The first `skip` characters belong to an attribute that has been read
already. -/
def attributesFrom? (known : Keyed String) : Nat → List Char → Option (Keyed String)
  | _, [] => some known
  | skip + 1, _ :: cs => attributesFrom? known skip cs
  | 0, c :: cs =>
    if isAsciiBlank c then attributesFrom? known 0 cs
    else
      let (more, afterKey) := cs.span fun c => c != '=' && !isAsciiBlank c
      let keyText := String.ofList (c :: more)
      if Keyed.contains keyText known then none
      else
        match afterKey.dropWhile isAsciiBlank with
        | '=' :: afterEquals =>
          match afterEquals.dropWhile isAsciiBlank with
          | quote :: rest =>
            if quote == '"' || quote == '\'' then
              match rest.span (· != quote) with
              | (value, _ :: afterValue) =>
                match resolve? value with
                | some value =>
                  attributesFrom? (Keyed.insert keyText (String.ofList value) known)
                    (cs.length - afterValue.length) cs
                | none => none
              | (_, []) => none
            else none
          | [] => none
        | _ => none

def nameAndAttributes? (content : List Char) : Option (String × Keyed String) :=
  let (name, rest) := content.span fun c => !isAsciiBlank c
  (attributesFrom? [] 0 rest).map fun attributes => (String.ofList name, attributes)

/-- Reads a start tag or an empty element; a slash right before the `>` makes the
element empty. -/
def startTag? (content : List Char) : Option Markup :=
  match content.reverse with
  | '/' :: reversed =>
    (nameAndAttributes? reversed.reverse).map fun (name, attributes) => .empty name attributes
  | _ => (nameAndAttributes? content).map fun (name, attributes) => .start name attributes

/-- The name of an end tag, without blanks behind it; a name of blanks alone is
kept. -/
def endName (content : List Char) : String :=
  let trimmed := (content.reverse.dropWhile isAsciiBlank).reverse
  String.ofList (if trimmed.isEmpty then content else trimmed)

/-- Whether a text starts with a word, in ASCII letters of either case. -/
def startsWithWord (word : String) (cs : List Char) : Bool :=
  (cs.take word.length).map Char.toUpper == word.toList

/-- The characters of a document type up to the `>` at which as many `<` as `>`
have been read.  `depth` counts the `<` that are not balanced yet. -/
def doctypeContent? (depth : Nat) : List Char → Option (List Char)
  | [] => none
  | c :: cs =>
    if c == '>' then
      if depth = 0 then some [] else (doctypeContent? (depth - 1) cs).map (c :: ·)
    else (doctypeContent? (if c == '<' then depth + 1 else depth) cs).map (c :: ·)

/-- Reads what follows `<!`: a comment, verbatim character data, or a document type
with a name. -/
def declaration? : Matcher Markup
  | '-' :: '-' :: cs =>
    (cutOnce "-->".toList cs).map fun (comment, _) => (.skipped, comment.length + 5)
  | 'D' :: cs => doctype? 'D' cs
  | 'd' :: cs => doctype? 'd' cs
  | '[' :: cs =>
    match "CDATA[".toList.isPrefixOf? cs with
    | some cs =>
      (cutOnce "]]>".toList cs).map fun (content, _) => (.text content, content.length + 10)
    | none => none
  | _ => none
where
  doctype? (first : Char) (cs : List Char) : Option (Markup × Nat) :=
    if startsWithWord "DOCTYPE" (first :: cs) then
      match doctypeContent? 0 cs with
      | some content =>
        if (content.drop 6).all isAsciiBlank then none else some (.skipped, content.length + 2)
      | none => none
    else none

/-- Reads what follows `<?`: an instruction up to `?>`, whose question mark is not the
one that opened it. -/
def instruction? : Matcher Markup
  | '>' :: _ => none
  | cs => (cutOnce "?>".toList cs).map fun (content, _) => (.skipped, content.length + 2)

/-- The piece of markup at the start of a text.  Character data is stripped of ASCII
blanks at both ends before references are resolved. -/
def markupAt? : Matcher Markup
  | '<' :: '!' :: cs => (declaration? cs).map fun (markup, read) => (markup, read + 2)
  | '<' :: '?' :: cs => (instruction? cs).map fun (markup, read) => (markup, read + 2)
  | '<' :: '/' :: cs =>
    (tagContent? none cs).map fun content => (.stop (endName content), content.length + 3)
  | '<' :: cs => do
    let content ← tagContent? none cs
    return (← startTag? content, content.length + 2)
  | cs =>
    let data := cs.takeWhile (· != '<')
    let content := strip isAsciiBlank data
    if content.isEmpty then some (.skipped, data.length)
    else (resolve? content).map fun resolved => (.text resolved, data.length)

end TagTemplate.Xml
