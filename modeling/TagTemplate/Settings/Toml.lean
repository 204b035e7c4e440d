import TagTemplate.Settings.Toml.Moment
import TagTemplate.Settings.Toml.Number
import TagTemplate.Settings.Toml.Section

/-!
Settings files: headers that open tables, and keys with values.

A header is a dotted key between brackets, or between double brackets for the next table
of a list.  A value is quoted text, a number, a truth value, a date or time, a list, or a
table on one line.  A number sign starts a comment.
-/

namespace TagTemplate.Toml

/-- How deep lists and tables may be nested in a value, and how many parts a key may
have. -/
def nestingLimit : Nat := 79

/-- A text without blanks at its start. -/
def skipBlanks (cs : List Char) : List Char :=
  cs.dropWhile isInlineBlank

/-- A text without blanks, line ends and comments at its start. -/
def skipGaps (comment : Bool) : List Char → List Char
  | '\r' :: '\n' :: cs => skipGaps false cs
  | c :: cs =>
    if c == '\n' then skipGaps false cs
    else if comment then if isPlain c then skipGaps true cs else c :: cs
    else if isInlineBlank c then skipGaps false cs
    else if c == '#' then skipGaps true cs
    else c :: cs
  | [] => []

/-- The rest behind the end of a line, on which only blanks and a comment may be
left. -/
def lineEnd? (cs : List Char) : Option (List Char) :=
  let rest := match skipBlanks cs with
    | '#' :: cs => cs.dropWhile isPlain
    | cs => cs
  if rest.isEmpty || startsLineEnd rest then some (dropLineEnd rest) else none

def isBareKeyChar (c : Char) : Bool :=
  c.isAlphanum || c == '_' || c == '-'

def keyPart? : Reader String
  | '"' :: cs => (line? '"' 0 cs).map fun (text, rest) => (String.ofList text, rest)
  | '\'' :: cs => (line? '\'' 0 cs).map fun (text, rest) => (String.ofList text, rest)
  | cs =>
    match cs.span isBareKeyChar with
    | ([], _) => none
    | (text, rest) => some (String.ofList text, rest)

/-- Reads a dotted key of a limited number of parts, with blanks around them. -/
def key? : Nat → Reader (List String)
  | 0, _ => none
  | parts + 1, cs => do
    let (first, rest) ← keyPart? (skipBlanks cs)
    match skipBlanks rest with
    | '.' :: rest => do
      let (more, rest) ← key? parts rest
      return (first :: more, rest)
    | rest => return ([first], rest)

/-- Reads a value that holds no other values. -/
def scalar? : Reader Scalar
  | 't' :: 'r' :: 'u' :: 'e' :: rest => some (.bool true, rest)
  | 'f' :: 'a' :: 'l' :: 's' :: 'e' :: rest => some (.bool false, rest)
  | '"' :: cs => (quoted? ('"' :: cs)).map fun (text, rest) => (.string (String.ofList text), rest)
  | '\'' :: cs =>
    (quoted? ('\'' :: cs)).map fun (text, rest) => (.string (String.ofList text), rest)
  | cs =>
    if startsMoment cs then
      (moment? cs).map fun (text, rest) => (.string (String.ofList text), rest)
    else number? cs

/-- Reads the items of a list up to its closing bracket.  The items stand between
commas, and a comma may follow the last one. -/
def items? (item : Reader SettingTree) : Nat → Reader (List SettingTree)
  | 0, _ => none
  | fuel + 1, cs =>
    match skipGaps false cs with
    | ']' :: rest => some ([], rest)
    | cs => do
      let (first, rest) ← item cs
      match skipGaps false rest with
      | ',' :: rest => do
        let (more, rest) ← items? item fuel rest
        return (first :: more, rest)
      | ']' :: rest => return ([first], rest)
      | _ => none

/-- Reads a key, an equals sign and a value. -/
def keyValue? (item : Reader SettingTree) (cs : List Char) :
    Option ((List String × SettingTree) × List Char) := do
  let (key, rest) ← key? nestingLimit cs
  let (value, rest) ← item (skipBlanks (← expect? '=' rest))
  return ((key, value), rest)

/-- Reads the keys of a table on one line up to its closing brace.  The keys stand between
commas, and none follows the last one. -/
def members? (item : Reader SettingTree) (known : Entries) : Nat → Reader Entries
  | 0, _ => none
  | fuel + 1, cs => do
    let ((key, value), rest) ← keyValue? item cs
    let known ← define key value .header known
    match skipBlanks rest with
    | ',' :: rest => members? item known fuel rest
    | '\x7d' :: rest => return (known, rest)
    | _ => none

/-- Reads a value in which lists and tables are nested at most `depth` deep. -/
def value? : Nat → Reader SettingTree
  | depth + 1, '[' :: cs =>
    (items? (value? depth) (cs.length + 1) cs).map fun (items, rest) => (.list items, rest)
  | depth + 1, '\x7b' :: cs =>
    match skipBlanks cs with
    | '\x7d' :: rest => some (.empty, rest)
    | cs =>
      (members? (value? depth) [] (cs.length + 1) cs).map fun (entries, rest) =>
        (.table (treesOf entries), rest)
  | _, cs => (scalar? cs).map fun (value, rest) => (.scalar value, rest)

/-- What has been read of a file: its tables, and the path of the one that is open. -/
structure Reading where
  root : Entries
  table : List String

/-- Reads a header up to the end of its line. -/
def header? (list : Bool) (reading : Reading) (cs : List Char) :
    Option (Reading × List Char) := do
  let (path, rest) ← key? nestingLimit cs
  let rest ← expect? ']' rest
  let rest ← if list then expect? ']' rest else some rest
  let root ← atHeader (if list then openNext else openTable) path reading.root
  return (⟨root, path⟩, ← lineEnd? rest)

/-- Reads a line, or a key with a value of several lines. -/
def statement? (reading : Reading) : Reader Reading
  | '[' :: '[' :: cs => header? true reading cs
  | '[' :: cs => header? false reading cs
  | cs =>
    if cs.head? == some '#' || startsLineEnd cs then
      (lineEnd? cs).map fun rest => (reading, rest)
    else do
      let ((key, value), rest) ← keyValue? (value? nestingLimit) cs
      let root ← defineAt reading.table key value reading.root
      return ({ reading with root }, ← lineEnd? rest)

/-- Reads all statements; `fuel` exceeds their number. -/
def statements? (reading : Reading) : Nat → List Char → Option Reading
  | 0, _ => none
  | fuel + 1, cs =>
    match skipBlanks cs with
    | [] => some reading
    | cs => do
      let (reading, rest) ← statement? reading cs
      statements? reading fuel rest

/-- The settings of a file, if it can be read: its keys and their values. -/
def parse? (text : String) : Option (List (String × SettingTree)) := do
  let cs := Text.dropMark text.toList
  let reading ← statements? ⟨[], []⟩ (cs.length + 1) cs
  return treesOf reading.root

end TagTemplate.Toml
