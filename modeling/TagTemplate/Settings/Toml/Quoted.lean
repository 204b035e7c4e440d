import TagTemplate.Json.Token

/-!
Quoted text in settings files.

Text stands in double quotes, with escapes, or in single quotes, without any.  Between
single marks it is one line; between triple marks it may hold line ends, which all
become line feeds, and the first of which is dropped if it follows the mark at once.
-/

namespace TagTemplate.Toml

/-- A reader returns what it has read at the start of a text, and the rest. -/
abbrev Reader (α : Type) := List Char → Option (α × List Char)

/-- Blanks inside a line. -/
def isInlineBlank (c : Char) : Bool :=
  c == ' ' || c == '\t'

/-- The characters of comments and text: all but the ASCII controls, tabs excepted. -/
def isPlain (c : Char) : Bool :=
  c == '\t' || (32 ≤ c.toNat && c.toNat ≠ 127)

def hexNumber? (digits : List Char) : Option Nat :=
  digits.foldlM (fun n c => (Json.Token.hexValue? c).map (n * 16 + ·)) 0

/-- The character whose code is spelled by the next `count` digits. -/
def codeChar? (count : Nat) (cs : List Char) : Option Char := do
  let digits := cs.take count
  let code ← hexNumber? digits
  if digits.length = count && code.isValidChar then some (Char.ofNat code) else none

/-- The character that an escape stands for, given what follows the backslash, and the
number of characters that follow it. -/
def escape? : Text.Matcher Char
  | 'u' :: cs => (codeChar? 4 cs).map fun c => (c, 5)
  | 'U' :: cs => (codeChar? 8 cs).map fun c => (c, 9)
  | '/' :: _ => none
  | c :: _ => (Json.Token.shortEscape? c).map fun c => (c, 1)
  | [] => none

/-- Reads a line of text up to the closing mark.  Escapes are resolved if the mark is a
double quote.  The first `skip` characters belong to an escape. -/
def line? (mark : Char) : Nat → Reader (List Char)
  | _, [] => none
  | skip + 1, _ :: cs => line? mark skip cs
  | 0, c :: cs =>
    if c == mark then some ([], cs)
    else if c == '\\' && mark == '"' then
      match escape? cs with
      | some (decoded, covered) =>
        (line? mark covered cs).map fun (text, rest) => (decoded :: text, rest)
      | none => none
    else if isPlain c then (line? mark 0 cs).map fun (text, rest) => (c :: text, rest)
    else none

/-- The number of blanks and line ends at the start of a text. -/
def gapLength : List Char → Nat
  | '\r' :: '\n' :: cs => gapLength cs + 2
  | c :: cs => if isInlineBlank c || c == '\n' then gapLength cs + 1 else 0
  | [] => 0

/-- Whether a text starts with a line end. -/
def startsLineEnd : List Char → Bool
  | '\n' :: _ => true
  | '\r' :: '\n' :: _ => true
  | _ => false

/-- A text without a line end at its start. -/
def dropLineEnd : List Char → List Char
  | '\n' :: cs => cs
  | '\r' :: '\n' :: cs => cs
  | cs => cs

/-- Reads text up to the closing triple mark.  Up to two marks in front of it belong to
the text.  A backslash at the end of a line takes all blanks and line ends behind it
out.  The first `skip` characters belong to something that has been read. -/
def block? (mark : Char) : Nat → Reader (List Char)
  | _, [] => none
  | skip + 1, _ :: cs => block? mark skip cs
  | 0, c :: cs =>
    if c == mark then
      let more := (cs.takeWhile (· == mark)).length
      if more < 2 then (block? mark 0 cs).map fun (text, rest) => (c :: text, rest)
      else
        let kept := min (more - 2) 2
        some (List.replicate kept mark, cs.drop (kept + 2))
    else if c == '\\' && mark == '"' then
      if startsLineEnd (cs.dropWhile isInlineBlank) then block? mark (gapLength cs) cs
      else
        match escape? cs with
        | some (decoded, covered) =>
          (block? mark covered cs).map fun (text, rest) => (decoded :: text, rest)
        | none => none
    else if c == '\r' && startsLineEnd cs then
      (block? mark 1 cs).map fun (text, rest) => ('\n' :: text, rest)
    else if c == '\n' || isPlain c then
      (block? mark 0 cs).map fun (text, rest) => (c :: text, rest)
    else none

def quoted? : Reader (List Char)
  | '"' :: '"' :: '"' :: cs => block? '"' 0 (dropLineEnd cs)
  | '"' :: cs => line? '"' 0 cs
  | '\'' :: '\'' :: '\'' :: cs => block? '\'' 0 (dropLineEnd cs)
  | '\'' :: cs => line? '\'' 0 cs
  | _ => none

example : quoted? "\"a\\u0042\" x".toList = some ("aB".toList, " x".toList) := by decide

example : quoted? "'''\na''b'''''".toList = some ("a''b''".toList, []) := by decide

example : quoted? "\"\"\"a\\  \n  b\"\"\"".toList = some ("ab".toList, []) := by decide

end TagTemplate.Toml
