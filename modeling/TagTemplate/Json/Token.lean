import TagTemplate.Json.Numeral
import TagTemplate.Text.Blank
import TagTemplate.Text.Scan

/-!
The tokens of the text of structured values.

The grammar is strict: four ASCII blanks between tokens, no comments, no control
characters inside strings, and no escaped surrogate that stands alone.
-/

namespace TagTemplate.Json

open TagTemplate.Text (Matcher isAsciiBlank)

/-- A token; scalars other than strings are read to their value at once. -/
inductive Token where
  | blank
  | openArray
  | closeArray
  | openObject
  | closeObject
  | comma
  | colon
  | string (s : String)
  | scalar (v : Value)
deriving Repr

namespace Token

/-- The value of a hexadecimal digit of either case. -/
def hexValue? (c : Char) : Option Nat :=
  if '0' ≤ c && c ≤ '9' then some (c.toNat - '0'.toNat)
  else if 'a' ≤ c && c ≤ 'f' then some (c.toNat - 'a'.toNat + 10)
  else if 'A' ≤ c && c ≤ 'F' then some (c.toNat - 'A'.toNat + 10)
  else none

/-- The code unit that four hexadecimal digits spell. -/
def codeUnit? (a b c d : Char) : Option Nat := do
  return ((← hexValue? a) * 16 + (← hexValue? b)) * 256 + (← hexValue? c) * 16 + (← hexValue? d)

/-- The character of an escape with one letter. -/
def shortEscape? (c : Char) : Option Char :=
  match c with
  | '"' => some '"'
  | '\\' => some '\\'
  | '/' => some '/'
  | 'b' => some (Char.ofNat 8)
  | 'f' => some (Char.ofNat 12)
  | 'n' => some '\n'
  | 'r' => some '\r'
  | 't' => some '\t'
  | _ => none

/-- One character inside quotes with the number of characters that spell it.  A
character beyond the first plane may be spelled by two escaped surrogates. -/
def stringChar? : Matcher Char
  | '\\' :: 'u' :: a :: b :: c :: d :: rest => do
    let unit ← codeUnit? a b c d
    if 0xD800 ≤ unit && unit < 0xDC00 then
      match rest with
      | '\\' :: 'u' :: a :: b :: c :: d :: _ =>
        let low ← codeUnit? a b c d
        if 0xDC00 ≤ low && low < 0xE000 then
          some (Char.ofNat (0x10000 + (unit - 0xD800) * 0x400 + (low - 0xDC00)), 12)
        else none
      | _ => none
    else if 0xDC00 ≤ unit && unit < 0xE000 then none
    else some (Char.ofNat unit, 6)
  | '\\' :: c :: _ => (shortEscape? c).map fun c => (c, 2)
  | '\\' :: [] => none
  | c :: _ => if c.toNat < 32 || c == '"' then none else some (c, 1)
  | [] => none

/-- The characters up to the closing quote, with the number of characters read,
the quote included.  The first `skip` characters belong to an escape. -/
def stringBody? : Nat → List Char → Option (List Char × Nat)
  | _, [] => none
  | skip + 1, _ :: cs => (stringBody? skip cs).map fun (text, read) => (text, read + 1)
  | 0, c :: cs =>
    if c == '"' then some ([], 1)
    else
      match stringChar? (c :: cs) with
      | some (decoded, covered) =>
        (stringBody? (covered - 1) cs).map fun (text, read) => (decoded :: text, read + 1)
      | none => none

def word? (word : String) (value : Value) (cs : List Char) : Option (Token × Nat) :=
  if word.toList.isPrefixOf cs then some (.scalar value, word.length) else none

/-- The token at the start of a text. -/
def matcher : Matcher Token
  | [] => none
  | c :: cs =>
    if isAsciiBlank c then some (.blank, 1)
    else
      match c with
      | '[' => some (.openArray, 1)
      | ']' => some (.closeArray, 1)
      | '\x7b' => some (.openObject, 1)
      | '\x7d' => some (.closeObject, 1)
      | ',' => some (.comma, 1)
      | ':' => some (.colon, 1)
      | '"' => (stringBody? 0 cs).map fun (text, read) => (.string (String.ofList text), read + 1)
      | 'n' => word? "null" .null (c :: cs)
      | 't' => word? "true" (.bool true) (c :: cs)
      | 'f' => word? "false" (.bool false) (c :: cs)
      | _ => do
        let (numeral, rest) ← Numeral.read? (c :: cs)
        let number ← numeral.number?
        return (.scalar (.number number), (c :: cs).length - rest.length)

def isBlank : Token → Bool
  | .blank => true
  | _ => false

/-- The tokens of a text without its blanks. -/
def read? (text : String) : Option (List Token) :=
  (Text.tokensFrom matcher 0 text.toList).map (·.filter fun token => !token.isBlank)

end Token

end TagTemplate.Json
