import TagTemplate.Text.Scan

/-!
Character references in markup text and attribute values.

An ampersand starts a reference, which runs to the next semicolon and holds no
further ampersand.  It is one of five names, or a number in base ten or sixteen
that is the code of a character other than zero.
-/

namespace TagTemplate.Xml

def namedEntity? (name : List Char) : Option Char :=
  if name = "lt".toList then some '<'
  else if name = "gt".toList then some '>'
  else if name = "amp".toList then some '&'
  else if name = "quot".toList then some '"'
  else if name = "apos".toList then some '\''
  else none

/-- The value of a digit in bases up to sixteen. -/
def digitValue? (base : Nat) (c : Char) : Option Nat :=
  let value? :=
    if '0' ≤ c && c ≤ '9' then some (c.toNat - '0'.toNat)
    else if 'a' ≤ c && c ≤ 'f' then some (c.toNat - 'a'.toNat + 10)
    else if 'A' ≤ c && c ≤ 'F' then some (c.toNat - 'A'.toNat + 10)
    else none
  value?.filter (· < base)

/-- The value of a digit string that is not empty. -/
def numberValue? (base : Nat) (digits : List Char) : Option Nat :=
  if digits.isEmpty then none
  else digits.foldlM (fun n c => (digitValue? base c).map (n * base + ·)) 0

/-- The character with a code; zero and surrogates stand for none. -/
def character? (code : Nat) : Option Char :=
  if code ≠ 0 && code.isValidChar then some (Char.ofNat code) else none

/-- The character that the text between ampersand and semicolon stands for. -/
def reference? : List Char → Option Char
  | '#' :: 'x' :: digits => (numberValue? 16 digits).bind character?
  | '#' :: digits => (numberValue? 10 digits).bind character?
  | name => namedEntity? name

/-- One character of a text, or a whole reference. -/
def characterAt? : Text.Matcher Char
  | '&' :: cs =>
    match cs.span fun c => c != '&' && c != ';' with
    | (name, ';' :: _) => (reference? name).map fun c => (c, name.length + 2)
    | _ => none
  | c :: _ => some (c, 1)
  | [] => none

/-- Text with its references resolved; `none` if one of them is not valid. -/
def resolve? (text : List Char) : Option (List Char) :=
  Text.tokensFrom characterAt? 0 text

example : resolve? "a&lt;&#x41;&#66;".toList = some "a<AB".toList := by decide

example : resolve? "&#0;".toList = none := by decide

example : resolve? "a & b".toList = none := by decide

end TagTemplate.Xml
