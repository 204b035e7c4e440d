/-!
White space in template text.

The class is the Unicode property `White_Space`.  It is wider than the ASCII
blanks, and it leaves out the zero width space and the byte order mark.
Trimming and blankness are stated on characters and lifted to strings.
-/

namespace TagTemplate.Text

/-- The 25 code points with the Unicode property `White_Space`. -/
def isBlank (c : Char) : Bool :=
  let n := c.toNat
  (0x09 ≤ n && n ≤ 0x0D) || n == 0x20 || n == 0x85 || n == 0xA0 || n == 0x1680 ||
    (0x2000 ≤ n && n ≤ 0x200A) || n == 0x2028 || n == 0x2029 || n == 0x202F ||
    n == 0x205F || n == 0x3000

/-- The four blanks of ASCII markup: space, tab, line feed and carriage return. -/
def isAsciiBlank (c : Char) : Bool :=
  c == ' ' || c == '\t' || c == '\n' || c == '\r'

/-- Removes the characters of one class from both ends. -/
def strip (p : Char → Bool) (cs : List Char) : List Char :=
  ((cs.dropWhile p).reverse.dropWhile p).reverse

/-- Text without the white space at its two ends. -/
def trim (s : String) : String :=
  String.ofList (strip isBlank s.toList)

/-- A byte order mark at the start of a text is no part of it. -/
def dropMark : List Char → List Char
  | '\ufeff' :: cs => cs
  | cs => cs

/-- Whether a text is empty or holds white space only. -/
def allBlank (s : String) : Bool :=
  s.toList.all isBlank

example : trim "\u00a0 a b \u3000" = "a b" := by decide

example : trim "\u200b" = "\u200b" := by decide

end TagTemplate.Text
