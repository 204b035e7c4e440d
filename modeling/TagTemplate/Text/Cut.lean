/-!
Cutting text at a separator.

A separator is searched from the left and its occurrences do not overlap.  The
empty separator occurs before every character and at the end, so that cutting
at it isolates every character between two empty pieces.
-/

namespace TagTemplate.Text

/-- The text before and after the first occurrence of `separator`. -/
def cutOnce (separator : List Char) : List Char → Option (List Char × List Char)
  | [] => (separator.isPrefixOf? []).map fun rest => ([], rest)
  | c :: cs =>
    match separator.isPrefixOf? (c :: cs) with
    | some rest => some ([], rest)
    | none => (cutOnce separator cs).map fun (before, after) => (c :: before, after)

/-- Adds a character in front of the first piece. -/
def consFirst (c : Char) : List (List Char) → List (List Char)
  | [] => [[c]]
  | piece :: pieces => (c :: piece) :: pieces

/-- The pieces of a text whose first `skip` characters belong to a separator
that has been cut already.  Used with separators that are not empty. -/
def piecesFrom (separator : List Char) : Nat → List Char → List (List Char)
  | _, [] => [[]]
  | skip + 1, _ :: cs => piecesFrom separator skip cs
  | 0, c :: cs =>
    if separator.isPrefixOf (c :: cs) then
      [] :: piecesFrom separator (separator.length - 1) cs
    else
      consFirst c (piecesFrom separator 0 cs)

/-- All pieces between the occurrences of `separator`; there is always at least
one. -/
def pieces (separator text : List Char) : List (List Char) :=
  if separator.isEmpty then
    [] :: (text.map fun c => [c]) ++ [[]]
  else
    piecesFrom separator 0 text

def occurs (pattern text : List Char) : Bool :=
  (cutOnce pattern text).isSome

def split (separator text : String) : List String :=
  (pieces separator.toList text.toList).map String.ofList

/-- The string before and after the first occurrence of `separator`. -/
def splitOnce (separator text : String) : Option (String × String) :=
  (cutOnce separator.toList text.toList).map fun (before, after) =>
    (String.ofList before, String.ofList after)

def replace (pattern replacement : String) (text : String) : String :=
  replacement.intercalate (split pattern text)

example : split "," "a,,b" = ["a", "", "b"] := by decide

example : split "aa" "aaab" = ["", "ab"] := by decide

example : split "" "ab" = ["", "a", "b", ""] := by decide

example : splitOnce "" "ab" = some ("", "ab") := by decide

example : replace ":" "::" "a:b:" = "a::b::" := by decide

end TagTemplate.Text
