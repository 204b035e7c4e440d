/-!
Scanning text for matches.

A matcher looks at the text that follows one position.  `scan` tries it at every
position from left to right and continues behind each match, so that matches
are leftmost and do not overlap.  All searches of the library are such scans:
tags, escaped tags, placeholders, and the tokens of structured bodies.
-/

namespace TagTemplate.Text

/-- What a matcher finds at the start of a text, with the number of characters
it covers. -/
abbrev Matcher (α : Type) := List Char → Option (α × Nat)

/-- One step of a scan: a character that starts no match, or a match. -/
inductive Piece (α : Type) where
  | char (c : Char)
  | found (a : α)
deriving DecidableEq, Repr

/-- Scans a text whose first `skip` characters are covered by an earlier match. -/
def scanFrom {α : Type} (matcher : Matcher α) : Nat → List Char → List (Piece α)
  | _, [] => []
  | skip + 1, _ :: cs => scanFrom matcher skip cs
  | 0, c :: cs =>
    match matcher (c :: cs) with
    | some (a, covered) => .found a :: scanFrom matcher (covered - 1) cs
    | none => .char c :: scanFrom matcher 0 cs

/-- The leftmost matches of a text that do not overlap, and the characters
between them. -/
def scan {α : Type} (matcher : Matcher α) (text : List Char) : List (Piece α) :=
  scanFrom matcher 0 text

namespace Piece

def match? {α : Type} : Piece α → Option α
  | .char _ => none
  | .found a => some a

/-- Gathers the characters between matches: the text before the first match,
then every match with the text that follows it. -/
def gather {α : Type} : List (Piece α) → List Char × List (α × List Char)
  | [] => ([], [])
  | .char c :: pieces =>
    let (text, rest) := gather pieces
    (c :: text, rest)
  | .found a :: pieces =>
    let (text, rest) := gather pieces
    ([], (a, text) :: rest)

/-- Writes the pieces back, with `write` choosing the text of a match. -/
def render {α : Type} (write : α → List Char) (pieces : List (Piece α)) : List Char :=
  pieces.flatMap fun
    | .char c => [c]
    | .found a => write a

end Piece

def matchesOf {α : Type} (matcher : Matcher α) (text : List Char) : List α :=
  (scan matcher text).filterMap Piece.match?

/-- Reads the longest run of characters of one class after which `next` succeeds.
Shorter runs are tried when a longer one leaves a text that `next` refuses. -/
def longestRun {β : Type} (p : Char → Bool) (next : List Char → Option β) :
    List Char → Option (List Char × β)
  | [] => (next []).map fun b => ([], b)
  | c :: cs =>
    match if p c then longestRun p next cs else none with
    | some (run, b) => some (c :: run, b)
    | none => (next (c :: cs)).map fun b => ([], b)

/-- Splits a text into tokens without a gap; `none` if some position starts none.
The first `skip` characters belong to a token that has been read already. -/
def tokensFrom {α : Type} (matcher : Matcher α) : Nat → List Char → Option (List α)
  | _, [] => some []
  | skip + 1, _ :: cs => tokensFrom matcher skip cs
  | 0, c :: cs =>
    match matcher (c :: cs) with
    | some (a, covered) => (tokensFrom matcher (covered - 1) cs).map (a :: ·)
    | none => none

theorem scan_nil {α : Type} (matcher : Matcher α) : scan matcher [] = [] := rfl

theorem scanFrom_drop {α : Type} (matcher : Matcher α) (skip : Nat) (text : List Char) :
    scanFrom matcher skip text = scanFrom matcher 0 (text.drop skip) := by
  induction text generalizing skip with
  | nil => cases skip <;> rfl
  | cons c cs ih =>
      cases skip with
      | zero => rfl
      | succ skip => exact ih skip

example :
    longestRun Char.isAlpha (fun rest => rest.head?.filter (· == 'b')) "aabb".toList =
      some ("aab".toList, 'b') := by decide

end TagTemplate.Text
