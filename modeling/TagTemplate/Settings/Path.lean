import TagTemplate.Settings.Tree
import TagTemplate.Text.Blank
import TagTemplate.Text.Scan

/-!
Paths to settings: a name, followed by names behind points and positions in brackets.

A value is put under a path from the root of a tree.  Whatever stands in the way gives
way to a table or a list.
-/

namespace TagTemplate

inductive SettingStep where
  | name (name : String)
  /-- a position in a list; a negative one counts from the end -/
  | position (index : Int)
deriving DecidableEq, Repr

namespace SettingStep

def isNameChar (c : Char) : Bool :=
  c.isAlphanum || c == ' ' || c == '_' || c == '-'

/-- Whether a character may stand around a position. -/
def isPadding (c : Char) : Bool :=
  c == ' ' || c == '\t'

/-- A position between its brackets, which must fit 64 bits. -/
def position? (cs : List Char) : Option Int :=
  let trimmed := Text.strip isPadding cs
  let (negative, digits) := match trimmed with
    | '-' :: digits => (true, digits)
    | digits => (false, digits)
  if digits.isEmpty || !digits.all Char.isDigit then none
  else
    let magnitude : Int := Json.Numeral.digitsValue digits
    let value := if negative then -magnitude else magnitude
    if Int64.minValue.toInt ≤ value && value ≤ Int64.maxValue.toInt then some value else none

/-- The step at the start of a text. -/
def stepAt? : Text.Matcher SettingStep
  | '.' :: cs =>
    let name := cs.takeWhile isNameChar
    if name.isEmpty then none else some (.name (String.ofList name), name.length + 1)
  | '[' :: cs =>
    match cs.span (· != ']') with
    | (inside, ']' :: _) =>
      (position? inside).map fun index => (.position index, inside.length + 2)
    | _ => none
  | _ => none

def parsePath? (text : String) : Option (List SettingStep) :=
  let (first, rest) := text.toList.span isNameChar
  if first.isEmpty then none
  else (Text.tokensFrom stepAt? 0 rest).map (.name (String.ofList first) :: ·)

end SettingStep

def SettingTree.assign (tree : SettingTree) (path : List SettingStep) (value : SettingTree) :
    SettingTree :=
  match path with
  | [] => value
  | [.name name] => merge name tree value
  | .name name :: rest =>
    let key := Scalar.lower name
    let below := (Keyed.find? key tree.entries).getD .nothing
    .table (Keyed.insert key (below.assign rest value) tree.entries)
  | .position index :: rest =>
    .list (changeItem index (fun item => item.assign rest value) tree.items)

example : SettingStep.parsePath? "a.b[ -1 ].c" =
    some [.name "a", .name "b", .position (-1), .name "c"] := by decide

example : SettingStep.parsePath? "a..b" = none := by decide

end TagTemplate
