import TagTemplate.Data.Keyed
import TagTemplate.Json.Numeral
import TagTemplate.Settings.FloatValue

/-!
Settings before they are checked: a tree of tables and lists with scalars at its leaves.

The names of settings are kept in lower case.  Values of one type are accepted where
another one is expected, as far as their text allows it.
-/

namespace TagTemplate

inductive Scalar where
  | string (s : String)
  | integer (n : Int)
  | float (x : FloatValue)
  | bool (b : Bool)
deriving DecidableEq, Repr

namespace Scalar

/-- A scalar where a text is expected. -/
def asText : Scalar → String
  | .string s => s
  | .integer n => Json.intText n
  | .float x => x.text
  | .bool b => if b then "true" else "false"

/-- The number that a text spells in decimal digits, with an optional plus sign. -/
def numberOf? (s : String) : Option Nat :=
  let digits := match s.toList with
    | '+' :: rest => rest
    | cs => cs
  if digits.isEmpty || !digits.all Char.isDigit then none
  else
    let value := Json.Numeral.digitsValue digits
    if value < UInt64.size then some value else none

/-- The lower case of a letter, as far as it is an ASCII letter; the Kelvin sign is
the one letter beyond ASCII for which it is. -/
def lowerChar (c : Char) : Char :=
  if c == '\u212a' then 'k' else c.toLower

def lower (s : String) : String :=
  String.ofList (s.toList.map lowerChar)

/-- A scalar where a natural number is expected.  Truth values and the words for them
count as one and zero. -/
def asNat? : Scalar → Option Nat
  | .string s =>
    if ["true", "on", "yes"].contains (lower s) then some 1
    else if ["false", "off", "no"].contains (lower s) then some 0
    else numberOf? s
  | .integer n => if 0 ≤ n then some n.toNat else none
  | .float x => some x.toNat
  | .bool b => some (if b then 1 else 0)

end Scalar

inductive SettingTree where
  /-- a place that has not been filled -/
  | nothing
  | scalar (value : Scalar)
  | list (items : List SettingTree)
  | table (entries : List (String × SettingTree))
deriving Repr

namespace SettingTree

def empty : SettingTree := .table []

/-- The entries of a table; any other tree has none. -/
def entries : SettingTree → Keyed SettingTree
  | .table entries => entries
  | _ => []

/-- The items of a list; any other tree has none. -/
def items : SettingTree → List SettingTree
  | .list items => items
  | _ => []

mutual

/-- Puts a value under a name of a tree, which becomes a table if it is none.  The
entries of a table are put into the value that is there. -/
def merge (name : String) (tree : SettingTree) : SettingTree → SettingTree
  | .table entries =>
    let key := Scalar.lower name
    let below := (Keyed.find? key tree.entries).getD empty
    .table (Keyed.insert key (mergeEntries below entries) tree.entries)
  | value => .table (Keyed.insert (Scalar.lower name) value tree.entries)

/-- Puts the entries of a table into a tree. -/
def mergeEntries (tree : SettingTree) : List (String × SettingTree) → SettingTree
  | [] => tree
  | entry :: rest => mergeEntries (mergeEntry tree entry) rest

/-- Puts one entry of a table into a tree. -/
def mergeEntry (tree : SettingTree) : String × SettingTree → SettingTree
  | (name, value) => merge name tree value

end

/-- Changes the item at a position.  A list that is too short is filled up, in front
for a position that counts from the end. -/
def changeItem (position : Int) (change : SettingTree → SettingTree)
    (items : List SettingTree) : List SettingTree :=
  let front := if position < 0 then position.natAbs - items.length else 0
  let items := List.replicate front nothing ++ items
  let index := if position < 0 then items.length - position.natAbs else position.toNat
  (items ++ List.replicate (index + 1 - items.length) nothing).modify index change

/-- The parts of a record: the entries with some names, or the first items of a
list. -/
def parts? (names : List String) : SettingTree → Option (List SettingTree)
  | .table entries => names.mapM fun name => Keyed.find? name entries
  | .list items => if names.length ≤ items.length then some (items.take names.length) else none
  | _ => none

/-- A scalar where a text is expected. -/
def text? : SettingTree → Option String
  | .scalar value => some value.asText
  | _ => none

/-- A scalar where a natural number is expected. -/
def nat? : SettingTree → Option Nat
  | .scalar value => value.asNat?
  | _ => none

/-- A text where one of some words is expected, in any case.  The only name of a table
counts as well, whatever is under it. -/
def word? : SettingTree → Option String
  | .scalar (.string s) => some (Scalar.lower s)
  | .table [(name, _)] => some (Scalar.lower name)
  | _ => none

end SettingTree

end TagTemplate
