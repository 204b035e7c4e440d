import TagTemplate.Settings.Tree

/-!
The tables of a settings file while it is read.

A table comes to be by its own header, on the way to a header further down, or by a
dotted key.  It gets one header at most, and dotted keys neither reach into a table with
a header nor add to one that other headers have brought about.
-/

namespace TagTemplate.Toml

/-- How a table has come to be. -/
inductive Opening where
  | header
  | implied
  | dotted
deriving DecidableEq, Repr

inductive Entry where
  | value (tree : SettingTree)
  | table (opening : Opening) (entries : List (String × Entry))
  /-- a list of tables, the last of which is open -/
  | tables (earlier : List SettingTree) (last : List (String × Entry))

abbrev Entries := Keyed Entry

mutual

def Entry.toTree : Entry → SettingTree
  | .value tree => tree
  | .table _ entries => .table (treesOf entries)
  | .tables earlier last => .list (earlier ++ [.table (treesOf last)])

def treesOf : List (String × Entry) → List (String × SettingTree)
  | [] => []
  | entry :: rest => treeOf entry :: treesOf rest

def treeOf : String × Entry → String × SettingTree
  | (name, entry) => (name, entry.toTree)

end

/-- Changes the table at a path.  Tables that do not exist are created: as dotted ones
for a dotted key, and else as implied ones. -/
def within (dotted : Bool) (change : Opening → Entries → Option Entries) :
    Opening → List String → Entries → Option Entries
  | opening, [], entries => change opening entries
  | _, name :: rest, entries =>
    match Keyed.find? name entries with
    | none =>
      let opening := if dotted then .dotted else .implied
      (within dotted change opening rest []).map fun inner =>
        Keyed.insert name (.table opening inner) entries
    | some (.table opening inner) =>
      if dotted && opening = .header then none
      else
        (within dotted change opening rest inner).map fun inner =>
          Keyed.insert name (.table opening inner) entries
    | some (.tables earlier last) =>
      (within dotted change .header rest last).map fun last =>
        Keyed.insert name (.tables earlier last) entries
    | some (.value _) => none

/-- Gives the table under a name its header. -/
def openTable (name : String) (entries : Entries) : Option Entries :=
  match Keyed.find? name entries with
  | none => some (Keyed.insert name (.table .header []) entries)
  | some (.table .implied inner) => some (Keyed.insert name (.table .header inner) entries)
  | _ => none

/-- Opens the next table of the list under a name. -/
def openNext (name : String) (entries : Entries) : Option Entries :=
  match Keyed.find? name entries with
  | none => some (Keyed.insert name (.tables [] []) entries)
  | some (.tables earlier last) =>
    some (Keyed.insert name (.tables (earlier ++ [.table (treesOf last)]) []) entries)
  | _ => none

/-- Carries out a change under the last name of a path that leads from the root. -/
def atHeader (change : String → Entries → Option Entries) (path : List String)
    (root : Entries) : Option Entries := do
  let name ← path.getLast?
  within false (fun _ => change name) .header path.dropLast root

/-- Gives a dotted key its value, in a table with the given opening.  A key has one value
only. -/
def define (key : List String) (value : SettingTree) (opening : Opening) (entries : Entries) :
    Option Entries := do
  let name ← key.getLast?
  let path := key.dropLast
  let put (opening : Opening) (entries : Entries) : Option Entries :=
    if (!path.isEmpty && opening ≠ .dotted) || Keyed.contains name entries then none
    else some (Keyed.insert name (.value value) entries)
  within true put opening path entries

/-- Gives a dotted key its value in the table at a path. -/
def defineAt (table key : List String) (value : SettingTree) (root : Entries) : Option Entries :=
  within false (define key value) .header table root

end TagTemplate.Toml
