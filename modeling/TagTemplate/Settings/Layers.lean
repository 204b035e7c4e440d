import TagTemplate.Settings
import TagTemplate.Settings.Path
import TagTemplate.Settings.Toml

/-!
Settings in layers.

Layers are put over the built-in settings one after the other; a later one wins.
Overrides win over all files and texts, wherever they stand among them.
-/

namespace TagTemplate

inductive Layer where
  /-- the text of a settings file -/
  | text (content : String)
  /-- a file that must exist, with its content if it does -/
  | file (content : Option String)
  /-- a file that need not exist -/
  | optionalFile (content : Option String)
  /-- a single setting -/
  | override (key : String) (value : Scalar)
deriving DecidableEq, Repr

inductive LoadFault where
  | missingFile
  | malformedFile
  | malformedKey (key : String)
  /-- a group of settings lacks some of them -/
  | incomplete (group : String)
  /-- a setting has a value that it does not accept -/
  | invalidValue (name : String)
deriving DecidableEq, Repr

namespace Settings

/-- The name of a policy for unknown tags. -/
def unknownTagWord : UnknownTagPolicy → String
  | .abort => "abort"
  | .ignore => "ignore"
  | .keep => "keep"
  | .debug => "debug"

/-- The policy for unknown tags with a name. -/
def unknownTagOfWord? (word : String) : Option UnknownTagPolicy :=
  [UnknownTagPolicy.abort, .ignore, .keep, .debug].find? fun policy =>
    unknownTagWord policy == word

/-- The name of a policy for dangling close tags. -/
def danglingWord : DanglingPolicy → String
  | .keep => "keep"
  | .drop => "drop"

/-- The policy for dangling close tags with a name. -/
def danglingOfWord? (word : String) : Option DanglingPolicy :=
  [DanglingPolicy.keep, .drop].find? fun policy => danglingWord policy == word

/-- The leaves of settings with their paths. -/
def leaves (s : Settings) : List (List String × Scalar) :=
  [(["delimiters", "prefix"], .string s.delimiters.opener),
    (["delimiters", "separator"], .string s.delimiters.separator),
    (["delimiters", "suffix"], .string s.delimiters.closer),
    (["delimiters", "escaped", "prefix"], .string s.delimiters.escaped.opener),
    (["delimiters", "escaped", "separator"], .string s.delimiters.escaped.separator),
    (["delimiters", "escaped", "suffix"], .string s.delimiters.escaped.closer),
    (["engine", "unknown_tag"], .string (unknownTagWord s.unknownTag)),
    (["engine", "dangling_end"], .string (danglingWord s.danglingEnd)),
    (["engine", "max_depth"], .integer s.maxDepth),
    (["shapes", "list_delimiter"], .string s.shapes.listDelimiter),
    (["shapes", "kv_separator"], .string s.shapes.keyValueSeparator),
    (["placeholders", "prefix"], .string s.placeholders.opener),
    (["placeholders", "suffix"], .string s.placeholders.closer)]

def toTree (s : Settings) : SettingTree :=
  s.leaves.foldl (fun tree (path, value) => tree.assign (path.map .name) (.scalar value)) .empty

def parts (group : String) (names : List String) (tree : SettingTree) :
    Except LoadFault (List SettingTree) :=
  match tree.parts? names with
  | some parts => .ok parts
  | none => .error (.incomplete group)

def read {α : Type} (of? : SettingTree → Option α) (name : String) (tree : SettingTree) :
    Except LoadFault α :=
  match of? tree with
  | some value => .ok value
  | none => .error (.invalidValue name)

/-- Reads the texts of a group of settings. -/
def texts (group : String) (names : List String) (tree : SettingTree) :
    Except LoadFault (List String) := do
  (← parts group names tree).mapM (read SettingTree.text? group)

/-- The delimiters of escaped tags in a tree. -/
def escapedDelimiters (tree : SettingTree) : Except LoadFault EscapedDelimiters := do
  match ← texts "delimiters.escaped" ["prefix", "separator", "suffix"] tree with
  | [opener, separator, closer] => return ⟨opener, separator, closer⟩
  | _ => throw (.incomplete "delimiters.escaped")

def delimitersOf (tree : SettingTree) : Except LoadFault Delimiters := do
  match ← parts "delimiters" ["prefix", "separator", "suffix", "escaped"] tree with
  | [opener, separator, closer, escaped] =>
    return {
      opener := ← read SettingTree.text? "prefix" opener
      separator := ← read SettingTree.text? "separator" separator
      closer := ← read SettingTree.text? "suffix" closer
      escaped := ← escapedDelimiters escaped }
  | _ => throw (.incomplete "delimiters")

def shapesOf (tree : SettingTree) : Except LoadFault ShapeSyntax := do
  match ← texts "shapes" ["list_delimiter", "kv_separator"] tree with
  | [listDelimiter, keyValueSeparator] => return { listDelimiter, keyValueSeparator }
  | _ => throw (.incomplete "shapes")

def placeholdersOf (tree : SettingTree) : Except LoadFault PlaceholderSyntax := do
  match ← texts "placeholders" ["prefix", "suffix"] tree with
  | [opener, closer] => return { opener, closer }
  | _ => throw (.incomplete "placeholders")

/-- The settings of a tree.  Entries that are no settings are ignored. -/
def ofTree (tree : SettingTree) : Except LoadFault Settings := do
  match ← parts "settings" ["delimiters", "engine", "shapes", "placeholders"] tree with
  | [delimiters, engine, shapes, placeholders] =>
    match ← parts "engine" ["unknown_tag", "dangling_end", "max_depth"] engine with
    | [unknownTag, danglingEnd, maxDepth] =>
      return {
        delimiters := ← delimitersOf delimiters
        unknownTag := ← read (·.word?.bind unknownTagOfWord?) "unknown_tag" unknownTag
        danglingEnd := ← read (·.word?.bind danglingOfWord?) "dangling_end" danglingEnd
        maxDepth := ← read SettingTree.nat? "max_depth" maxDepth
        shapes := ← shapesOf shapes
        placeholders := ← placeholdersOf placeholders }
    | _ => throw (.incomplete "engine")
  | _ => throw (.incomplete "settings")

/-- Puts a file over a tree.  The names at its root may be paths. -/
def overlayText (base : SettingTree) (content : String) : Except LoadFault SettingTree :=
  match Toml.parse? content with
  | some entries =>
    .ok <| entries.foldl (fun tree (name, value) =>
      tree.assign ((SettingStep.parsePath? name).getD [.name name]) value) base
  | none => .error .malformedFile

/-- Puts a layer that is no override over a tree. -/
def overlayLayer (base : SettingTree) : Layer → Except LoadFault SettingTree
  | .text content => overlayText base content
  | .file (some content) => overlayText base content
  | .file none => .error .missingFile
  | .optionalFile (some content) => overlayText base content
  | .optionalFile none => .ok base
  | .override _ _ => .ok base

/-- Puts a layer over a tree if it is an override. -/
def applyOverride (base : SettingTree) : Layer → Except LoadFault SettingTree
  | .override key value =>
    match SettingStep.parsePath? key with
    | some path => .ok (base.assign path (.scalar value))
    | none => .error (.malformedKey key)
  | _ => .ok base

def load (layers : List Layer) : Except LoadFault Settings := do
  let tree ← layers.foldlM overlayLayer default.toTree
  ofTree (← layers.foldlM applyOverride tree)

end Settings

end TagTemplate
