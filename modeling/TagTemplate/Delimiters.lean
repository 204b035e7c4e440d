import TagTemplate.Error

/-!
The delimiters of tags, and their escaped forms.

A tag is written `opener name separator param closer`.  The escaped delimiters
spell the same tag in a way that the lexer does not recognise.
-/

namespace TagTemplate

structure EscapedDelimiters where
  opener : String
  separator : String
  closer : String
deriving DecidableEq, Repr

structure Delimiters where
  opener : String
  separator : String
  closer : String
  escaped : EscapedDelimiters
deriving DecidableEq, Repr

namespace Delimiters

/-- Braces and a colon, escaped as numeric character references. -/
def default : Delimiters :=
  ⟨"\x7b", ":", "\x7d", ⟨"&#123;", "&#58;", "&#125;"⟩⟩

instance : Inhabited Delimiters := ⟨default⟩

def wrap (d : Delimiters) (name param : String) : String :=
  d.opener ++ name ++ d.separator ++ param ++ d.closer

/-- The six delimiters with the names that messages use, in the order in which they
are checked. -/
def labelled (d : Delimiters) : List (String × String) :=
  [("prefix", d.opener), ("separator", d.separator), ("suffix", d.closer),
    ("escaped prefix", d.escaped.opener), ("escaped separator", d.escaped.separator),
    ("escaped suffix", d.escaped.closer)]

/-- Refuses empty delimiters, and a separator that is also an opener or a closer. -/
def validate (d : Delimiters) : Except TemplateError Unit :=
  match d.labelled.find? fun (_, value) => value.isEmpty with
  | some (label, _) => .error (.config (label ++ " must not be empty"))
  | none =>
    if d.opener = d.separator ∨ d.closer = d.separator then
      .error (.config "prefix and suffix must differ from the separator")
    else .ok ()

example : default.wrap "a" "b" = "\x7ba:b\x7d" := by decide

end Delimiters

/-- The characters of tag names: ASCII letters and digits, underscore, point and
hyphen. -/
def isNameChar (c : Char) : Bool :=
  c.isAlphanum || c == '_' || c == '.' || c == '-'

end TagTemplate
