import TagTemplate.Placeholder
import TagTemplate.Shape

/-!
The settings of an engine.
-/

namespace TagTemplate

/-- What becomes of a tag that no binding handles. -/
inductive UnknownTagPolicy where
  /-- the expansion fails -/
  | abort
  /-- nothing is written -/
  | ignore
  /-- the tag and its raw body are written unchanged -/
  | keep
  /-- a visible marker is written around the raw body -/
  | debug
deriving DecidableEq, Repr

/-- What becomes of a close tag without an open tag. -/
inductive DanglingPolicy where
  /-- the close tag is written unchanged -/
  | keep
  /-- nothing is written -/
  | drop
deriving DecidableEq, Repr

structure Settings where
  delimiters : Delimiters := .default
  unknownTag : UnknownTagPolicy := .abort
  danglingEnd : DanglingPolicy := .keep
  /-- how many levels of expansion may be open at once -/
  maxDepth : Nat := 64
  shapes : ShapeSyntax := .default
  placeholders : PlaceholderSyntax := .default
deriving DecidableEq, Repr

namespace Settings

def default : Settings := {}

instance : Inhabited Settings := ⟨default⟩

/-- Refuses settings that an engine cannot work with. -/
def validate (settings : Settings) : Except TemplateError Unit := do
  if settings.maxDepth = 0 then
    throw (.config "max_depth must be at least 1")
  settings.delimiters.validate
  settings.placeholders.validate

end Settings

end TagTemplate
