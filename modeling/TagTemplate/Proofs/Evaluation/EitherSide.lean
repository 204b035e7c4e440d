import TagTemplate.Proofs.Escaping.Inert
import TagTemplate.Proofs.Evaluation.Arity
import TagTemplate.Proofs.Lexing.Joined
import TagTemplate.Proofs.NestForest
import TagTemplate.Proofs.Placeholder.Admitted
import TagTemplate.Proofs.Stripping

/-!
One parameter from either side.

A text without braces is the same as it is written and as it is expanded, so that a tag whose
convention takes its parameter from either side is given the same call with the text in its
parameter and with the text as its body.
-/

namespace TagTemplate

open TagTemplate.Pairing (Nest)

namespace Document

section Written

open Delimiters (default single_default isParamChar_default_iff)

variable {name text : String} (given : name ≠ "") (named : ∀ c ∈ name.toList, isNameChar c = true)
  (braceless : ∀ c ∈ text.toList, c ≠ '\x7b' ∧ c ≠ '\x7d')

include given named braceless

end Written

end Document

namespace Evaluation

variable {level : Level} {document : Document} {engine : Engine}

end Evaluation

namespace Evaluation

open Engine (Effect)

section Whole

variable {document : Document} {engine : Engine} {index : Nat} {tag : Tag} {closer : Option Nat}

end Whole

section Calls

variable {α β : Type} {engine : Engine} {levels : Nat} {calls : List TagCall}

end Calls

end Evaluation

namespace Engine

open Evaluation (range underway)

end Engine

end TagTemplate
