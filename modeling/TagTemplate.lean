import TagTemplate.Script
import TagTemplate.Settings.Layers
import TagTemplate.Proofs.Pairing.Machine
import TagTemplate.Proofs.Pairing.Nesting
import TagTemplate.Proofs.Pairing.SecondPass
import TagTemplate.Proofs.Pairing.Refinement
import TagTemplate.Proofs.Lexing.Scanned
import TagTemplate.Proofs.Lexing.TagMatch
import TagTemplate.Proofs.Lexing.Tokens
import TagTemplate.Proofs.Lexing.Lossless
import TagTemplate.Proofs.Pairing.Body
import TagTemplate.Proofs.RawBody
import TagTemplate.Proofs.CallStack.Places
import TagTemplate.Proofs.Evaluation.Effect
import TagTemplate.Proofs.Evaluation.Balance
import TagTemplate.Proofs.Evaluation.Quiet
import TagTemplate.Proofs.Evaluation.PostOrder
import TagTemplate.Proofs.Evaluation.Deferral
import TagTemplate.Proofs.Evaluation.Alike
import TagTemplate.Proofs.Evaluation.LateExpansion
import TagTemplate.Proofs.Evaluation.KeptText
import TagTemplate.Proofs.Evaluation.Echo
import TagTemplate.Proofs.Escaping.RoundTrip
import TagTemplate.Proofs.Escaping.Inert
import TagTemplate.Proofs.Pairing.WellNested
import TagTemplate.Proofs.Evaluation.Invocation
import TagTemplate.Proofs.Evaluation.Moments
import TagTemplate.Proofs.Evaluation.Enclosing
import TagTemplate.Proofs.Evaluation.Attribution
import TagTemplate.Proofs.Evaluation.Conventions
import TagTemplate.Proofs.Evaluation.Recurrence
import TagTemplate.Proofs.Variables.Refusal
import TagTemplate.Proofs.Variables.Setting
import TagTemplate.Proofs.Lexing.Printed
import TagTemplate.Proofs.Registry.Autoload
import TagTemplate.Proofs.Registry.Precedence
import TagTemplate.Proofs.Registry.Invariant
import TagTemplate.Proofs.CoreTags.Quoting
import TagTemplate.Proofs.CoreTags.VarTags
import TagTemplate.Proofs.Evaluation.Placeholders
import TagTemplate.Proofs.Evaluation.HandlerErrors
import TagTemplate.Proofs.Variables.Placeholders
import TagTemplate.Proofs.Xml.RoundTrip
import TagTemplate.Proofs.Pairing.Diagnosis
import TagTemplate.Proofs.Evaluation.Arity
import TagTemplate.Proofs.Evaluation.Positions
import TagTemplate.Proofs.Evaluation.RawBodies
import TagTemplate.Proofs.Lexing.Occurrence
import TagTemplate.Proofs.Variables.Removal
import TagTemplate.Proofs.Cutting
import TagTemplate.Proofs.Registry.Installation
import TagTemplate.Proofs.Registry.Reach
import TagTemplate.Proofs.Convention.FlagSets
import TagTemplate.Proofs.Shape.KeyValues
import TagTemplate.Proofs.Shape.Lists
import TagTemplate.Proofs.Placeholder.Filling
import TagTemplate.Proofs.Placeholder.Removal
import TagTemplate.Proofs.Evaluation.EitherSide
import TagTemplate.Proofs.Evaluation.LoadedDocument
import TagTemplate.Proofs.CallStack.Scoping
import TagTemplate.Proofs.QueueHistory
import TagTemplate.Proofs.Excerpts
