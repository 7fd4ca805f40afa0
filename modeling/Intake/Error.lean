import Intake.Json.Fault
import Intake.Json.Value

/-!
# Errors of the operations

Three things can go wrong: a value has a kind that an operation cannot work with, an exact total
leaves the 64-bit words, and a configuration cannot be read.
-/

namespace Intake

/-- The error of an operation. -/
inductive Error where
  /-- A value is of another kind than the one expected. -/
  | typeMismatch (field expected : String) (found : Json.Kind)
  /-- An exact total is not a 64-bit word. -/
  | totalOutOfRange (total : Int)
  /-- A configuration could not be read. -/
  | invalidConfig (cause : Json.ReadError)

namespace Error

/-- The mismatch of a value that was found in a field. -/
def mismatch (field expected : String) (found : Json.Value) : Error :=
  typeMismatch field expected found.kind

/-- The words for an error. -/
def message : Error → String
  | typeMismatch field expected found =>
    s!"type mismatch for '{field}': expected {expected}, found {found.name}"
  | totalOutOfRange total =>
    s!"integer total {String.ofList (Decimal.intText total)} is outside the 64-bit range"
  | invalidConfig cause => s!"invalid analyzer configuration: {cause.message}"

end Error

end Intake
