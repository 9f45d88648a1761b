import Conform.Json.Fault
import Conform.Report

/-!
# Errors

Everything that can go wrong in a program that reads values, settings and validators and puts them
together: a value that fails validation, a text that cannot be read, a file that cannot be opened,
and settings or validators that make no sense.
-/

namespace Conform

/-- What can go wrong. -/
inductive Error where
  | validation (error : ValidationError)
  | json (error : Json.Error)
  /-- A text is not the YAML that was asked for. -/
  | yaml
  /-- A file cannot be read as text. -/
  | io (message : String)
  | configuration (fault : Misconfiguration)

namespace Error

/-- The text of an error. -/
def text : Error → String
  | validation error => error.text
  | json error => "JSON error: " ++ error.message
  | yaml => "YAML error: invalid document"
  | io message => "IO error: " ++ message
  | configuration fault => "Configuration error: " ++ fault.message

/-- The validation error that is carried, if it is one. -/
def validation? : Error → Option ValidationError
  | validation error => some error
  | _ => none

/-- What lies underneath an error in the settings, in words. -/
def source? : Error → Option String
  | configuration fault => fault.source?.map CountFault.message
  | _ => none

end Error

/-! ## Adapters -/

/-- An outcome of validation among the other errors. -/
def intoValue {α : Type} (result : Except ValidationError α) : Except Error α :=
  result.mapError .validation

/-- A failed validation raised as an exception, and the record that is logged before. -/
structure Raised where
  error : ValidationError
  record : LogRecord

/-- Treats a failed validation as fatal. -/
def orRaise {α : Type} (result : Except ValidationError α) : Except Raised α :=
  result.mapError fun error => ⟨error, ⟨.error, error.text⟩⟩

end Conform
