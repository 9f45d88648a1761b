import Conform.Json.Record
import Conform.Report

/-!
# Validation errors as records

The form in which validation errors are kept in files.
-/

namespace Conform.ValidationError

/-- The fields of an error. -/
def layout : Layout where
  name := "ValidationError"
  fields :=
    [("path", .text), ("message", .text), ("kind", .word (ErrorKind.all.map ErrorKind.name))]
  required := true

/-- The error a record holds, if it holds all the fields of one. -/
def ofRecord? (found : Map Entry) : Option ValidationError := do
  let path ← (found.get? "path").bind Entry.text?
  let message ← (found.get? "message").bind Entry.text?
  let kind ← ((found.get? "kind").bind Entry.text?).bind ErrorKind.ofName?
  return ⟨path, message, kind⟩

/-- The JSON tree of an error. -/
def toJson (error : ValidationError) : Json :=
  .object ⟨[("path", .string error.path), ("message", .string error.message),
    ("kind", .string error.kind.name)]⟩

/-- Reads an error from JSON text.  A record that was read has all its fields, so the last case does
not arise. -/
def parseJson (text : String) : Except Json.Error ValidationError := do
  let found ← Json.parseRecord layout text
  match ofRecord? found with
  | some error => return error
  | none => .error (.ofFault text (Json.faultAt (.shape "incomplete record") []))

end Conform.ValidationError
