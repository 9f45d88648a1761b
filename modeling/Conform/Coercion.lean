import Conform.Decimal
import Conform.Timestamp
import Conform.Value

/-!
# Scalar kinds and coercion

A kind accepts the values of its own tag unchanged.  The kinds that have a text form also accept a
string that spells one of their values out, by an exact grammar and without white space around it,
and the float kind accepts integers.  Nothing else is coerced.
-/

namespace Conform

/-- The scalar kinds a value can be asked to have. -/
inductive Kind where
  | string | integer | float | boolean | null | any | datetime
deriving DecidableEq, Repr

/-- The name of a kind in messages. -/
def Kind.name : Kind → String
  | .string => "string"
  | .integer => "integer"
  | .float => "float"
  | .boolean => "boolean"
  | .null => "null"
  | .any => "any"
  | .datetime => "datetime"

/-! ## Texts of scalars -/

/-- Reads an integer that fits 64 bits. -/
def parseInteger (text : String) : Option Int64 := (Decimal.integer? text.toList).bind Word.ofInt?

/-- Reads a decimal whose nearest float is finite. -/
def parseFloat (text : String) : Option Float := do
  let literal ← Decimal.Literal.ofChars? text.toList
  if literal.toFloat.isFinite then some literal.toFloat else none

/-- Reads a truth, in lower case. -/
def parseBoolean (text : String) : Option Bool :=
  if text = "true" then some true else if text = "false" then some false else none

/-- Reads a date and time. -/
def parseTimestamp (text : String) : Option Timestamp := Timestamp.parse? text

/-! ## Coercion -/

/-- Why a kind does not take a value. -/
inductive Misfit where
  /-- The value has a tag that the kind has no use for. -/
  | tag (actual : Tag)
  /-- The value is a string that spells out nothing of the kind. -/
  | text (input : String)

/-- Takes what a string spells out, if it spells out anything. -/
def Kind.spelt (input : String) : Option Value → Except Misfit Value
  | some value => .ok value
  | none => .error (.text input)

/-- The value of this kind that a value is or stands for. -/
def Kind.coerce : Kind → Value → Except Misfit Value
  | .any, value => .ok value
  | .string, .string text => .ok (.string text)
  | .integer, .integer number => .ok (.integer number)
  | .float, .float number => .ok (.float number)
  | .boolean, .boolean truth => .ok (.boolean truth)
  | .null, .null => .ok .null
  | .datetime, .timestamp stamp => .ok (.timestamp stamp)
  | .float, .integer number => .ok (.float (Value.widen number))
  | .integer, .string text => spelt text ((parseInteger text).map .integer)
  | .float, .string text => spelt text ((parseFloat text).map .float)
  | .boolean, .string text => spelt text ((parseBoolean text).map .boolean)
  | .datetime, .string text => spelt text ((parseTimestamp text).map .timestamp)
  | _, value => .error (.tag value.tag)

end Conform
