import Conform.Json
import Conform.Json.Tree
import Conform.Value

/-!
# Values and JSON

A value leaves as a JSON tree or directly as text, and a JSON tree comes in as a value.  On the way
out a timestamp becomes its text and a float that is no finite number becomes null; on the way in an
integer beyond 64 bits becomes a float.  Nothing else changes: integers stay integers, floats stay
floats, and items and keys keep their order.
-/

namespace Conform.Value

/-! ## Out -/

mutual

/-- The JSON tree of a value. -/
def toJson : Value → Json
  | string text => .string text
  | integer number => .integer number.toInt
  | float number => if number.isFinite then .float number else .null
  | boolean truth => .boolean truth
  | null => .null
  | sequence items => .array (toJsonItems items)
  | mapping ⟨entries⟩ => .object ⟨toJsonEntries entries⟩
  | timestamp stamp => .string stamp.text

/-- The JSON trees of items. -/
def toJsonItems : List Value → List Json
  | [] => []
  | item :: items => item.toJson :: toJsonItems items

/-- The JSON trees under keys. -/
def toJsonEntries : List (String × Value) → List (String × Json)
  | [] => []
  | (key, value) :: entries => (key, value.toJson) :: toJsonEntries entries

end

mutual

/-- Writes the compact JSON text of a value in front of a text that is to follow. -/
def write : Value → List Char → List Char
  | string text, tail => Json.writeString text tail
  | integer number, tail => Json.writeInteger number.toInt tail
  | float number, tail => Json.writeFloat number tail
  | boolean truth, tail => Json.writeBoolean truth tail
  | null, tail => Json.writeNull tail
  | sequence [], tail => '[' :: ']' :: tail
  | sequence (item :: items), tail => '[' :: item.write (writeItems items tail)
  | mapping ⟨[]⟩, tail => '{' :: '}' :: tail
  | mapping ⟨(key, value) :: entries⟩, tail =>
    '{' :: Json.writeString key (':' :: value.write (writeEntries entries tail))
  | timestamp stamp, tail => Json.writeString stamp.text tail

/-- Writes further items, each after a comma, and the bracket that closes them. -/
def writeItems : List Value → List Char → List Char
  | [], tail => ']' :: tail
  | item :: items, tail => ',' :: item.write (writeItems items tail)

/-- Writes further entries, each after a comma, and the brace that closes them. -/
def writeEntries : List (String × Value) → List Char → List Char
  | [], tail => '}' :: tail
  | (key, value) :: entries, tail =>
    ',' :: Json.writeString key (':' :: value.write (writeEntries entries tail))

end

/-- The compact JSON text of a value. -/
def text (value : Value) : String := String.ofList (value.write [])

/-! ## In -/

/-- An integer as a value: a float when it does not fit 64 bits. -/
def ofInteger (number : Int) : Value :=
  match Word.ofInt? number with
  | some word => .integer word
  | none => .float (Float.ofInt number)

mutual

/-- The value a JSON tree stands for. -/
def ofJson : Json → Value
  | .null => null
  | .boolean truth => boolean truth
  | .integer number => ofInteger number
  | .float number => float number
  | .string text => string text
  | .array items => sequence (ofJsonItems items)
  | .object ⟨members⟩ => mapping ⟨ofJsonMembers members⟩

/-- The values of items. -/
def ofJsonItems : List Json → List Value
  | [] => []
  | item :: items => ofJson item :: ofJsonItems items

/-- The values under keys. -/
def ofJsonMembers : List (String × Json) → List (String × Value)
  | [] => []
  | (key, json) :: members => (key, ofJson json) :: ofJsonMembers members

end

/-- Reads the value that a JSON text describes. -/
def parseJson (text : String) : Except Json.Error Value := (Json.parse text).map ofJson

end Conform.Value
