import Conform.Decimal
import Conform.Map

/-!
# JSON trees

The data of a JSON text: what its grammar can say and nothing else.  Numbers come in two sorts,
integers, which are exact, and floats, which are finite in every tree that was read.

A tree is written here as compact text; reading has modules of its own.
-/

namespace Conform

/-- A JSON tree. -/
inductive Json where
  | null
  | boolean (truth : Bool)
  | integer (number : Int)
  | float (number : Float)
  | string (text : String)
  | array (items : List Json)
  | object (members : Map Json)

instance : Inhabited Json := ⟨.null⟩

end Conform

/-! ## Compact text

Every writer here takes the text that is to follow and puts its own in front of it, so that nothing
is copied twice and the text around a value plays no part in it. -/

namespace Conform.Json

open Decimal

/-- Four hexadecimal digits of a small code point. -/
def hexadecimal (n : Nat) : List Char :=
  let digits := Nat.toDigits 16 n
  List.replicate (4 - digits.length) '0' ++ digits

/-- A character as it stands in a string: quotes, backslashes and control characters are escaped
and all else is itself. -/
def escape (c : Char) : List Char :=
  if c = '"' then ['\\', '"']
  else if c = '\\' then ['\\', '\\']
  else if c = '\x08' then ['\\', 'b']
  else if c = '\x0c' then ['\\', 'f']
  else if c = '\n' then ['\\', 'n']
  else if c = '\r' then ['\\', 'r']
  else if c = '\t' then ['\\', 't']
  else if c.toNat < 0x20 then '\\' :: 'u' :: hexadecimal c.toNat
  else [c]

/-- Writes characters and the quote that closes them. -/
def writeChars : List Char → List Char → List Char
  | [], tail => '"' :: tail
  | c :: text, tail => escape c ++ writeChars text tail

/-- Writes a string. -/
def writeString (text : String) (tail : List Char) : List Char := '"' :: writeChars text.toList tail

/-- Writes an integer. -/
def writeInteger (number : Int) (tail : List Char) : List Char :=
  (if number < 0 then ['-'] else []) ++ Nat.toDigits 10 number.natAbs ++ tail

/-- Floats are positional from a hundred-thousandth up to below ten to the sixteenth. -/
def floatLayout : Layout := ⟨-5, 15⟩

/-- Writes the null. -/
def writeNull (tail : List Char) : List Char := 'n' :: 'u' :: 'l' :: 'l' :: tail

/-- Writes a truth. -/
def writeBoolean : Bool → List Char → List Char
  | true, tail => 't' :: 'r' :: 'u' :: 'e' :: tail
  | false, tail => 'f' :: 'a' :: 'l' :: 's' :: 'e' :: tail

/-- Writes a float in its fewest digits; one that is no finite number is written as null. -/
def writeFloat (number : Float) (tail : List Char) : List Char :=
  match floatLayout.float? number with
  | some text => text ++ tail
  | none => writeNull tail

mutual

/-- Writes a tree without white space, the members of an object in their order. -/
def write : Json → List Char → List Char
  | null, tail => writeNull tail
  | boolean truth, tail => writeBoolean truth tail
  | integer number, tail => writeInteger number tail
  | float number, tail => writeFloat number tail
  | string text, tail => writeString text tail
  | array [], tail => '[' :: ']' :: tail
  | array (item :: items), tail => '[' :: write item (writeItems items tail)
  | object ⟨[]⟩, tail => '{' :: '}' :: tail
  | object ⟨(key, value) :: members⟩, tail =>
    '{' :: writeString key (':' :: write value (writeMembers members tail))

/-- Writes further items, each after a comma, and the bracket that closes them. -/
def writeItems : List Json → List Char → List Char
  | [], tail => ']' :: tail
  | item :: items, tail => ',' :: write item (writeItems items tail)

/-- Writes further members, each after a comma, and the brace that closes them. -/
def writeMembers : List (String × Json) → List Char → List Char
  | [], tail => '}' :: tail
  | (key, value) :: members, tail =>
    ',' :: writeString key (':' :: write value (writeMembers members tail))

end

/-- The compact text of a tree. -/
def text (json : Json) : String := String.ofList (json.write [])

end Conform.Json
