import Conform.Json.Skip
import Conform.Record

/-!
# Reading a record from JSON

A record stands in a JSON text as an object of its fields, in any order and among others that are
passed over, or as an array of them in the order of the layout.  A text that is JSON of another
shape is refused with what was found and what was expected.
-/

namespace Conform.Json

open Decimal

/-! ## Faults of shape -/

/-- A number as it is named in a message. -/
def describeNumber : Json → String
  | .float number =>
    "floating point `" ++ String.ofList ((floatLayout.float? number).getD []) ++ "`"
  | .integer number => "integer `" ++ toString number ++ "`"
  | _ => "number"

/-- The fault of a value of one type where another was expected. -/
def invalidType (found expected : String) (rest : List Char) : Fault :=
  faultAt (.shape ("invalid type: " ++ found ++ ", expected " ++ expected)) rest

/-- The fault of a value that cannot be what was expected; the value is read as far as is needed to
name it. -/
def unexpected (expected : String) (first : Char) (rest : List Char) : Fault :=
  let found {α : Type} (name : α → String) : Except Fault (Read α (first :: rest)) → Fault
    | .error fault => fault
    | .ok read => invalidType (name read.value) expected read.rest
  if first = 'n' then found (fun _ => "null") (word () ['u', 'l', 'l'] first rest)
  else if first = 't' then found (fun _ => "boolean `true`") (word () ['r', 'u', 'e'] first rest)
  else if first = 'f' then
    found (fun _ => "boolean `false`") (word () ['a', 'l', 's', 'e'] first rest)
  else if first = '-' ∨ first.isDigit then found describeNumber (number first rest)
  else if first = '"' then
    found (fun text => "string " ++ Text.quoted text)
      ((stringText rest).map (·.after first))
  else if first = '[' then invalidType "sequence" expected (first :: rest)
  else if first = '{' then invalidType "map" expected (first :: rest)
  else faultOn .valueExpected (first :: rest)

/-! ## Fields -/

/-- Reads a string; `expected` says what it is wanted for. -/
def expectString (expected : String) : Reader String := fun text =>
  match h : skipSpace text with
  | [] => .error (faultAt .endInValue [])
  | first :: rest =>
    if first = '"' then (stringText rest).map (·.within (le_of_skipSpace h))
    else .error (unexpected expected first rest)

/-- Reads a count. -/
def expectCount : Reader Nat := fun text =>
  match h : skipSpace text with
  | [] => .error (faultAt .endInValue [])
  | first :: rest =>
    if first = '-' ∨ first.isDigit then
      match number first rest with
      | .error fault => .error fault
      | .ok read =>
        match read.value with
        | .integer (.ofNat count) => .ok ((read.map fun _ => count).within (lt_of_skipSpace h))
        | .integer other =>
          .error (faultAt (.shape ("invalid value: " ++ describeNumber (.integer other) ++
            ", expected usize")) read.rest)
        | other => .error (invalidType (describeNumber other) "usize" read.rest)
    else .error (unexpected "usize" first rest)

/-- The words one may choose from, as they are listed in a message. -/
def listed (options : List String) : String :=
  let quoted := options.map fun option => "`" ++ option ++ "`"
  match quoted with
  | [one, other] => one ++ " or " ++ other
  | many => "one of " ++ ", ".intercalate many

/-- Reads a string that is one of some words. -/
def expectWord (options : List String) (expected : String) : Reader String := fun text => do
  let read ← expectString expected text
  if options.contains read.value then return read
  else .error (faultAt (.shape ("unknown variant `" ++ read.value ++ "`, expected " ++
    listed options)) read.rest)

/-- Reads a null. -/
def expectNull : Reader Unit := fun text =>
  match h : skipSpace text with
  | [] => .error (faultAt .endInValue [])
  | first :: rest =>
    if first = 'n' then (word () ['u', 'l', 'l'] first rest).map (·.within (lt_of_skipSpace h))
    else .error (unexpected "unit" first rest)

/-- Reads one of some words as the key of an object. -/
def expectWordKey (options : List String) : Reader String := fun text =>
  match skipSpace text with
  | [] => .error (faultAt .endInObject [])
  | first :: rest =>
    if first = '"' then expectWord options "variant identifier" text
    else if first = '}' then .error (faultOn .valueExpected (first :: rest))
    else .error (faultOn .keyExpected (first :: rest))

/-- Reads one of some words, alone or as the key of an object whose only member is a null. -/
def expectChoice (options : List String) : Reader String := fun text =>
  match h : skipSpace text with
  | [] => .error (faultAt .endInValue [])
  | first :: rest =>
    if first = '"' then expectWord options "variant identifier" text
    else if first = '{' then do
      let choice ← expectWordKey options rest
      let mark ← colon choice.rest
      let null ← expectNull mark.rest
      match hend : skipSpace null.rest with
      | [] => .error (faultAt .endInObject [])
      | last :: after =>
        if last = '}' then
          have hchoice := Nat.lt_trans choice.shorter (lt_of_skipSpace h)
          return ⟨choice.value, after, Nat.lt_trans (lt_of_skipSpace hend)
            (Nat.lt_trans null.shorter (Nat.lt_trans mark.shorter hchoice))⟩
        else .error (faultAt .valueExpected (last :: after))
    else .error (faultOn .valueExpected (first :: rest))

/-- Reads what a field may hold. -/
def expectSlot : Slot → Reader Entry
  | .text => fun text => (expectString "a string" text).map (·.map .text)
  | .count => fun text => (expectCount text).map (·.map .count)
  | .word options => fun text => (expectChoice options text).map (·.map .text)

/-! ## Records -/

/-- Where a fault of the whole object is reported: after its end, if it ends here. -/
def atObjectEnd (rest : List Char) : List Char :=
  match skipSpace rest with
  | '}' :: after => after
  | rest => rest

/-- Reads what follows a key of a record. -/
def recordMember (layout : Layout) (found : Map Entry) (key : String) : Reader (Map Entry) :=
  fun text =>
    match layout.slot? key with
    | none => do
      let mark ← colon text
      let skipped ← skip mark.rest
      return ⟨found, skipped.rest, Nat.lt_trans skipped.shorter mark.shorter⟩
    | some slot =>
      if found.contains key then
        .error (faultAt (.shape ("duplicate field `" ++ key ++ "`")) (atObjectEnd text))
      else do
        let mark ← colon text
        let entry ← expectSlot slot mark.rest
        return ⟨found.insert key entry.value, entry.rest, Nat.lt_trans entry.shorter mark.shorter⟩

/-- Reads the fields of a record in an object, up to its closing brace. -/
def recordObject (layout : Layout) : Reader (Map Entry) := fun text => do
  let read ← members (recordMember layout) .empty true text
  match layout.missing? read.value with
  | some name => .error (faultAt (.shape ("missing field `" ++ name ++ "`")) read.rest)
  | none => return read

/-- Reads the end of an array that should hold nothing more. -/
def arrayEnd (text : List Char) : Except Fault (Remainder text) :=
  match h : skipSpace text with
  | [] => .error (faultAt .endInList [])
  | c :: rest =>
    if c = ']' then .ok ⟨rest, lt_of_skipSpace h⟩
    else if c = ',' then
      match skipSpace rest with
      | ']' :: after => .error (faultOn .trailingComma (']' :: after))
      | rest => .error (faultOn .trailingCharacters rest)
    else .error (faultOn .trailingCharacters (c :: rest))

/-- The fault of an array with fewer items than the record has fields. -/
def tooShort (layout : Layout) (length : Nat) (rest : List Char) : Fault :=
  faultAt (.shape ("invalid length " ++ toString length ++ ", expected struct " ++ layout.name ++
    " with " ++ toString layout.fields.length ++ " elements")) rest

/-- Reads the fields of a record in an array, in the order of the layout, up to its end. -/
def recordArray (layout : Layout) : List (String × Slot) → Map Entry → (first : Bool) →
    Reader (Map Entry)
  | [], found, _, text => (arrayEnd text).map fun rest => ⟨found, rest.val, rest.property⟩
  | (name, slot) :: fields, found, first, text =>
    match nextItem first text with
    | .error fault => .error fault
    | .ok (.closed rest h) =>
      if layout.required then .error (tooShort layout found.size rest) else .ok ⟨found, rest, h⟩
    | .ok (.part rest h) => do
      let entry ← expectSlot slot rest
      let read ← recordArray layout fields (found.insert name entry.value) false entry.rest
      return read.within (Nat.le_of_lt (Nat.lt_of_lt_of_le entry.shorter h))

/-- Reads a record. -/
def recordReader (layout : Layout) : Reader (Map Entry) := fun text =>
  match h : skipSpace text with
  | [] => .error (faultAt .endInValue [])
  | first :: rest =>
    have hrest := le_of_skipSpace h
    if first = '[' then
      (recordArray layout layout.fields .empty true rest).map (·.within hrest)
    else if first = '{' then (recordObject layout rest).map (·.within hrest)
    else .error (unexpected ("struct " ++ layout.name) first rest)

/-- Reads the record that fills a text. -/
def parseRecord (layout : Layout) (text : String) : Except Error (Map Entry) :=
  parseWith (recordReader layout) text

end Conform.Json
