import Conform.Json.Number

/-!
# Reading a JSON tree

Arrays and objects may nest up to a limit.  In an object a key that comes again takes the later
value and keeps its first place.

The loops over items and members are stated for any way of reading one of them, because readers of
particular shapes use them as well.
-/

namespace Conform.Json

variable {α σ : Type}

/-! ## Between the parts -/

/-- What stands where another part of an array or object may follow: the end of it, or the part. -/
inductive Ahead (text : List Char) where
  /-- The closing mark has been read; this follows it. -/
  | closed (rest : List Char) (shorter : rest.length < text.length)
  /-- A part starts here. -/
  | part (rest : List Char) (noLonger : rest.length ≤ text.length)

/-- Finds the next item of an array, which is the first or comes after a comma. -/
def nextItem (first : Bool) (text : List Char) : Except Fault (Ahead text) :=
  match h : skipSpace text with
  | [] => .error (faultAt .endInList [])
  | c :: rest =>
    if c = ']' then .ok (.closed rest (lt_of_skipSpace h))
    else if first then .ok (.part text (self_noLonger text))
    else if c = ',' then
      match skipSpace rest with
      | [] => .error (faultAt .endInValue [])
      | ']' :: after => .error (faultOn .trailingComma (']' :: after))
      | _ => .ok (.part rest (le_of_skipSpace h))
    else .error (faultOn .commaOrBracketExpected (c :: rest))

/-- Finds the key of a member, of which only the opening quote is read. -/
def openKey (text : List Char) : Except Fault (Ahead text) :=
  match h : skipSpace text with
  | [] => .error (faultAt .endInValue [])
  | c :: rest =>
    if c = '"' then .ok (.part rest (le_of_skipSpace h))
    else .error (faultOn .keyExpected (c :: rest))

/-- Finds the next member of an object, which is the first or comes after a comma. -/
def nextMember (first : Bool) (text : List Char) : Except Fault (Ahead text) :=
  match h : skipSpace text with
  | [] => .error (faultAt .endInObject [])
  | c :: rest =>
    if c = '}' then .ok (.closed rest (lt_of_skipSpace h))
    else if first then openKey text
    else if c = ',' then
      match skipSpace rest with
      | '}' :: after => .error (faultOn .trailingComma ('}' :: after))
      | _ =>
        match openKey rest with
        | .error fault => .error fault
        | .ok (.closed more h') => .ok (.closed more (Nat.lt_trans h' (lt_of_skipSpace h)))
        | .ok (.part more h') =>
          .ok (.part more (Nat.le_of_lt (Nat.lt_of_le_of_lt h' (lt_of_skipSpace h))))
    else .error (faultOn .commaOrBraceExpected (c :: rest))

/-- Reads the colon after a key. -/
def colon (text : List Char) : Reading Unit text :=
  match h : skipSpace text with
  | [] => .error (faultAt .endInObject [])
  | c :: rest =>
    if c = ':' then .ok ⟨(), rest, lt_of_skipSpace h⟩
    else .error (faultOn .colonExpected (c :: rest))

/-! ## Loops -/

/-- Reads the items of an array up to its closing bracket. -/
def items (item : Reader α) (first : Bool) (text : List Char) : Reading (List α) text :=
  match nextItem first text with
  | .error fault => .error fault
  | .ok (.closed rest h) => .ok ⟨[], rest, h⟩
  | .ok (.part rest h) =>
    match item rest with
    | .error fault => .error fault
    | .ok one =>
      have hone := Nat.lt_of_lt_of_le one.shorter h
      match items item false one.rest with
      | .error fault => .error fault
      | .ok more => .ok ⟨one.value :: more.value, more.rest, Nat.lt_trans more.shorter hone⟩
termination_by text.length

/-- Reads the members of an object up to its closing brace.  What has been gathered from the members
so far is handed from one to the next; a key is handed on as well, to read what belongs to it. -/
def members (step : σ → String → Reader σ) (gathered : σ) (first : Bool) (text : List Char) :
    Reading σ text :=
  match nextMember first text with
  | .error fault => .error fault
  | .ok (.closed rest h) => .ok ⟨gathered, rest, h⟩
  | .ok (.part rest h) =>
    match stringText rest with
    | .error fault => .error fault
    | .ok key =>
      match step gathered key.value key.rest with
      | .error fault => .error fault
      | .ok one =>
        have hone := Nat.lt_trans one.shorter (Nat.lt_of_lt_of_le key.shorter h)
        match members step one.value false one.rest with
        | .error fault => .error fault
        | .ok more => .ok ⟨more.value, more.rest, Nat.lt_trans more.shorter hone⟩
termination_by text.length

/-! ## Trees -/

/-- Reads a scalar that starts with the given character, which is no bracket, brace or blank. -/
def scalar (first : Char) (rest : List Char) : Reading Json (first :: rest) :=
  if first = 'n' then word .null ['u', 'l', 'l'] first rest
  else if first = 't' then word (.boolean true) ['r', 'u', 'e'] first rest
  else if first = 'f' then word (.boolean false) ['a', 'l', 's', 'e'] first rest
  else if first = '"' then (stringText rest).map fun read => (read.map .string).after first
  else if first = '-' ∨ first.isDigit then number first rest
  else .error (faultOn .valueExpected (first :: rest))

/-- Reads what follows a key and writes it under the key. -/
def treeMember (value : Reader Json) (gathered : Map Json) (key : String) :
    Reader (Map Json) := fun text => do
  let mark ← colon text
  let value ← value mark.rest
  return ⟨gathered.insert key value.value, value.rest, Nat.lt_trans value.shorter mark.shorter⟩

/-- Reads a tree in which arrays and objects nest at most so deep. -/
def tree : (depth : Nat) → Reader Json
  | depth, text =>
    match h : skipSpace text with
    | [] => .error (faultAt .endInValue [])
    | first :: rest =>
      if first = '[' then
        match depth with
        | 0 => .error (faultOn .tooDeep (first :: rest))
        | depth + 1 => (items (tree depth) true rest).map fun read =>
            (read.map .array).within (le_of_skipSpace h)
      else if first = '{' then
        match depth with
        | 0 => .error (faultOn .tooDeep (first :: rest))
        | depth + 1 => (members (treeMember (tree depth)) .empty true rest).map fun read =>
            (read.map .object).within (le_of_skipSpace h)
      else (scalar first rest).map (·.within (lt_of_skipSpace h))

/-- How deep arrays and objects may nest in a text. -/
def depthLimit : Nat := 127

/-- Checks that nothing but white space is left. -/
def finished (rest : List Char) : Except Fault Unit :=
  match skipSpace rest with
  | [] => .ok ()
  | c :: rest => .error (faultOn .trailingCharacters (c :: rest))

/-- Reads something that fills a whole text. -/
def whole (reader : Reader α) (text : List Char) : Except Fault α := do
  let read ← reader text
  finished read.rest
  return read.value

/-- Runs a reader on a text and finds the place of a fault in it. -/
def parseWith (reader : Reader α) (text : String) : Except Error α :=
  (whole reader text.toList).mapError (Error.ofFault text)

/-- Reads the tree that fills a text. -/
def parse (text : String) : Except Error Json := parseWith (tree depthLimit) text

end Conform.Json
