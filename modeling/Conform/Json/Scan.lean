import Conform.Json.Fault
import Conform.Read
import Conform.Text

/-!
# Reading the front of a text

The pieces of JSON that carry no tree: blanks, fixed words, and strings with their escapes.  Each is
taken off the front of a text, or a fault says where the text goes wrong.
-/

namespace Conform.Json

/-- What reading off the front of a text can come to. -/
abbrev Reading (α : Type) (text : List Char) := Except Fault (Read α text)

/-- A way to read something off the front of any text. -/
abbrev Reader (α : Type) := (text : List Char) → Reading α text

/-! ## Faults -/

/-- A fault at the start of what is left. -/
def faultAt (cause : Cause) (rest : List Char) : Fault := ⟨cause, rest, 0⟩

/-- A fault at the next byte of what is left, or at the end when nothing is. -/
def faultOn (cause : Cause) : List Char → Fault
  | [] => ⟨cause, [], 0⟩
  | rest => ⟨cause, rest, 1⟩

/-! ## Blanks -/

/-- The white space of JSON: space, tab, line feed and carriage return. -/
def isSpace (c : Char) : Bool := c = ' ' || c = '\t' || c = '\n' || c = '\r'

/-- The text after the white space at its front. -/
def skipSpace (text : List Char) : List Char := text.dropWhile isSpace

theorem length_skipSpace_le (text : List Char) : (skipSpace text).length ≤ text.length :=
  length_dropWhile_le isSpace text

/-- When a character stands after the white space, the text after it is shorter than the whole. -/
theorem lt_of_skipSpace {text rest : List Char} {c : Char} (h : skipSpace text = c :: rest) :
    rest.length < text.length := by
  have := length_skipSpace_le text
  rw [h] at this
  exact this

/-- What follows a character after the white space is no longer than the whole. -/
theorem le_of_skipSpace {text rest : List Char} {c : Char} (h : skipSpace text = c :: rest) :
    rest.length ≤ text.length := Nat.le_of_lt (lt_of_skipSpace h)

/-! ## Words -/

/-- Reads the letters of a fixed word and answers what follows them. -/
def letters : (word : List Char) → (text : List Char) →
    Except Fault { rest : List Char // rest.length ≤ text.length }
  | [], text => .ok ⟨text, self_noLonger text⟩
  | _ :: _, [] => .error (faultAt .endInValue [])
  | letter :: word, c :: text =>
    if c = letter then do
      let rest ← letters word text
      return ⟨rest.val, Nat.le_succ_of_le rest.property⟩
    else .error (faultOn .wordExpected (c :: text))

/-- Reads a word whose first letter has been read, and answers what it stands for. -/
def word {α : Type} (value : α) (remaining : List Char) (first : Char) (text : List Char) :
    Reading α (first :: text) := do
  let rest ← letters remaining text
  return ⟨value, rest.val, Nat.lt_succ_of_le rest.property⟩

/-! ## Strings -/

/-- The number that four hexadecimal digits spell. -/
def hexNumber? (a b c d : Char) : Option Nat := do
  let a ← Text.hexDigit? a
  let b ← Text.hexDigit? b
  let c ← Text.hexDigit? c
  let d ← Text.hexDigit? d
  return ((a * 16 + b) * 16 + c) * 16 + d

/-- What is wrong where four hexadecimal digits should stand: the text ends within four bytes, or
one of these bytes is no such digit. -/
def hexFault (text : List Char) : Fault :=
  if byteCount text < 4 then faultAt .endInString [] else ⟨.invalidEscape, text, 4⟩

/-- Reads four hexadecimal digits. -/
def hexNumber : Reader Nat
  | a :: b :: c :: d :: rest =>
    match hexNumber? a b c d with
    | some n => .ok ⟨n, rest, by simp only [List.length_cons]; omega⟩
    | none => .error (hexFault (a :: b :: c :: d :: rest))
  | text => .error (hexFault text)

/-- Reads one given character inside a string. -/
def expectInString (c : Char) : Reader Unit
  | [] => .error (faultAt .endInString [])
  | d :: rest =>
    if d = c then .ok ⟨(), rest, tail_shorter _ _⟩
    else .error (faultOn .surrogatePairCut (d :: rest))

/-- The character beyond the first plane that two surrogates stand for. -/
def joinSurrogates (high low : Nat) : Char :=
  Char.ofNat (0x10000 + (high - 0xD800) * 0x400 + (low - 0xDC00))

/-- Reads the second half of a surrogate pair. -/
def lowSurrogate (high : Nat) (text : List Char) : Reading Char text := do
  let slash ← expectInString '\\' text
  let letter ← expectInString 'u' slash.rest
  let low ← hexNumber letter.rest
  if low.value < 0xDC00 ∨ 0xDFFF < low.value then .error (faultAt .loneSurrogate low.rest)
  else
    have := slash.shorter
    have := letter.shorter
    have := low.shorter
    .ok ⟨joinSurrogates high low.value, low.rest, by omega⟩

/-- Reads the character that the digits after a backslash and `u` stand for. -/
def codePoint (text : List Char) : Reading Char text := do
  let first ← hexNumber text
  if 0xDC00 ≤ first.value ∧ first.value ≤ 0xDFFF then
    .error (faultAt .loneSurrogate first.rest)
  else if 0xD800 ≤ first.value ∧ first.value ≤ 0xDBFF then
    return (← lowSurrogate first.value first.rest).within (Nat.le_of_lt first.shorter)
  else return first.map Char.ofNat

/-- The character that one letter after a backslash stands for. -/
def shortEscape? : Char → Option Char
  | '"' => some '"'
  | '\\' => some '\\'
  | '/' => some '/'
  | 'b' => some '\x08'
  | 'f' => some '\x0c'
  | 'n' => some '\n'
  | 'r' => some '\r'
  | 't' => some '\t'
  | _ => none

/-- Reads the character that what follows a backslash stands for. -/
def escaped : Reader Char
  | [] => .error (faultAt .endInString [])
  | c :: rest =>
    match shortEscape? c with
    | some d => .ok ⟨d, rest, tail_shorter _ _⟩
    | none =>
      if c = 'u' then (codePoint rest).map (·.after c)
      else .error (faultOn .invalidEscape (c :: rest))

/-- Reads one character of a string, which is not the quote that closes it. -/
def stringChar (c : Char) (rest : List Char) : Reading Char (c :: rest) :=
  if c = '\\' then (escaped rest).map (·.after c)
  else if c.toNat < 0x20 then .error (faultOn .controlCharacter (c :: rest))
  else .ok ⟨c, rest, tail_shorter _ _⟩

/-- Reads the characters of a string up to the quote that closes it. -/
def stringChars (text : List Char) : Reading (List Char) text :=
  match text with
  | [] => .error (faultAt .endInString [])
  | c :: rest =>
    if c = '"' then .ok ⟨[], rest, tail_shorter _ _⟩
    else
      match stringChar c rest with
      | .error fault => .error fault
      | .ok first =>
        match stringChars first.rest with
        | .error fault => .error fault
        | .ok more =>
          .ok ⟨first.value :: more.value, more.rest, Nat.lt_trans more.shorter first.shorter⟩
termination_by text.length
decreasing_by exact first.shorter

/-- Reads the text of a string whose opening quote has been read. -/
def stringText (text : List Char) : Reading String text :=
  (stringChars text).map (·.map String.ofList)

end Conform.Json
