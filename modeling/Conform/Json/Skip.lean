import Conform.Json.Tree

/-!
# Passing over a JSON value

A value that nobody asked for is checked but not kept.  It may nest to any depth, because no tree is
built: what is remembered is the list of brackets that are open.
-/

namespace Conform.Json

/-- What is left of a text after something was taken off its front. -/
abbrev Remainder (text : List Char) := { rest : List Char // rest.length < text.length }

/-! ## Scalars -/

/-- Passes over what follows a backslash; what the digits after a `u` stand for is not looked at. -/
def skipEscape (text : List Char) : Except Fault (Remainder text) :=
  match text with
  | [] => .error (faultAt .endInString [])
  | c :: rest =>
    if (shortEscape? c).isSome then .ok ⟨rest, tail_shorter _ _⟩
    else if c = 'u' then
      (hexNumber rest).map fun read => ⟨read.rest, Nat.lt_succ_of_lt read.shorter⟩
    else .error (faultOn .invalidEscape (c :: rest))

/-- Passes over the characters of a string up to the quote that closes it. -/
def skipString (text : List Char) : Except Fault (Remainder text) :=
  match text with
  | [] => .error (faultAt .endInString [])
  | c :: rest =>
    if c = '"' then .ok ⟨rest, tail_shorter _ _⟩
    else if c = '\\' then
      match skipEscape rest with
      | .error fault => .error fault
      | .ok ⟨after, h⟩ => (skipString after).map fun more => ⟨more.val, by
          have := more.property
          simp only [List.length_cons]
          omega⟩
    else if c.toNat < 0x20 then .error (faultAt .controlCharacter (c :: rest))
    else (skipString rest).map fun more => ⟨more.val, Nat.lt_succ_of_lt more.property⟩
termination_by text.length

/-- Passes over digits, of which there must be one. -/
def skipDigits (fault : List Char → Fault) (text : List Char) : Except Fault (List Char) :=
  match text with
  | [] => .error (fault [])
  | c :: rest =>
    if c.isDigit then .ok (rest.dropWhile Char.isDigit) else .error (fault (c :: rest))

/-- Passes over the power of ten at the end of a number, if there is one. -/
def skipPower : List Char → Except Fault (List Char)
  | [] => .ok []
  | c :: rest =>
    if c = 'e' ∨ c = 'E' then skipDigits (faultOn .invalidNumber) (Decimal.sign rest).2
    else .ok (c :: rest)

/-- Passes over the fraction of a number, if there is one, and what follows it. -/
def skipFraction : List Char → Except Fault (List Char)
  | '.' :: rest => do skipPower (← skipDigits (faultOn .invalidNumber) rest)
  | rest => skipPower rest

/-- Passes over the size of a number, whose sign has been read. -/
def skipMagnitude : List Char → Except Fault (List Char)
  | '0' :: rest =>
    if (rest.head?.any Char.isDigit) = true then .error (faultOn .invalidNumber rest)
    else skipFraction rest
  | rest => do skipFraction (← skipDigits (faultOn .invalidNumber) rest)

theorem skipDigits_shortens {fault : List Char → Fault} {text rest : List Char}
    (h : skipDigits fault text = .ok rest) : rest.length < text.length := by
  unfold skipDigits at h
  split at h
  · cases h
  · split at h <;> cases h
    exact Nat.lt_succ_of_le (length_dropWhile_le _ _)

theorem skipPower_shortens {text rest : List Char} (h : skipPower text = .ok rest) :
    rest.length ≤ text.length := by
  unfold skipPower at h
  split at h
  · cases h
    exact Nat.le_refl _
  · split at h
    · rename_i more _
      have hs := length_sign_le more
      have := skipDigits_shortens h
      simp only [List.length_cons]
      omega
    · cases h
      exact Nat.le_refl _

theorem skipFraction_shortens {text rest : List Char} (h : skipFraction text = .ok rest) :
    rest.length ≤ text.length := by
  unfold skipFraction at h
  split at h
  · rename_i more
    simp only [bind, Except.bind] at h
    split at h
    · cases h
    · rename_i digits
      have := skipDigits_shortens digits
      have := skipPower_shortens h
      simp only [List.length_cons]
      omega
  · exact skipPower_shortens h

theorem skipMagnitude_shortens {text rest : List Char} (h : skipMagnitude text = .ok rest) :
    rest.length < text.length := by
  unfold skipMagnitude at h
  split at h
  · split at h
    · cases h
    · exact Nat.lt_succ_of_le (skipFraction_shortens h)
  · simp only [bind, Except.bind] at h
    split at h
    · cases h
    · rename_i digits
      have := skipDigits_shortens digits
      have := skipFraction_shortens h
      omega

/-- Passes over a scalar that starts with the given character. -/
def skipScalar (first : Char) (rest : List Char) : Except Fault (Remainder (first :: rest)) :=
  if first = '"' then
    (skipString rest).map fun more => ⟨more.val, Nat.lt_succ_of_lt more.property⟩
  else if first = '-' ∨ first.isDigit then
    match h : skipMagnitude (if first = '-' then rest else first :: rest) with
    | .error fault => .error fault
    | .ok more =>
      .ok ⟨more, Nat.lt_of_lt_of_le (skipMagnitude_shortens h) (by split <;> simp)⟩
  else (scalar first rest).map fun read => ⟨read.rest, read.shorter⟩

/-! ## Values -/

/-- A bracket that is open. -/
inductive Open where
  | list | object
deriving DecidableEq, Repr

namespace Open

/-- The character that closes a bracket. -/
def mark : Open → Char
  | list => ']'
  | object => '}'

/-- The fault of a text that ends before the bracket is closed. -/
def unclosed : Open → Cause
  | list => .endInList
  | object => .endInObject

/-- The fault of a text that goes on without a comma. -/
def commaMissing : Open → Cause
  | list => .commaOrBracketExpected
  | object => .commaOrBraceExpected

end Open

/-- Passes over a key and its colon. -/
def skipKey (text : List Char) : Except Fault (Remainder text) :=
  match h : skipSpace text with
  | [] => .error (faultAt .endInObject [])
  | c :: rest =>
    if c = '"' then
      match skipString rest with
      | .error fault => .error fault
      | .ok ⟨after, hafter⟩ => (colon after).map fun read =>
          ⟨read.rest, Nat.lt_trans read.shorter (Nat.lt_trans hafter (lt_of_skipSpace h))⟩
    else .error (faultOn .keyExpected (c :: rest))

/-- Passes over what stands before the next part of a bracket: nothing in a list, a key in an
object. -/
def skipToPart (bracket : Open) (text : List Char) :
    Except Fault { rest : List Char // rest.length ≤ text.length } :=
  match bracket with
  | .list => .ok ⟨text, self_noLonger text⟩
  | .object => (skipKey text).map fun rest => ⟨rest.val, Nat.le_of_lt rest.property⟩

mutual

/-- Passes over a value and then closes the brackets that are open. -/
def skipValue (brackets : List Open) (text : List Char) : Except Fault (Remainder text) :=
  match h : skipSpace text with
  | [] => .error (faultAt .endInValue [])
  | first :: rest =>
    if first = '[' then enter .list brackets text rest (lt_of_skipSpace h)
    else if first = '{' then enter .object brackets text rest (lt_of_skipSpace h)
    else
      match skipScalar first rest with
      | .error fault => .error fault
      | .ok ⟨after, hafter⟩ =>
        have hlt : after.length < text.length :=
          Nat.lt_of_lt_of_le hafter (lt_of_skipSpace h)
        (close brackets after).map fun more => ⟨more.val, Nat.lt_of_le_of_lt more.property hlt⟩
termination_by (text.length, 1)

/-- Passes over what follows an opening bracket. -/
def enter (bracket : Open) (brackets : List Open) (text rest : List Char)
    (hrest : rest.length < text.length) : Except Fault (Remainder text) :=
  match h : skipSpace rest with
  | [] => .error (faultAt bracket.unclosed [])
  | c :: after =>
    if c = bracket.mark then
      have hlt := Nat.lt_trans (lt_of_skipSpace h) hrest
      (close brackets after).map fun more => ⟨more.val, Nat.lt_of_le_of_lt more.property hlt⟩
    else
      match skipToPart bracket rest with
      | .error fault => .error fault
      | .ok ⟨part, hpart⟩ =>
        have hlt := Nat.lt_of_le_of_lt hpart hrest
        (skipValue (bracket :: brackets) part).map fun more =>
          ⟨more.val, Nat.lt_trans more.property hlt⟩
termination_by (text.length, 0)

/-- Passes over what follows a value: more parts, and the ends of the brackets that are open. -/
def close (brackets : List Open) (text : List Char) :
    Except Fault { rest : List Char // rest.length ≤ text.length } :=
  match brackets with
  | [] => .ok ⟨text, self_noLonger text⟩
  | bracket :: outer =>
    match h : skipSpace text with
    | [] => .error (faultAt bracket.unclosed [])
    | c :: rest =>
      have hrest := lt_of_skipSpace h
      if c = ',' then
        match skipToPart bracket rest with
        | .error fault => .error fault
        | .ok ⟨part, hpart⟩ =>
          have hlt := Nat.lt_of_le_of_lt hpart hrest
          (skipValue (bracket :: outer) part).map fun more =>
            ⟨more.val, Nat.le_of_lt (Nat.lt_trans more.property hlt)⟩
      else if c = bracket.mark then
        (close outer rest).map fun more =>
          ⟨more.val, Nat.le_trans more.property (Nat.le_of_lt hrest)⟩
      else .error (faultOn bracket.commaMissing (c :: rest))
termination_by (text.length, 0)

end

/-- Passes over one value. -/
def skip : Reader Unit := fun text =>
  (skipValue [] text).map fun rest => ⟨(), rest.val, rest.property⟩

end Conform.Json
