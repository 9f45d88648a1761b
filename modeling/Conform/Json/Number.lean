import Conform.Json
import Conform.Json.Scan

/-!
# Reading a JSON number

An integer that fits its sign's 64-bit range is read exactly; every other number becomes a float.

The float is not always the nearest one.  Digits are gathered as long as they fit 64 bits; those
after that are dropped, each dropped digit before the point counting as a power of ten.  What was
gathered is rounded to a float and multiplied by, or divided by, a power of ten once, the power
being rounded as well.
-/

namespace Conform.Json

open Decimal

/-! ## Scaling -/

/-- The largest power of ten that a float can be scaled by at once. -/
def greatestPower : Nat := 308

/-- A float times a power of ten; none when the result is too large for a float.  Powers below the
least are taken in steps. -/
def scale (number : Float) (power : Int) : Option Float :=
  if power.natAbs ≤ greatestPower then
    let factor := Float.ofScientific 1 false power.natAbs
    if 0 ≤ power then
      let product := number * factor
      if product.isInf then none else some product
    else some (number / factor)
  else if number == 0 then some number
  else if 0 ≤ power then none
  else scale (number / Float.ofScientific 1 false greatestPower) (power + greatestPower)
termination_by power.natAbs
decreasing_by simp only [greatestPower] at *; omega

/-! ## Digits -/

/-- The value of a digit. -/
def digitValue (c : Char) : Nat := c.toNat - '0'.toNat

/-- Gathers digits as long as the number stays below `bound`, and counts them. -/
def gather (bound : Nat) : Nat → List Char → Nat × Nat × List Char
  | number, [] => (number, 0, [])
  | number, c :: rest =>
    if c.isDigit ∧ number * 10 + digitValue c < bound then
      let (number, count, rest) := gather bound (number * 10 + digitValue c) rest
      (number, count + 1, rest)
    else (number, 0, c :: rest)

theorem length_gather_le (bound number : Nat) (text : List Char) :
    (gather bound number text).2.2.length ≤ text.length := by
  induction text generalizing number with
  | nil => simp [gather]
  | cons c rest ih =>
    simp only [gather]
    split
    · exact Nat.le_succ_of_le (ih _)
    · exact Nat.le_refl _

theorem length_sign_le (text : List Char) : (sign text).2.length ≤ text.length := by
  unfold sign
  split <;> simp

/-! ## The parts of a number -/

/-- What reading a part of a number comes to: the number, and what follows it. -/
abbrev Outcome := Except Fault (Json × List Char)

/-- The float with these digits, sign and power. -/
def finish (negative : Bool) (digits : Nat) (power : Int) (rest : List Char) : Outcome :=
  match scale (Float.ofNat digits) power with
  | some size => .ok (.float (if negative then -size else size), rest)
  | none => .error (faultAt .numberOutOfRange rest)

/-- Powers of ten are gathered below this bound. -/
def powerBound : Nat := 1 <<< 31

/-- The digits of a number are gathered below this bound. -/
def digitsBound : Nat := UInt64.size

/-- A power of ten that is beyond all bounds: the number is zero when the power is negative or there
is nothing but zeros, else it is out of range. -/
def immense (negative : Bool) (digits : Nat) (down : Bool) (rest : List Char) : Outcome :=
  if digits ≠ 0 ∧ down = false then .error (faultAt .numberOutOfRange rest)
  else .ok (.float (if negative then -0.0 else 0.0), rest.dropWhile Char.isDigit)

/-- Reads the power of ten after its `e`. -/
def powerPart (negative : Bool) (digits : Nat) (start : Int) (text : List Char) : Outcome :=
  match sign text with
  | (_, []) => .error (faultAt .endInValue [])
  | (down, c :: rest) =>
    if c.isDigit then
      match gather powerBound 0 (c :: rest) with
      | (power, _, []) => finish negative digits (start + signed down power) []
      | (power, _, d :: more) =>
        if d.isDigit then immense negative digits down more
        else finish negative digits (start + signed down power) (d :: more)
    else .error (faultOn .invalidNumber (c :: rest))

/-- Reads what may follow the digits of a float: the power of ten, if there is one. -/
def afterDigits (negative : Bool) (digits : Nat) (power : Int) : List Char → Outcome
  | 'e' :: rest => powerPart negative digits power rest
  | 'E' :: rest => powerPart negative digits power rest
  | rest => finish negative digits power rest

/-- Reads the digits after the point. -/
def fractionPart (negative : Bool) (digits : Nat) (power : Int) (text : List Char) : Outcome :=
  match gather digitsBound digits text with
  | (_, 0, rest) =>
    if (rest.head?.any Char.isDigit) = true then
      afterDigits negative digits power (rest.dropWhile Char.isDigit)
    else .error (faultOn (if rest.isEmpty then .endInValue else .invalidNumber) rest)
  | (digits, places, rest) =>
    afterDigits negative digits (power - places) (rest.dropWhile Char.isDigit)

/-- The number with these digits and neither point nor power: an integer if it fits. -/
def wholeNumber (negative : Bool) (digits : Nat) : Json :=
  if negative then
    if digits ≠ 0 ∧ Word.fits (-digits) then .integer (-digits) else .float (-Float.ofNat digits)
  else .integer digits

/-- Reads what may follow the digits before the point, of which `dropped` were too many. -/
def afterWhole (negative : Bool) (digits dropped : Nat) : List Char → Outcome
  | '.' :: rest => fractionPart negative digits dropped rest
  | 'e' :: rest => powerPart negative digits dropped rest
  | 'E' :: rest => powerPart negative digits dropped rest
  | rest =>
    if dropped = 0 then .ok (wholeNumber negative digits, rest)
    else finish negative digits dropped rest

/-- Reads the size of a number, whose sign has been read. -/
def magnitude (negative : Bool) : List Char → Outcome
  | [] => .error (faultAt .endInValue [])
  | '0' :: rest =>
    if (rest.head?.any Char.isDigit) = true then .error (faultOn .invalidNumber rest)
    else afterWhole negative 0 0 rest
  | c :: rest =>
    if c.isDigit then
      let (digits, _, more) := gather digitsBound 0 (c :: rest)
      let (dropped, more) := span more
      afterWhole negative digits dropped.length more
    else .error (faultOn .invalidNumber (c :: rest))

/-! ## Reading goes forward -/

theorem finish_shortens {negative : Bool} {digits : Nat} {power : Int} {text rest : List Char}
    {json : Json} (h : finish negative digits power text = .ok (json, rest)) :
    rest.length ≤ text.length := by
  unfold finish at h
  split at h <;> cases h
  exact Nat.le_refl _

theorem immense_shortens {negative down : Bool} {digits : Nat} {text rest : List Char}
    {json : Json} (h : immense negative digits down text = .ok (json, rest)) :
    rest.length ≤ text.length := by
  unfold immense at h
  split at h <;> cases h
  exact length_dropWhile_le _ _

theorem powerPart_shortens {negative : Bool} {digits : Nat} {start : Int} {text rest : List Char}
    {json : Json} (h : powerPart negative digits start text = .ok (json, rest)) :
    rest.length ≤ text.length := by
  have hs := length_sign_le text
  unfold powerPart at h
  split at h
  · cases h
  · rename_i down c more heq
    rw [heq] at hs
    have hg := length_gather_le powerBound 0 (c :: more)
    split at h
    · split at h
      · have := finish_shortens h
        simp only [List.length_nil] at this
        omega
      · rename_i hgather
        rw [hgather] at hg
        simp only [List.length_cons] at hg hs
        split at h
        · have := immense_shortens h
          omega
        · have := finish_shortens h
          simp only [List.length_cons] at this
          omega
    · cases h

theorem afterDigits_shortens {negative : Bool} {digits : Nat} {power : Int}
    {text rest : List Char} {json : Json}
    (h : afterDigits negative digits power text = .ok (json, rest)) :
    rest.length ≤ text.length := by
  unfold afterDigits at h
  split at h
  · exact Nat.le_succ_of_le (powerPart_shortens h)
  · exact Nat.le_succ_of_le (powerPart_shortens h)
  · exact finish_shortens h

theorem fractionPart_shortens {negative : Bool} {digits : Nat} {power : Int}
    {text rest : List Char} {json : Json}
    (h : fractionPart negative digits power text = .ok (json, rest)) :
    rest.length ≤ text.length := by
  have hg := length_gather_le digitsBound digits text
  unfold fractionPart at h
  split at h
  · rename_i after hgather
    rw [hgather] at hg
    have hd := length_dropWhile_le Char.isDigit after
    split at h
    · exact Nat.le_trans (afterDigits_shortens h) (Nat.le_trans hd hg)
    · cases h
  · rename_i after _ hgather
    rw [hgather] at hg
    have hd := length_dropWhile_le Char.isDigit after
    exact Nat.le_trans (afterDigits_shortens h) (Nat.le_trans hd hg)

theorem afterWhole_shortens {negative : Bool} {digits dropped : Nat} {text rest : List Char}
    {json : Json} (h : afterWhole negative digits dropped text = .ok (json, rest)) :
    rest.length ≤ text.length := by
  unfold afterWhole at h
  split at h
  · exact Nat.le_succ_of_le (fractionPart_shortens h)
  · exact Nat.le_succ_of_le (powerPart_shortens h)
  · exact Nat.le_succ_of_le (powerPart_shortens h)
  · split at h
    · cases h
      exact Nat.le_refl _
    · exact finish_shortens h

theorem magnitude_shortens {negative : Bool} {text rest : List Char} {json : Json}
    (h : magnitude negative text = .ok (json, rest)) : rest.length < text.length := by
  unfold magnitude at h
  split at h
  · cases h
  · split at h
    · cases h
    · exact Nat.lt_succ_of_le (afterWhole_shortens h)
  · rename_i c more _
    split at h
    · rename_i hc
      have hw := afterWhole_shortens h
      have hd : ((gather digitsBound 0 (c :: more)).2.2.dropWhile Char.isDigit).length ≤
          more.length := by
        simp only [gather, hc, true_and]
        have hg := length_gather_le digitsBound (0 * 10 + digitValue c) more
        split
        · exact Nat.le_trans (length_dropWhile_le _ _) hg
        · simp only [List.dropWhile_cons, hc, if_true]
          exact length_dropWhile_le _ _
      exact Nat.lt_succ_of_le (Nat.le_trans hw hd)
    · cases h

/-- Reads a number, whose first character is a minus or a digit. -/
def number (first : Char) (rest : List Char) : Reading Json (first :: rest) :=
  let negative := first = '-'
  match h : magnitude negative (if negative then rest else first :: rest) with
  | .error fault => .error fault
  | .ok (json, after) =>
    .ok ⟨json, after, Nat.lt_of_lt_of_le (magnitude_shortens h) (by split <;> simp)⟩

end Conform.Json
