import Conform.Proofs.Decimal.Numerals
import Mathlib.Computability.RegularExpressions
import Mathlib.Tactic.FieldSimp
import Mathlib.Tactic.FinCases

/-!
# The spellings of numbers

An integer is spelt with a sign or none and at least one digit.  A decimal has digits before a
point, after it, or on both sides of it; the point may be missing when there are digits before it,
and a power of ten may follow.  A spelling is one of these ways to write a number, part by part, and
it has its characters and the number that it stands for, an exact one.

The same texts are described twice: by spellings, which say what a text means, and by regular
expressions (`Grammar.integer`, `Grammar.decimal`), which only say which texts there are.  The two
descriptions agree (`Grammar.mem_integer_iff`, `Grammar.mem_decimal_iff`).
-/

namespace Conform.Decimal

/-! ## Spellings -/

/-- What stands in front of the digits. -/
inductive SignMark where
  | absent | plus | minus

namespace SignMark

/-- The characters of a sign. -/
def chars : SignMark → List Char
  | absent => []
  | plus => ['+']
  | minus => ['-']

/-- Whether the number is below zero, or is a zero below. -/
def negative : SignMark → Bool
  | minus => true
  | _ => false

/-- What the sign multiplies the number by. -/
def factor (mark : SignMark) : Int := if mark.negative then -1 else 1

end SignMark

/-- A way to write an integer. -/
structure IntegerSpelling where
  sign : SignMark
  count : Nat
  digits : Numeral count
  one_at_least : 1 ≤ count

namespace IntegerSpelling

/-- The characters of an integer. -/
def chars (spelling : IntegerSpelling) : List Char := spelling.sign.chars ++ spelling.digits.chars

/-- The text of an integer. -/
def text (spelling : IntegerSpelling) : String := String.ofList spelling.chars

/-- The integer that is spelt. -/
def number (spelling : IntegerSpelling) : Int := spelling.sign.factor * spelling.digits.value

end IntegerSpelling

/-- The digits after a point, of which there may be none. -/
structure Places where
  count : Nat
  digits : Numeral count

namespace Places

/-- A point and digits, or nothing. -/
def chars : Option Places → List Char
  | none => []
  | some places => '.' :: places.digits.chars

/-- How many digits there are after the point. -/
def length : Option Places → Nat
  | none => 0
  | some places => places.count

/-- The digits after the point, read as a whole number. -/
def value : Option Places → Nat
  | none => 0
  | some places => places.digits.value

end Places

/-- A power of ten at the end, after a letter of either case. -/
structure Power where
  capital : Bool
  exponent : IntegerSpelling

namespace Power

/-- A letter and an integer, or nothing. -/
def chars : Option Power → List Char
  | none => []
  | some power => (if power.capital then 'E' else 'e') :: power.exponent.chars

/-- The power of ten that is meant. -/
def number : Option Power → Int
  | none => 0
  | some power => power.exponent.number

end Power

/-- A way to write a decimal. -/
structure DecimalSpelling where
  sign : SignMark
  count : Nat
  whole : Numeral count
  places : Option Places
  power : Option Power
  one_at_least : 1 ≤ count + Places.length places

namespace DecimalSpelling

/-- The characters of a decimal. -/
def chars (spelling : DecimalSpelling) : List Char :=
  spelling.sign.chars ++ (spelling.whole.chars ++
    (Places.chars spelling.places ++ Power.chars spelling.power))

/-- The text of a decimal. -/
def text (spelling : DecimalSpelling) : String := String.ofList spelling.chars

/-- The number that is spelt. -/
def number (spelling : DecimalSpelling) : ℚ :=
  spelling.sign.factor * (spelling.whole.value +
    Places.value spelling.places / 10 ^ Places.length spelling.places) *
      10 ^ Power.number spelling.power

/-- All digits read as one whole number, without regard to the point. -/
def significand (spelling : DecimalSpelling) : Nat :=
  spelling.whole.value * 10 ^ Places.length spelling.places + Places.value spelling.places

/-- The power of ten that makes up for the point. -/
def scale (spelling : DecimalSpelling) : Int :=
  Power.number spelling.power - Places.length spelling.places

/-- The float that the whole number and the power of ten are converted to, with the sign put in
front. -/
def toFloat (spelling : DecimalSpelling) : Float :=
  let size := Float.ofScientific spelling.significand (spelling.scale < 0) spelling.scale.natAbs
  if spelling.sign.negative then -size else size

/-- What is converted to a float is exactly the number that is spelt. -/
lemma number_eq (spelling : DecimalSpelling) : spelling.number =
    spelling.sign.factor * spelling.significand * 10 ^ spelling.scale := by
  have hpow : (10 : ℚ) ^ spelling.scale =
      10 ^ Power.number spelling.power / 10 ^ Places.length spelling.places := by
    rw [scale, zpow_sub₀ (by norm_num), zpow_natCast]
  rw [number, significand, hpow]
  push_cast
  field_simp

end DecimalSpelling

/-! ## Grammars -/

namespace Grammar

open RegularExpression

/-- One of a few characters. -/
def oneOf (chars : List Char) : RegularExpression Char :=
  chars.foldr (fun c others => char c + others) 0

/-- Once or not at all. -/
def optional (part : RegularExpression Char) : RegularExpression Char := 1 + part

/-- A plus or a minus. -/
def sign : RegularExpression Char := oneOf ['+', '-']

/-- A decimal digit. -/
def digit : RegularExpression Char :=
  oneOf ['0', '1', '2', '3', '4', '5', '6', '7', '8', '9']

/-- One digit or more. -/
def digits : RegularExpression Char := digit * star digit

/-- Integers. -/
def integer : RegularExpression Char := optional sign * digits

/-- Powers of ten. -/
def power : RegularExpression Char := oneOf ['e', 'E'] * integer

/-- Decimals. -/
def decimal : RegularExpression Char :=
  optional sign * (digits * optional (char '.' * star digit) + char '.' * digits) * optional power

/-! ### Parts -/

lemma mem_mul_iff {first second : RegularExpression Char} {text : List Char} :
    text ∈ (first * second).matches' ↔
      ∃ front ∈ first.matches', ∃ back ∈ second.matches', front ++ back = text :=
  Language.mem_mul

lemma mem_add_iff {first second : RegularExpression Char} {text : List Char} :
    text ∈ (first + second).matches' ↔ text ∈ first.matches' ∨ text ∈ second.matches' :=
  Iff.rfl

lemma mem_optional_iff {part : RegularExpression Char} {text : List Char} :
    text ∈ (optional part).matches' ↔ text = [] ∨ text ∈ part.matches' :=
  Iff.rfl

lemma mem_oneOf_iff {chars text : List Char} :
    text ∈ (oneOf chars).matches' ↔ ∃ c ∈ chars, text = [c] := by
  induction chars with
  | nil => exact iff_of_false (Language.notMem_zero text) (by simp)
  | cons c chars ih =>
    rw [List.exists_mem_cons_iff, ← ih]
    exact mem_add_iff

lemma mem_digit_iff {text : List Char} :
    text ∈ digit.matches' ↔ ∃ c : Char, c.isDigit = true ∧ text = [c] := by
  have hdigits (c : Char) : c ∈ ['0', '1', '2', '3', '4', '5', '6', '7', '8', '9'] ↔
      c.isDigit = true := by
    constructor
    · intro hc
      fin_cases hc <;> rfl
    · intro hc
      obtain ⟨digit, rfl⟩ := Numeral.exists_digitChar_eq hc
      fin_cases digit <;> decide
  rw [digit, mem_oneOf_iff]
  exact exists_congr fun c => and_congr_left' (hdigits c)

lemma mem_star_digit_iff {text : List Char} :
    text ∈ (star digit).matches' ↔ ∀ c ∈ text, c.isDigit = true := by
  rw [matches'_star, Language.mem_kstar]
  constructor
  · rintro ⟨parts, rfl, hparts⟩ c hc
    obtain ⟨part, hpart, hmem⟩ := List.mem_flatten.1 hc
    obtain ⟨d, hd, rfl⟩ := mem_digit_iff.1 (hparts part hpart)
    rwa [List.mem_singleton.1 hmem]
  · intro hdigits
    refine ⟨text.map fun c => [c], (List.flatMap_singleton' text).symm, ?_⟩
    intro part hpart
    obtain ⟨c, hc, rfl⟩ := List.mem_map.1 hpart
    exact mem_digit_iff.2 ⟨c, hdigits c hc, rfl⟩

lemma mem_digits_iff {text : List Char} :
    text ∈ digits.matches' ↔ text ≠ [] ∧ ∀ c ∈ text, c.isDigit = true := by
  rw [digits, mem_mul_iff]
  constructor
  · rintro ⟨_, hfront, back, hback, rfl⟩
    obtain ⟨c, hc, rfl⟩ := mem_digit_iff.1 hfront
    exact ⟨by simp, List.forall_mem_cons.2 ⟨hc, mem_star_digit_iff.1 hback⟩⟩
  · rintro ⟨hne, hdigits⟩
    obtain ⟨c, back, rfl⟩ := List.exists_cons_of_ne_nil hne
    rw [List.forall_mem_cons] at hdigits
    exact ⟨[c], mem_digit_iff.2 ⟨c, hdigits.1, rfl⟩, back, mem_star_digit_iff.2 hdigits.2, rfl⟩

lemma mem_sign_iff {text : List Char} :
    text ∈ (optional sign).matches' ↔ ∃ mark : SignMark, mark.chars = text := by
  rw [mem_optional_iff, sign, mem_oneOf_iff]
  constructor
  · rintro (rfl | ⟨c, hc, rfl⟩)
    · exact ⟨.absent, rfl⟩
    · rcases List.mem_pair.1 hc with rfl | rfl
      · exact ⟨.plus, rfl⟩
      · exact ⟨.minus, rfl⟩
  · rintro ⟨mark, rfl⟩
    cases mark with
    | absent => exact .inl rfl
    | plus => exact .inr ⟨'+', by simp, rfl⟩
    | minus => exact .inr ⟨'-', by simp, rfl⟩

/-! ### Numbers -/

/-- **The texts of integers** match their grammar, and only those. -/
theorem mem_integer_iff {text : List Char} :
    text ∈ integer.matches' ↔ ∃ spelling : IntegerSpelling, spelling.chars = text := by
  rw [integer, mem_mul_iff]
  constructor
  · rintro ⟨front, hfront, back, hback, rfl⟩
    obtain ⟨mark, rfl⟩ := mem_sign_iff.1 hfront
    obtain ⟨count, digits, hcount, rfl⟩ := Numeral.exists_chars_iff.2 (mem_digits_iff.1 hback)
    exact ⟨⟨mark, count, digits, hcount⟩, rfl⟩
  · rintro ⟨⟨mark, count, digits, hcount⟩, rfl⟩
    exact ⟨mark.chars, mem_sign_iff.2 ⟨mark, rfl⟩, digits.chars,
      mem_digits_iff.2 (Numeral.exists_chars_iff.1 ⟨count, digits, hcount, rfl⟩), rfl⟩

lemma mem_power_iff {text : List Char} :
    text ∈ (optional power).matches' ↔ ∃ power, Power.chars power = text := by
  rw [mem_optional_iff, power, mem_mul_iff]
  constructor
  · rintro (rfl | ⟨front, hfront, back, hback, rfl⟩)
    · exact ⟨none, rfl⟩
    · obtain ⟨c, hc, rfl⟩ := mem_oneOf_iff.1 hfront
      obtain ⟨exponent, rfl⟩ := mem_integer_iff.1 hback
      rcases List.mem_pair.1 hc with rfl | rfl
      · exact ⟨some ⟨false, exponent⟩, rfl⟩
      · exact ⟨some ⟨true, exponent⟩, rfl⟩
  · rintro ⟨none | ⟨capital, exponent⟩, rfl⟩
    · exact .inl rfl
    · refine .inr ⟨_, mem_oneOf_iff.2 ⟨if capital then 'E' else 'e', ?_, rfl⟩, exponent.chars,
        mem_integer_iff.2 ⟨exponent, rfl⟩, rfl⟩
      cases capital <;> simp

/-- The digits of a decimal, with the point among them. -/
lemma mem_body_iff {text : List Char} :
    text ∈ (digits * optional (char '.' * star digit) + char '.' * digits).matches' ↔
      ∃ (count : Nat) (whole : Numeral count) (places : Option Places),
        1 ≤ count + Places.length places ∧ whole.chars ++ Places.chars places = text := by
  rw [mem_add_iff, mem_mul_iff, mem_mul_iff]
  constructor
  · rintro (⟨front, hfront, back, hback, rfl⟩ | ⟨_, rfl, back, hback, rfl⟩)
    · obtain ⟨count, whole, hcount, rfl⟩ := Numeral.exists_chars_iff.2 (mem_digits_iff.1 hfront)
      rcases mem_optional_iff.1 hback with rfl | hpoint
      · exact ⟨count, whole, none, hcount, rfl⟩
      · obtain ⟨_, rfl, after, hafter, rfl⟩ := mem_mul_iff.1 hpoint
        obtain ⟨digits, hdigits⟩ := Numeral.exists_chars_eq rfl (mem_star_digit_iff.1 hafter)
        refine ⟨count, whole, some ⟨after.length, digits⟩, Nat.le_add_right_of_le hcount, ?_⟩
        rw [Places.chars, hdigits]
        rfl
    · obtain ⟨count, digits, hcount, rfl⟩ := Numeral.exists_chars_iff.2 (mem_digits_iff.1 hback)
      exact ⟨0, ⟨[], rfl⟩, some ⟨count, digits⟩, Nat.le_add_left_of_le hcount, rfl⟩
  · rintro ⟨count, whole, places, hcount, rfl⟩
    by_cases hzero : count = 0
    · -- All digits stand after the point, so there is one.
      subst hzero
      rcases places with _ | ⟨after, digits⟩
      · simp [Places.length] at hcount
      · have hnil : whole.chars = [] := List.length_eq_zero_iff.1 whole.length_chars
        rw [Places.length, Nat.zero_add] at hcount
        exact .inr ⟨['.'], rfl, digits.chars,
          mem_digits_iff.2 (Numeral.exists_chars_iff.1 ⟨after, digits, hcount, rfl⟩),
          by rw [hnil]; rfl⟩
    · refine .inl ⟨whole.chars, mem_digits_iff.2 (Numeral.exists_chars_iff.1
        ⟨count, whole, Nat.one_le_iff_ne_zero.2 hzero, rfl⟩), Places.chars places, ?_, rfl⟩
      rw [mem_optional_iff]
      rcases places with _ | ⟨after, digits⟩
      · exact .inl rfl
      · exact .inr (mem_mul_iff.2 ⟨['.'], rfl, digits.chars,
          mem_star_digit_iff.2 fun c => Numeral.isDigit_of_mem_chars, rfl⟩)

/-- **The texts of decimals** match their grammar, and only those. -/
theorem mem_decimal_iff {text : List Char} :
    text ∈ decimal.matches' ↔ ∃ spelling : DecimalSpelling, spelling.chars = text := by
  rw [decimal, mem_mul_iff]
  constructor
  · rintro ⟨front, hfront, back, hback, rfl⟩
    obtain ⟨mark, hmark, body, hbody, rfl⟩ := mem_mul_iff.1 hfront
    obtain ⟨mark, rfl⟩ := mem_sign_iff.1 hmark
    obtain ⟨count, whole, places, hcount, rfl⟩ := mem_body_iff.1 hbody
    obtain ⟨power, rfl⟩ := mem_power_iff.1 hback
    refine ⟨⟨mark, count, whole, places, power, hcount⟩, ?_⟩
    simp only [DecimalSpelling.chars, List.append_assoc]
  · rintro ⟨⟨mark, count, whole, places, power, hcount⟩, rfl⟩
    refine ⟨mark.chars ++ (whole.chars ++ Places.chars places), mem_mul_iff.2 ⟨mark.chars,
      mem_sign_iff.2 ⟨mark, rfl⟩, _, mem_body_iff.2 ⟨count, whole, places, hcount, rfl⟩, rfl⟩,
      Power.chars power, mem_power_iff.2 ⟨power, rfl⟩, ?_⟩
    simp only [DecimalSpelling.chars, List.append_assoc]

end Grammar

end Conform.Decimal
