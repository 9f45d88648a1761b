import Conform.Proofs.Decimal.Digits
import Mathlib.Data.Nat.Digits.Lemmas
import Mathlib.Data.Set.List

/-!
# Numerals

A numeral is a row of decimal digits.  It has its characters, and the number that its digits stand
for by their places.  Reading a number of a fixed width takes the characters of a numeral of that
width, whatever follows (`Numeral.number?_chars`), and nothing else
(`Numeral.exists_of_number?`).
-/

namespace Conform.Decimal

/-- So many decimal digits, the first of which counts most. -/
structure Numeral (count : Nat) where
  digits : List (Fin 10)
  length_digits : digits.length = count

namespace Numeral

variable {count : Nat}

/-- The digits as they are written. -/
def chars (numeral : Numeral count) : List Char :=
  numeral.digits.map fun digit => Nat.digitChar digit.val

/-- The number that the digits stand for. -/
def value (numeral : Numeral count) : Nat :=
  Nat.ofDigits 10 (numeral.digits.map Fin.val).reverse

lemma length_chars (numeral : Numeral count) : numeral.chars.length = count := by
  rw [chars, List.length_map, numeral.length_digits]

lemma isDigit_of_mem_chars {numeral : Numeral count} {c : Char} (h : c ∈ numeral.chars) :
    c.isDigit = true := by
  obtain ⟨digit, -, rfl⟩ := List.mem_map.1 h
  rw [Nat.isDigit_digitChar, decide_eq_true digit.isLt]

lemma value_lt (numeral : Numeral count) : numeral.value < 10 ^ count := by
  have hdigits : ∀ digit ∈ (numeral.digits.map Fin.val).reverse, digit < 10 := by
    intro digit hdigit
    obtain ⟨small, -, rfl⟩ := List.mem_map.1 (List.mem_reverse.1 hdigit)
    exact small.isLt
  have hlt := Nat.ofDigits_lt_base_pow_length (by norm_num : 1 < 10) hdigits
  rwa [List.length_reverse, List.length_map, numeral.length_digits] at hlt

/-! ## Characters and numbers -/

/-- The characters of a numeral have its value. -/
lemma value_chars (numeral : Numeral count) : Decimal.value numeral.chars = numeral.value := by
  rw [chars, Decimal.value, value]
  induction numeral.digits with
  | nil => rfl
  | cons digit digits ih =>
    rw [List.map_cons, Nat.ofDigitChars_cons_digitChar_of_lt_ten digit.isLt,
      Nat.ofDigitChars_eq_ofDigitChars_zero, ih, List.map_cons, Nat.ofDigits_reverse_cons,
      List.length_map, List.length_map, Nat.mul_zero, Nat.zero_add, Nat.add_comm]

/-- The ten digits are the characters that count as such. -/
lemma exists_digitChar_eq {c : Char} (h : c.isDigit = true) :
    ∃ digit : Fin 10, Nat.digitChar digit.val = c := by
  obtain ⟨hlow, hhigh⟩ := Char.isDigit_iff_toNat.1 h
  have hzero : '0'.toNat = 48 := rfl
  have hnine : '9'.toNat = 57 := rfl
  have hlt : c.toNat - 48 < 10 := by omega
  refine ⟨⟨c.toNat - 48, hlt⟩, Char.toNat_inj.1 ?_⟩
  rw [Nat.toNat_digitChar_of_lt_ten hlt]
  omega

/-- Every run of digits is the row of a numeral. -/
lemma exists_chars_eq {digits : List Char} (hlength : digits.length = count)
    (h : ∀ c ∈ digits, c.isDigit = true) : ∃ numeral : Numeral count, numeral.chars = digits := by
  have hrow : digits ∈ Set.range (List.map fun digit : Fin 10 => Nat.digitChar digit.val) := by
    rw [Set.range_list_map]
    exact fun c hc => exists_digitChar_eq (h c hc)
  obtain ⟨row, rfl⟩ := hrow
  exact ⟨⟨row, (List.length_map _).symm.trans hlength⟩, rfl⟩

/-- Runs of at least one digit are the characters of numerals. -/
lemma exists_chars_iff {text : List Char} :
    (∃ (count : Nat) (numeral : Numeral count), 1 ≤ count ∧ numeral.chars = text) ↔
      text ≠ [] ∧ ∀ c ∈ text, c.isDigit = true := by
  constructor
  · rintro ⟨count, numeral, hcount, rfl⟩
    refine ⟨?_, fun c => isDigit_of_mem_chars⟩
    rw [← List.length_pos_iff, numeral.length_chars]
    exact hcount
  · rintro ⟨hne, hdigits⟩
    obtain ⟨numeral, hnumeral⟩ := exists_chars_eq rfl hdigits
    exact ⟨text.length, numeral, List.length_pos_iff.2 hne, hnumeral⟩

/-! ## Reading -/

theorem number?_chars (numeral : Numeral count) (rest : List Char) :
    number? count (numeral.chars ++ rest) = some (numeral.value, rest) := by
  have htake := take?_append (fun c (hc : c ∈ numeral.chars) => isDigit_of_mem_chars hc) rest
  rw [length_chars] at htake
  simp only [number?, htake, Option.map_some, value_chars]

/-- What is read as a number of a fixed width is a numeral. -/
theorem exists_of_number? {n : Nat} {text rest : List Char}
    (h : number? count text = some (n, rest)) :
    ∃ numeral : Numeral count, text = numeral.chars ++ rest := by
  obtain ⟨⟨digits, _⟩, htake, heq⟩ := Option.map_eq_some_iff.1 h
  obtain ⟨-, rfl⟩ := Prod.mk.inj heq
  obtain ⟨htext, hlength, hdigits⟩ := take?_eq_some htake
  obtain ⟨numeral, rfl⟩ := exists_chars_eq hlength hdigits
  exact ⟨numeral, htext⟩

/-! ## Writing -/

/-- A number that is written with a fixed width is written as a numeral. -/
lemma exists_of_padded {n : Nat} (hcount : 0 < count) (h : n < 10 ^ count) :
    ∃ numeral : Numeral count, numeral.chars = padded count n ∧ numeral.value = n := by
  obtain ⟨numeral, hchars⟩ :=
    exists_chars_eq (length_padded hcount h) fun c => isDigit_of_mem_padded
  refine ⟨numeral, hchars, ?_⟩
  rw [← value_chars, hchars, value_padded]

end Numeral

end Conform.Decimal
