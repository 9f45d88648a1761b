import Conform.Json
import Conform.Json.Tree
import Conform.Proofs.Decimal.Digits

/-!
# JSON scalars written and read

What a scalar is written as is read back from the front of any text that goes on in a way in which
numbers end.  A reading carries the proof that it leaves less than it was given; `taken` forgets it,
so that readings of different texts can be compared.
-/

namespace Conform.Json

open Decimal

/-- What a reading takes off the front of a text, and what it leaves. -/
def taken {α : Type} {text : List Char} (reading : Reading α text) : Except Fault (α × List Char) :=
  reading.map fun read => (read.value, read.rest)

section Taken

variable {α β : Type} {text middle : List Char}

lemma taken_eq_ok {reading : Reading α text} {value : α} {rest : List Char} :
    taken reading = .ok (value, rest) ↔
      ∃ read, reading = .ok read ∧ read.value = value ∧ read.rest = rest := by
  cases reading <;> simp [taken, Except.map]

lemma taken_eq_error {reading : Reading α text} {fault : Fault} :
    taken reading = .error fault ↔ reading = .error fault := by
  cases reading <;> simp [taken, Except.map]

@[simp] lemma taken_after (first : Char) (reading : Reading α text) :
    taken (reading.map fun read => read.after first) = taken reading := by
  cases reading <;> rfl

@[simp] lemma taken_within (h : middle.length ≤ text.length) (reading : Reading α middle) :
    taken (reading.map fun read => read.within h) = taken reading := by
  cases reading <;> rfl

@[simp] lemma taken_map (f : α → β) (reading : Reading α text) :
    taken (reading.map fun read => read.map f) = (taken reading).map (Prod.map f id) := by
  cases reading <;> rfl

end Taken

/-! ## Strings -/

/-- The code point of a control character has two digits and zeros in front. -/
lemma hexadecimal_eq : ∀ n < 0x20,
    hexadecimal n = ['0', '0', Nat.digitChar (n / 16), Nat.digitChar (n % 16)] ∧
      hexNumber? '0' '0' (Nat.digitChar (n / 16)) (Nat.digitChar (n % 16)) = some n := by
  decide

/-- A character is written as a letter that stands for it, as its code point, or as itself. -/
lemma escape_cases (c : Char) :
    (∃ letter, escape c = ['\\', letter] ∧ shortEscape? letter = some c) ∨
    (c.toNat < 0x20 ∧ escape c = '\\' :: 'u' :: hexadecimal c.toNat) ∨
    (c ≠ '"' ∧ c ≠ '\\' ∧ 0x20 ≤ c.toNat ∧ escape c = [c]) := by
  unfold escape
  split_ifs with hquote hslash hbackspace hfeed hline hreturn htab hcontrol
  any_goals
    subst_vars
    exact .inl ⟨_, rfl, rfl⟩
  · exact .inr (.inl ⟨hcontrol, rfl⟩)
  · exact .inr (.inr ⟨hquote, hslash, Nat.le_of_not_lt hcontrol, rfl⟩)

lemma taken_hexNumber {a b c d : Char} {n : Nat} (h : hexNumber? a b c d = some n)
    (rest : List Char) : taken (hexNumber (a :: b :: c :: d :: rest)) = .ok (n, rest) := by
  simp only [hexNumber, h]
  rfl

lemma taken_codePoint (c : Char) (hcontrol : c.toNat < 0x20) (tail : List Char) :
    taken (codePoint (hexadecimal c.toNat ++ tail)) = .ok (c, tail) := by
  obtain ⟨hdigits, hnumber⟩ := hexadecimal_eq c.toNat hcontrol
  obtain ⟨read, hread, hvalue, hrest⟩ := taken_eq_ok.1 (taken_hexNumber hnumber tail)
  have hlow : ¬ (0xDC00 ≤ read.value ∧ read.value ≤ 0xDFFF) := by omega
  have hhigh : ¬ (0xD800 ≤ read.value ∧ read.value ≤ 0xDBFF) := by omega
  rw [hdigits]
  simp only [List.cons_append, List.nil_append]
  rw [codePoint, hread]
  simp only [bind, Except.bind, hlow, hhigh, if_false]
  have hchar : Char.ofNat read.value = c := by rw [hvalue, Char.ofNat_toNat]
  exact congrArg Except.ok (Prod.ext hchar hrest)

/-- A character is read as it was written. -/
lemma taken_escape (c : Char) (tail : List Char) : ∃ first rest, escape c ++ tail = first :: rest ∧
    first ≠ '"' ∧ taken (stringChar first rest) = .ok (c, tail) := by
  obtain ⟨letter, hescape, hletter⟩ | ⟨hcontrol, hescape⟩ | ⟨hquote, hslash, hprint, hescape⟩ :=
    escape_cases c
  · refine ⟨'\\', letter :: tail, by rw [hescape]; rfl, by decide, ?_⟩
    rw [stringChar, if_pos rfl, escaped, hletter]
    rfl
  · refine ⟨'\\', 'u' :: hexadecimal c.toNat ++ tail, by rw [hescape]; rfl, by decide, ?_⟩
    show taken (stringChar '\\' ('u' :: (hexadecimal c.toNat ++ tail))) = _
    rw [stringChar, if_pos rfl, taken_after]
    exact (taken_after 'u' _).trans (taken_codePoint c hcontrol tail)
  · refine ⟨c, tail, by rw [hescape]; rfl, hquote, ?_⟩
    rw [stringChar, if_neg hslash, if_neg (Nat.not_lt.2 hprint)]
    rfl

/-- A string is read as it was written. -/
lemma taken_stringChars (text tail : List Char) :
    taken (stringChars (writeChars text tail)) = .ok (text, tail) := by
  induction text with
  | nil =>
    rw [writeChars, stringChars]
    rfl
  | cons c text ih =>
    obtain ⟨first, rest, hescape, hquote, hread⟩ := taken_escape c (writeChars text tail)
    obtain ⟨char, hchar, rfl, hrest⟩ := taken_eq_ok.1 hread
    rw [← hrest] at ih
    obtain ⟨more, hmore, rfl, rfl⟩ := taken_eq_ok.1 ih
    rw [writeChars, hescape, stringChars, if_neg hquote, hchar]
    dsimp only
    rw [hmore]
    rfl

lemma taken_stringText (text : String) (tail : List Char) :
    taken (stringText (writeChars text.toList tail)) = .ok (text, tail) := by
  rw [stringText, taken_map, taken_stringChars]
  exact congrArg (fun content => Except.ok (content, tail)) String.ofList_toList

/-! ## Integers -/

/-- A text goes on in a way in which a number ends. -/
def Delimited (tail : List Char) : Prop := ∀ c ∈ tail.head?, c = ',' ∨ c = ']' ∨ c = '}'

lemma Delimited.isDigit_eq_false {tail : List Char} (h : Delimited tail) :
    ∀ c ∈ tail.head?, c.isDigit = false := by
  intro c hc
  obtain rfl | rfl | rfl := h c hc <;> decide

/-- Digits are gathered up to the end of the number when it is in bounds. -/
lemma gather_append {bound : Nat} {digits tail : List Char}
    (hdigits : ∀ c ∈ digits, c.isDigit = true) (htail : ∀ c ∈ tail.head?, c.isDigit = false)
    {start : Nat} (hbound : Nat.ofDigitChars 10 digits start < bound) :
    gather bound start (digits ++ tail) =
      (Nat.ofDigitChars 10 digits start, digits.length, tail) := by
  induction digits generalizing start with
  | nil =>
    cases tail with
    | nil => rfl
    | cons c tail =>
      have hc : c.isDigit = false := htail c rfl
      simp [gather, hc, Nat.ofDigitChars]
  | cons c digits ih =>
    obtain ⟨hc, hdigits⟩ := List.forall_mem_cons.1 hdigits
    have hnext : 10 * start + (c.toNat - '0'.toNat) = start * 10 + digitValue c := by
      rw [digitValue, Nat.mul_comm]
    rw [Nat.ofDigitChars_cons, hnext] at hbound
    have hfits : start * 10 + digitValue c < bound := by
      refine Nat.lt_of_le_of_lt ?_ hbound
      rw [Nat.ofDigitChars_eq_ofDigitChars_zero]
      exact Nat.le_add_right_of_le (Nat.le_mul_of_pos_left _ (Nat.pow_pos (by decide)))
    rw [List.cons_append, gather, if_pos ⟨hc, hfits⟩, ih hdigits hbound, Nat.ofDigitChars_cons,
      hnext]
    rfl

/-- The digits of a positive number start with one that is not zero. -/
lemma exists_toDigits_eq_cons {n : Nat} (h : 0 < n) :
    ∃ c rest, Nat.toDigits 10 n = c :: rest ∧ c ≠ '0' := by
  induction n using Nat.strongRecOn with
  | ind n ih =>
    by_cases hsmall : n < 10
    · refine ⟨_, [], Nat.toDigits_of_lt_base hsmall, ?_⟩
      rw [Ne, Nat.digitChar_eq_zero]
      omega
    · obtain ⟨c, rest, hdigits, hc⟩ := ih (n / 10) (by omega) (by omega)
      have hsplit := Nat.toDigits_of_base_le (b := 10) (by decide) (Nat.le_of_not_lt hsmall)
      exact ⟨c, rest ++ [(n % 10).digitChar], by rw [hsplit, hdigits]; rfl, hc⟩

lemma afterWhole_delimited {tail : List Char} (htail : Delimited tail) (negative : Bool)
    (digits : Nat) :
    afterWhole negative digits 0 tail = .ok (wholeNumber negative digits, tail) := by
  cases tail with
  | nil => rfl
  | cons c tail => obtain rfl | rfl | rfl := htail c rfl <;> rfl

lemma magnitude_zero {tail : List Char} (htail : Delimited tail) (negative : Bool) :
    magnitude negative ('0' :: tail) = .ok (wholeNumber negative 0, tail) := by
  have hnone : tail.head?.any Char.isDigit = false := by
    cases tail with
    | nil => rfl
    | cons c tail => exact htail.isDigit_eq_false c rfl
  show (if tail.head?.any Char.isDigit = true then _ else afterWhole negative 0 0 tail) = _
  rw [hnone]
  exact afterWhole_delimited htail negative 0

/-- The digits of a number that is in bounds are read as this number. -/
lemma magnitude_toDigits {tail : List Char} (htail : Delimited tail) (negative : Bool) {n : Nat}
    (hbound : n < digitsBound) :
    magnitude negative (Nat.toDigits 10 n ++ tail) = .ok (wholeNumber negative n, tail) := by
  obtain rfl | hpos := Nat.eq_zero_or_pos n
  · exact magnitude_zero htail negative
  have hdigits : ∀ c ∈ Nat.toDigits 10 n, c.isDigit = true := fun c =>
    Nat.isDigit_of_mem_toDigits (by decide) (by decide)
  have hvalue : Nat.ofDigitChars 10 (Nat.toDigits 10 n) 0 = n := Nat.ofDigitChars_ten_toDigits
  have hgather : gather digitsBound 0 (Nat.toDigits 10 n ++ tail) =
      (n, (Nat.toDigits 10 n).length, tail) := by
    have hall := gather_append hdigits htail.isDigit_eq_false (hvalue.symm ▸ hbound)
    rwa [hvalue] at hall
  have hspan : span tail = ([], tail) :=
    @span_append [] tail (by simp) htail.isDigit_eq_false
  obtain ⟨c, rest, hcons, hzero⟩ := exists_toDigits_eq_cons hpos
  have hc : c.isDigit = true := hdigits c (by simp [hcons])
  rw [hcons, List.cons_append] at hgather ⊢
  unfold magnitude
  split
  case h_1 heq => cases heq
  case h_2 heq => exact absurd (List.cons.inj heq).1 hzero
  case h_3 first more _ heq =>
    obtain ⟨rfl, rfl⟩ := List.cons.inj heq
    rw [if_pos hc, hgather]
    dsimp only
    rw [hspan]
    exact afterWhole_delimited htail negative n

/-- The size of a word of 64 bits with its sign in front is the word. -/
lemma wholeNumber_natAbs (word : Int64) :
    wholeNumber (word.toInt < 0) word.toInt.natAbs = .integer word.toInt := by
  by_cases hnegative : word.toInt < 0
  · have hsize : -(word.toInt.natAbs : Int) = word.toInt := by omega
    have hfits : word.toInt.natAbs ≠ 0 ∧ Word.fits (-word.toInt.natAbs) = true := by
      rw [hsize]
      exact ⟨by omega, Word.fits_toInt word⟩
    rw [wholeNumber, decide_eq_true hnegative, if_pos rfl, if_pos hfits, hsize]
  · have hsize : (word.toInt.natAbs : Int) = word.toInt := by omega
    rw [wholeNumber, decide_eq_false hnegative, if_neg Bool.false_ne_true, hsize]

lemma taken_number (first : Char) (rest : List Char) :
    taken (number first rest) =
      magnitude (first = '-') (if first = '-' then rest else first :: rest) := by
  rw [number]
  dsimp only [taken]
  split
  next fault hread => exact hread.symm
  next json after hread => exact hread.symm

/-- A character that starts a scalar. -/
def StartsScalar (first : Char) : Prop :=
  first = 'n' ∨ first = 't' ∨ first = 'f' ∨ first = '"' ∨ first = '-' ∨ first.isDigit = true

/-- A text starts with a scalar and goes on with a tail. -/
def ReadsScalar (text : List Char) (json : Json) (tail : List Char) : Prop :=
  ∃ first rest, text = first :: rest ∧ StartsScalar first ∧
    taken (scalar first rest) = .ok (json, tail)

lemma scalar_of_number {first : Char} (h : first = '-' ∨ first.isDigit = true)
    (rest : List Char) : scalar first rest = number first rest := by
  have hne : first ≠ 'n' ∧ first ≠ 't' ∧ first ≠ 'f' ∧ first ≠ '"' := by
    refine ⟨?_, ?_, ?_, ?_⟩ <;> rintro rfl <;> revert h <;> decide
  obtain ⟨hnull, htrue, hfalse, hquote⟩ := hne
  rw [scalar, if_neg hnull, if_neg htrue, if_neg hfalse, if_neg hquote, if_pos h]

/-- A word of 64 bits is read as it was written. -/
lemma readsScalar_integer (word : Int64) {tail : List Char} (htail : Delimited tail) :
    ReadsScalar (writeInteger word.toInt tail) (.integer word.toInt) tail := by
  have hlow : -2 ^ 63 ≤ word.toInt := word.le_toInt
  have hhigh : word.toInt < 2 ^ 63 := word.toInt_lt
  have hbound : word.toInt.natAbs < digitsBound := by
    show _ < 18446744073709551616
    omega
  have hread := magnitude_toDigits htail (word.toInt < 0) hbound
  rw [wholeNumber_natAbs] at hread
  by_cases hnegative : word.toInt < 0
  · refine ⟨'-', Nat.toDigits 10 word.toInt.natAbs ++ tail, ?_, by simp [StartsScalar], ?_⟩
    · rw [writeInteger, if_pos hnegative]
      rfl
    · rw [scalar_of_number (.inl rfl), taken_number]
      rwa [decide_eq_true hnegative] at hread
  · obtain ⟨first, rest, hdigits⟩ := List.exists_cons_of_ne_nil
      (Nat.toDigits_ne_nil (n := word.toInt.natAbs) (b := 10))
    have hfirst : first.isDigit = true :=
      Nat.isDigit_of_mem_toDigits (by decide) (by decide) (hdigits ▸ List.mem_cons_self)
    have hminus : first ≠ '-' := by
      rintro rfl
      cases hfirst
    refine ⟨first, rest ++ tail, ?_, by simp [StartsScalar, hfirst], ?_⟩
    · rw [writeInteger, if_neg hnegative, hdigits]
      rfl
    · rw [scalar_of_number (.inr hfirst), taken_number, if_neg hminus, decide_eq_false hminus]
      rwa [decide_eq_false hnegative, hdigits] at hread

/-! ## Other scalars -/

lemma readsScalar_string (text : String) (tail : List Char) :
    ReadsScalar (writeString text tail) (.string text) tail := by
  refine ⟨'"', writeChars text.toList tail, rfl, by simp [StartsScalar], ?_⟩
  obtain ⟨read, hread, hvalue, hrest⟩ := taken_eq_ok.1 (taken_stringText text tail)
  have hscalar : scalar '"' (writeChars text.toList tail) =
      (stringText (writeChars text.toList tail)).map fun read => (read.map .string).after '"' := rfl
  rw [hscalar, hread]
  exact congrArg Except.ok (Prod.ext (congrArg Json.string hvalue) hrest)

lemma readsScalar_null (tail : List Char) : ReadsScalar (writeNull tail) .null tail :=
  ⟨'n', 'u' :: 'l' :: 'l' :: tail, rfl, .inl rfl, rfl⟩

lemma readsScalar_boolean (truth : Bool) (tail : List Char) :
    ReadsScalar (writeBoolean truth tail) (.boolean truth) tail := by
  cases truth with
  | true => exact ⟨'t', 'r' :: 'u' :: 'e' :: tail, rfl, .inr (.inl rfl), rfl⟩
  | false => exact ⟨'f', 'a' :: 'l' :: 's' :: 'e' :: tail, rfl, .inr (.inr (.inl rfl)), rfl⟩

end Conform.Json
