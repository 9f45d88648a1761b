import Conform.Coercion
import Conform.Proofs.Decimal.Spellings
import Mathlib.Data.String.Basic

/-!
# The literals of integers and floats

Texts stand for integers and floats by exact grammars, with nothing before or after the number.  The
reader takes every spelling apart into the parts that it is made of
(`Decimal.IntegerSpelling.integer?_chars`, `Decimal.DecimalSpelling.ofChars?_chars`) and takes
nothing but spellings (`Decimal.exists_of_integer?`, `Decimal.exists_of_ofChars?`).

An integer is taken with its exact value when 64 bits hold it, however many zeros stand in front
(`parseInteger_language`).  A decimal is converted to a float from its exact value, and is refused
when the float is infinite (`parseFloat_language`).
-/

namespace Conform

namespace Decimal

/-! ## Signs -/

lemma signed_negative (mark : SignMark) (size : Nat) :
    signed mark.negative size = mark.factor * size := by
  rw [signed, SignMark.factor]
  split
  · rw [neg_one_mul]
  · rw [one_mul]

/-- A sign is taken off the front when what follows does not start with one. -/
lemma sign_chars (mark : SignMark) {rest : List Char}
    (h : ∀ c ∈ rest.head?, c ≠ '+' ∧ c ≠ '-') :
    sign (mark.chars ++ rest) = (mark.negative, rest) := by
  cases mark with
  | plus => rfl
  | minus => rfl
  | absent =>
    rw [SignMark.chars, List.nil_append]
    unfold sign
    split
    · exact absurd rfl (h '+' rfl).1
    · exact absurd rfl (h '-' rfl).2
    · rfl

lemma exists_of_sign (text : List Char) :
    ∃ mark : SignMark, mark.chars ++ (sign text).2 = text ∧ mark.negative = (sign text).1 := by
  unfold sign
  split
  · exact ⟨.plus, rfl, rfl⟩
  · exact ⟨.minus, rfl, rfl⟩
  · exact ⟨.absent, rfl, rfl⟩

lemma ne_sign_of_isDigit {c : Char} (h : c.isDigit = true) : c ≠ '+' ∧ c ≠ '-' := by
  constructor
  · rintro rfl
    cases h
  · rintro rfl
    cases h

/-! ## Integers -/

theorem IntegerSpelling.integer?_chars (spelling : IntegerSpelling) :
    integer? spelling.chars = some spelling.number := by
  obtain ⟨hne, hdigits⟩ := Numeral.exists_chars_iff.1
    ⟨spelling.count, spelling.digits, spelling.one_at_least, rfl⟩
  have hsign : Decimal.sign spelling.chars = (spelling.sign.negative, spelling.digits.chars) := by
    apply sign_chars
    intro c hc
    exact ne_sign_of_isDigit (hdigits c (List.mem_of_mem_head? hc))
  rw [integer?, hsign]
  dsimp only
  rw [if_pos ⟨hne, List.all_eq_true.2 hdigits⟩, signed_negative, Numeral.value_chars, number]

theorem exists_of_integer? {text : List Char} {number : Int} (h : integer? text = some number) :
    ∃ spelling : IntegerSpelling, spelling.chars = text := by
  obtain ⟨mark, htext, -⟩ := exists_of_sign text
  rw [integer?] at h
  dsimp only at h
  split at h
  · rename_i hdigits
    obtain ⟨count, digits, hcount, hchars⟩ :=
      Numeral.exists_chars_iff.2 ⟨hdigits.1, List.all_eq_true.1 hdigits.2⟩
    refine ⟨⟨mark, count, digits, hcount⟩, ?_⟩
    rw [IntegerSpelling.chars, hchars, htext]
  · cases h

/-- Every integer has a spelling, without zeros in front and with no sign but a minus. -/
lemma IntegerSpelling.exists_of_int (number : Int) :
    ∃ spelling : IntegerSpelling, spelling.text = toString number ∧ spelling.number = number := by
  have hdigits (n : Nat) : ∃ (count : Nat) (digits : Numeral count), 1 ≤ count ∧
      digits.chars = Nat.toDigits 10 n ∧ digits.value = n := by
    have hrun : Nat.toDigits 10 n ≠ [] ∧ ∀ c ∈ Nat.toDigits 10 n, c.isDigit = true :=
      ⟨Nat.toDigits_ne_nil, fun c =>
        Nat.isDigit_of_mem_toDigits (by norm_num) (by norm_num)⟩
    obtain ⟨count, digits, hcount, hchars⟩ := Numeral.exists_chars_iff.2 hrun
    refine ⟨count, digits, hcount, hchars, ?_⟩
    rw [← Numeral.value_chars, hchars, Decimal.value]
    exact Nat.ofDigitChars_toDigits (by norm_num) (by norm_num)
  cases number with
  | ofNat n =>
    obtain ⟨count, digits, hcount, hchars, hvalue⟩ := hdigits n
    refine ⟨⟨.absent, count, digits, hcount⟩, ?_, ?_⟩
    · rw [text, chars, hchars]
      rfl
    · rw [IntegerSpelling.number, hvalue]
      exact one_mul _
  | negSucc n =>
    obtain ⟨count, digits, hcount, hchars, hvalue⟩ := hdigits (n + 1)
    refine ⟨⟨.minus, count, digits, hcount⟩, ?_, ?_⟩
    · rw [text, chars, hchars, String.ofList_append]
      rfl
    · rw [IntegerSpelling.number, hvalue]
      exact neg_one_mul _

/-! ## Decimals -/

lemma exponent?_chars (power : Option Power) :
    Literal.exponent? (Power.chars power) = some (Power.number power) := by
  rcases power with _ | ⟨capital, exponent⟩
  · rfl
  · cases capital <;> exact exponent.integer?_chars

lemma exists_of_exponent? {text : List Char} {exponent : Int}
    (h : Literal.exponent? text = some exponent) : ∃ power, Power.chars power = text := by
  unfold Literal.exponent? at h
  split at h
  · exact ⟨none, rfl⟩
  · obtain ⟨spelling, rfl⟩ := exists_of_integer? h
    exact ⟨some ⟨false, spelling⟩, rfl⟩
  · obtain ⟨spelling, rfl⟩ := exists_of_integer? h
    exact ⟨some ⟨true, spelling⟩, rfl⟩
  · cases h

/-- A power of ten starts with neither a digit nor a point. -/
lemma head?_power {power : Option Power} {c : Char} (h : c ∈ (Power.chars power).head?) :
    c.isDigit = false ∧ c ≠ '.' := by
  rcases power with _ | ⟨capital, exponent⟩
  · cases h
  · have hletter : (if capital then 'E' else 'e') = c := Option.some.inj h
    rw [← hletter]
    cases capital <;> decide

/-- The digits after the point, without the point. -/
def Places.digitChars : Option Places → List Char
  | none => []
  | some places => places.digits.chars

lemma Places.length_digitChars (places : Option Places) :
    (digitChars places).length = length places := by
  cases places with
  | none => rfl
  | some places => exact places.digits.length_chars

lemma Places.value_digitChars (places : Option Places) :
    Decimal.value (digitChars places) = value places := by
  cases places with
  | none => rfl
  | some places => exact places.digits.value_chars

lemma pointed_chars (places : Option Places) (power : Option Power) :
    Literal.pointed (Places.chars places ++ Power.chars power) =
      (Places.digitChars places, Power.chars power) := by
  rcases places with _ | ⟨count, digits⟩
  · rw [Places.chars, List.nil_append]
    unfold Literal.pointed
    split
    · rename_i heq
      have hpoint : '.' ∈ (Power.chars power).head? := by rw [heq]; rfl
      exact absurd rfl (head?_power hpoint).2
    · rfl
  · exact span_append (fun c => Numeral.isDigit_of_mem_chars) fun c hc => (head?_power hc).1

lemma exists_of_pointed (text : List Char) : ∃ places,
    Places.chars places ++ (Literal.pointed text).2 = text ∧
      Places.digitChars places = (Literal.pointed text).1 := by
  unfold Literal.pointed
  split
  · rename_i text
    have hdigits : ∀ c ∈ (span text).1, c.isDigit = true := fun c hc => List.mem_takeWhile_imp hc
    have hsplit : (span text).1 ++ (span text).2 = text := List.takeWhile_append_dropWhile
    obtain ⟨digits, hchars⟩ := Numeral.exists_chars_eq rfl hdigits
    refine ⟨some ⟨_, digits⟩, ?_, hchars⟩
    rw [Places.chars, hchars, List.cons_append, hsplit]
  · exact ⟨none, rfl, rfl⟩

/-- Digits in front count for more, by as many places as there are digits behind them. -/
lemma value_append (digits more : List Char) :
    value (digits ++ more) = value digits * 10 ^ more.length + value more := by
  rw [value, Nat.ofDigitChars_append, Nat.ofDigitChars_eq_ofDigitChars_zero, Nat.mul_comm]
  rfl

lemma nearest_eq (significand : Nat) (exponent : Int) : Literal.nearest significand exponent =
    Float.ofScientific significand (exponent < 0) exponent.natAbs := by
  unfold Literal.nearest
  split
  · rename_i hneg
    rw [decide_eq_true hneg]
  · rename_i hpos
    have habs : exponent.toNat = exponent.natAbs := by omega
    rw [decide_eq_false hpos, habs]

namespace DecimalSpelling

/-- The parts that reading takes a spelling apart into. -/
def literal (spelling : DecimalSpelling) : Literal :=
  ⟨spelling.sign.negative, spelling.whole.chars, Places.digitChars spelling.places,
    Power.number spelling.power⟩

lemma digits_ne_nil (spelling : DecimalSpelling) :
    ¬ (spelling.whole.chars = [] ∧ Places.digitChars spelling.places = []) := by
  rintro ⟨hwhole, hplaces⟩
  have hcount := spelling.one_at_least
  rw [← spelling.whole.length_chars, ← Places.length_digitChars, hwhole, hplaces] at hcount
  exact absurd hcount (by decide)

/-- Behind the sign there is a digit or a point. -/
lemma head?_unsigned (spelling : DecimalSpelling) {c : Char}
    (h : c ∈ (spelling.whole.chars ++
      (Places.chars spelling.places ++ Power.chars spelling.power)).head?) :
    c ≠ '+' ∧ c ≠ '-' := by
  by_cases hwhole : spelling.whole.chars = []
  · rcases hplaces : spelling.places with _ | places
    · exact absurd ⟨hwhole, by rw [hplaces]; rfl⟩ spelling.digits_ne_nil
    · rw [hwhole, hplaces] at h
      cases h
      decide
  · rw [List.head?_append_of_ne_nil _ hwhole] at h
    exact ne_sign_of_isDigit (Numeral.isDigit_of_mem_chars (List.mem_of_mem_head? h))

theorem ofChars?_chars (spelling : DecimalSpelling) :
    Literal.ofChars? spelling.chars = some spelling.literal := by
  have hsign := sign_chars spelling.sign fun c => spelling.head?_unsigned
  have hspan : span (spelling.whole.chars ++
      (Places.chars spelling.places ++ Power.chars spelling.power)) =
        (spelling.whole.chars, Places.chars spelling.places ++ Power.chars spelling.power) := by
    apply span_append fun c => Numeral.isDigit_of_mem_chars
    intro c hc
    rcases hplaces : spelling.places with _ | places
    · rw [hplaces] at hc
      exact (head?_power hc).1
    · rw [hplaces] at hc
      cases hc
      rfl
  rw [Literal.ofChars?, chars, hsign]
  dsimp only
  rw [hspan]
  dsimp only
  rw [pointed_chars]
  dsimp only
  rw [if_neg spelling.digits_ne_nil, exponent?_chars]
  rfl

/-- The parts are converted as their spelling says. -/
lemma toFloat_literal (spelling : DecimalSpelling) :
    spelling.literal.toFloat = spelling.toFloat := by
  have hsignificand : value (spelling.whole.chars ++ Places.digitChars spelling.places) =
      spelling.significand := by
    rw [value_append, Numeral.value_chars, Places.value_digitChars, Places.length_digitChars,
      significand]
  rw [Literal.toFloat, toFloat, literal, nearest_eq]
  dsimp only
  rw [hsignificand, Places.length_digitChars, ← scale]

end DecimalSpelling

theorem exists_of_ofChars? {text : List Char} {literal : Literal}
    (h : Literal.ofChars? text = some literal) :
    ∃ spelling : DecimalSpelling, spelling.chars = text := by
  obtain ⟨mark, hmark, -⟩ := exists_of_sign text
  rw [Literal.ofChars?] at h
  dsimp only at h
  generalize (sign text).2 = unsigned at hmark h
  have hdigits : ∀ c ∈ (span unsigned).1, c.isDigit = true :=
    fun c hc => List.mem_takeWhile_imp hc
  have hsplit : (span unsigned).1 ++ (span unsigned).2 = unsigned :=
    List.takeWhile_append_dropWhile
  obtain ⟨whole, hwhole⟩ := Numeral.exists_chars_eq rfl hdigits
  obtain ⟨places, hplaces, hfraction⟩ := exists_of_pointed (span unsigned).2
  split at h
  · cases h
  · rename_i hne
    obtain ⟨exponent, hexponent, -⟩ := Option.map_eq_some_iff.1 h
    obtain ⟨power, hpower⟩ := exists_of_exponent? hexponent
    have hcount : 1 ≤ (span unsigned).1.length + Places.length places := by
      rw [← Places.length_digitChars, hfraction, Nat.one_le_iff_ne_zero, Ne,
        Nat.add_eq_zero_iff, List.length_eq_zero_iff, List.length_eq_zero_iff]
      exact hne
    refine ⟨⟨mark, _, whole, places, power, hcount⟩, ?_⟩
    rw [DecimalSpelling.chars, hwhole, hpower, hplaces, hsplit, hmark]

end Decimal

open Decimal

/-! ## Texts -/

lemma parseInteger_text (spelling : IntegerSpelling) :
    parseInteger spelling.text = Word.ofInt? spelling.number := by
  rw [parseInteger, IntegerSpelling.text, String.toList_ofList, spelling.integer?_chars,
    Option.bind_some]

lemma parseInteger_eq_some_iff {text : String} {number : Int64} :
    parseInteger text = some number ↔
      ∃ spelling : IntegerSpelling, spelling.text = text ∧ number.toInt = spelling.number := by
  constructor
  · intro h
    obtain ⟨integer, hinteger, -⟩ := Option.bind_eq_some_iff.1 h
    obtain ⟨spelling, hchars⟩ := exists_of_integer? hinteger
    obtain rfl : spelling.text = text := String.ofList_eq.2 hchars
    rw [parseInteger_text, Word.ofInt?_eq_some_iff] at h
    exact ⟨spelling, rfl, h⟩
  · rintro ⟨spelling, rfl, hnumber⟩
    rw [parseInteger_text, Word.ofInt?_eq_some_iff]
    exact hnumber

lemma parseFloat_text (spelling : DecimalSpelling) : parseFloat spelling.text =
    if spelling.toFloat.isFinite then some spelling.toFloat else none := by
  rw [parseFloat, DecimalSpelling.text, String.toList_ofList, spelling.ofChars?_chars,
    Option.bind_eq_bind, Option.bind_some, spelling.toFloat_literal]

lemma parseFloat_eq_some_iff {text : String} {number : Float} :
    parseFloat text = some number ↔
      ∃ spelling : DecimalSpelling, spelling.text = text ∧ spelling.toFloat = number ∧
        number.isFinite = true := by
  constructor
  · intro h
    obtain ⟨literal, hliteral, -⟩ := Option.bind_eq_some_iff.1 h
    obtain ⟨spelling, hchars⟩ := exists_of_ofChars? hliteral
    obtain rfl : spelling.text = text := String.ofList_eq.2 hchars
    rw [parseFloat_text, Option.ite_none_right_eq_some, Option.some.injEq] at h
    obtain ⟨hfinite, rfl⟩ := h
    exact ⟨spelling, rfl, rfl, hfinite⟩
  · rintro ⟨spelling, rfl, rfl, hfinite⟩
    rw [parseFloat_text, if_pos hfinite]

/-- A text is refused when it is no spelling, or one of a number that is too large. -/
lemma parseFloat_eq_none_iff {text : String} :
    parseFloat text = none ↔ (¬ ∃ spelling : DecimalSpelling, spelling.text = text) ∨
      ∃ spelling : DecimalSpelling, spelling.text = text ∧ spelling.toFloat.isFinite = false := by
  by_cases hspelt : ∃ spelling : DecimalSpelling, spelling.text = text
  · rw [or_iff_right (not_not_intro hspelt)]
    constructor
    · intro h
      obtain ⟨spelling, rfl⟩ := hspelt
      rw [parseFloat_text] at h
      split at h
      · cases h
      · rename_i hinfinite
        exact ⟨spelling, rfl, Bool.eq_false_iff.2 hinfinite⟩
    · rintro ⟨spelling, rfl, hinfinite⟩
      rw [parseFloat_text, if_neg (Bool.eq_false_iff.1 hinfinite)]
  · refine iff_of_true ?_ (.inl hspelt)
    rw [Option.eq_none_iff_forall_ne_some]
    intro number hnumber
    obtain ⟨spelling, htext, -⟩ := parseFloat_eq_some_iff.1 hnumber
    exact hspelt ⟨spelling, htext⟩

/-- Finite floats are those that are neither infinite nor NaN. -/
lemma isFinite_iff {number : Float} :
    number.isFinite = true ↔ number.isNaN = false ∧ number.isInf = false := by
  show number.toModel.unpack.isFinite = true ↔
    number.toModel.unpack.isNaN = false ∧ number.toModel.unpack.isInf = false
  cases number.toModel.unpack with
  | notANumber => exact iff_of_false Bool.false_ne_true fun h => Bool.false_ne_true h.1.symm
  | infinity => exact iff_of_false Bool.false_ne_true fun h => Bool.false_ne_true h.2.symm
  | zero => exact iff_of_true rfl ⟨rfl, rfl⟩
  | finite => exact iff_of_true rfl ⟨rfl, rfl⟩

/-- **The texts of integers.**  A text is read as an integer when it spells it out; it can be
anything in its grammar whose number is in the range of 64 bits. -/
theorem parseInteger_language :
    (∀ text number, parseInteger text = some number ↔
      ∃ spelling : IntegerSpelling, spelling.text = text ∧ number.toInt = spelling.number) ∧
    (∀ text, (∃ number, parseInteger text = some number) ↔
      ∃ spelling : IntegerSpelling, spelling.text = text ∧
        -2 ^ 63 ≤ spelling.number ∧ spelling.number ≤ 2 ^ 63 - 1) ∧
    (∀ text : String, (∃ spelling : IntegerSpelling, spelling.text = text) ↔
      text.toList ∈ Grammar.integer.matches') ∧
    ∀ number : Int64, parseInteger (toString number.toInt) = some number := by
  refine ⟨fun text number => parseInteger_eq_some_iff, fun text => ⟨?_, ?_⟩, ?_, ?_⟩
  · rintro ⟨number, hnumber⟩
    obtain ⟨spelling, htext, heq⟩ := parseInteger_eq_some_iff.1 hnumber
    have hlow := number.le_toInt
    have hhigh := number.toInt_lt
    rw [heq] at hlow hhigh
    exact ⟨spelling, htext, hlow, Int.le_sub_one_of_lt hhigh⟩
  · rintro ⟨spelling, htext, hlow, hhigh⟩
    refine ⟨Int64.ofInt spelling.number, parseInteger_eq_some_iff.2 ⟨spelling, htext, ?_⟩⟩
    exact Int64.toInt_ofInt_of_le hlow (Int.lt_of_le_sub_one hhigh)
  · intro text
    rw [Grammar.mem_integer_iff]
    exact exists_congr fun spelling => String.ofList_eq
  · intro number
    obtain ⟨spelling, htext, hnumber⟩ := IntegerSpelling.exists_of_int number.toInt
    exact parseInteger_eq_some_iff.2 ⟨spelling, htext, hnumber.symm⟩

/-- Zeros in front do not make a number too large, and the range goes one further below zero. -/
example : parseInteger "+0009223372036854775807" = some 9223372036854775807 ∧
    parseInteger "-9223372036854775808" = some (-9223372036854775808) ∧
    parseInteger "9223372036854775808" = none := by decide

/-- **The texts of floats.**  A text is read as a float when it spells out a number and the float
that this number is converted to is finite. -/
theorem parseFloat_language :
    (∀ text number, parseFloat text = some number ↔
      ∃ spelling : DecimalSpelling, spelling.text = text ∧ spelling.toFloat = number ∧
        number.isFinite = true) ∧
    (∀ text : String, parseFloat text = none ↔ text.toList ∉ Grammar.decimal.matches' ∨
      ∃ spelling : DecimalSpelling, spelling.text = text ∧ spelling.toFloat.isFinite = false) ∧
    (∀ text : String, (∃ spelling : DecimalSpelling, spelling.text = text) ↔
      text.toList ∈ Grammar.decimal.matches') ∧
    (∀ spelling : DecimalSpelling, spelling.number =
      spelling.sign.factor * spelling.significand * 10 ^ spelling.scale) ∧
    ∀ number : Float, number.isFinite = true ↔ number.isNaN = false ∧ number.isInf = false := by
  have hgrammar (text : String) : (∃ spelling : DecimalSpelling, spelling.text = text) ↔
      text.toList ∈ Grammar.decimal.matches' := by
    rw [Grammar.mem_decimal_iff]
    exact exists_congr fun spelling => String.ofList_eq
  refine ⟨fun text number => parseFloat_eq_some_iff, fun text => ?_, hgrammar,
    DecimalSpelling.number_eq, fun number => isFinite_iff⟩
  rw [← hgrammar]
  exact parseFloat_eq_none_iff

/-- Neither what other formats call a number nor a part of one is a float. -/
example : ∀ text ∈ ["inf", "NaN", "0x1p3", " 1.0", "1.0 ", ".", "-", "1e", "1_000", "٤٢"],
    parseFloat text = none := by decide

end Conform
