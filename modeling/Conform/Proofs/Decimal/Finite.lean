import Conform.Coercion
import Mathlib.Data.List.TakeWhile
import Mathlib.Tactic.NormNum
import Mathlib.Tactic.Positivity

/-!
# Integers have finite floats

A decimal text whose float is infinite is refused, and an integer text is a decimal text.  That the
float of an integer of 64 bits is finite is read off the model of floats: rounding keeps 53 digits,
so a number below `2 ^ 64` ends with an exponent far below the one that stands for infinity.  Only
exponents are followed; what rounding does to the digits plays no part.
-/

namespace Conform.Decimal

open Float.Model Float.Model.UnpackedFloat

/-- The number is finite, and its last digit counts at most `2 ^ top`. -/
def Below (top : Int) : UnpackedFloat → Prop
  | .zero _ => True
  | .finite _ _ exponent _ => exponent ≤ top
  | _ => False

lemma Below.isFinite {top : Int} {u : UnpackedFloat} (h : Below top u) : u.isFinite = true := by
  cases u with
  | zero sign => rfl
  | finite sign mantissa exponent hm => rfl
  | infinity sign => exact h.elim
  | notANumber => exact h.elim

lemma Below.neg {top : Int} {u : UnpackedFloat} (h : Below top u) : Below top u.neg := by
  cases u with
  | zero sign => trivial
  | finite sign mantissa exponent hm => exact h
  | infinity sign => exact h.elim
  | notANumber => exact h.elim

lemma Below.mono {low top : Int} {u : UnpackedFloat} (h : Below low u) (hle : low ≤ top) :
    Below top u := by
  cases u with
  | zero sign => trivial
  | finite sign mantissa exponent hm => exact le_trans h hle
  | infinity sign => exact h.elim
  | notANumber => exact h.elim

/-! ## Rounding -/

lemma log2_lt_of_lt {n k : Nat} (hk : 0 < k) (h : n < 2 ^ k) : n.log2 < k := by
  by_cases hn : n = 0
  · subst hn
    simpa using hk
  · exact (Nat.log2_lt hn).2 h

lemma mantissa_shiftRight (em : ExtendedMantissa) (shift : Nat) :
    (em >>> shift).mantissa = em.mantissa / 2 ^ shift := by
  show (Nat.repeat ExtendedMantissa.shiftRightOne shift em).mantissa = _
  induction shift with
  | zero => simp [Nat.repeat]
  | succ shift ih =>
    show (Nat.repeat ExtendedMantissa.shiftRightOne shift em).mantissa / 2 = _
    rw [ih, Nat.div_div_eq_div_mul, Nat.pow_succ]

lemma roundedMantissa_le (em : ExtendedMantissa) : em.roundedMantissa ≤ em.mantissa + 1 := by
  rw [ExtendedMantissa.roundedMantissa]
  cases em.accuracy with
  | exact => exact Nat.le_succ em.mantissa
  | inexact position =>
    cases position with
    | lt => exact Nat.le_succ em.mantissa
    | eq =>
      show em.mantissa + em.mantissa % 2 ≤ em.mantissa + 1
      omega
    | gt => exact le_rfl

lemma targetExponent_eq (total : Int) :
    Format.binary64.targetExponent total = max (total - 53) (-1074) := rfl

lemma exponent_shiftToTargetExponent (mantissa : Nat) (exponent : Int) (accuracy : Accuracy) :
    (shiftToTargetExponent Format.binary64 mantissa exponent accuracy).2 =
      max exponent (max (totalExponent mantissa exponent - 53) (-1074)) := by
  rw [shiftToTargetExponent, shiftToExponent, targetExponent_eq]
  show exponent + ((_ - exponent).toNat : Int) = _
  omega

/-- Shifting to the target drops so many digits that at most 53 are left. -/
lemma mantissa_shiftToTargetExponent_lt (mantissa : Nat) (exponent : Int) :
    (shiftToTargetExponent Format.binary64 mantissa exponent .exact).1.mantissa < 2 ^ 53 := by
  rw [shiftToTargetExponent, shiftToExponent, targetExponent_eq]
  show (ExtendedMantissa.ofMantissaAndAccuracy mantissa .exact >>> (_ : Nat)).mantissa < 2 ^ 53
  rw [mantissa_shiftRight, Nat.div_lt_iff_lt_mul (by positivity), ← Nat.pow_add]
  calc mantissa < 2 ^ (mantissa.log2 + 1) := Nat.lt_log2_self
    _ ≤ 2 ^ (53 + _) := Nat.pow_le_pow_right (by norm_num) (by rw [totalExponent]; omega)

/-- Rounding keeps at most 53 digits, and rounding up may add one place. -/
lemma below_roundWithAccuracy {sign : Sign} {mantissa : Nat} {exponent : Int} (top : Int)
    (hlow : -1074 ≤ top) (hexp : exponent ≤ top)
    (htotal : totalExponent mantissa exponent ≤ top + 53) :
    Below (top + 1) (roundWithAccuracy Format.binary64 sign mantissa exponent .exact) := by
  have hfirst := exponent_shiftToTargetExponent mantissa exponent .exact
  have hrounded := roundedMantissa_le
    (shiftToTargetExponent Format.binary64 mantissa exponent .exact).1
  have hmantissa := mantissa_shiftToTargetExponent_lt mantissa exponent
  rw [roundWithAccuracy]
  generalize shiftToTargetExponent Format.binary64 mantissa exponent .exact = first at *
  have hlast := exponent_shiftToTargetExponent first.1.roundedMantissa first.2 .exact
  have hlog : first.1.roundedMantissa.log2 < 54 := log2_lt_of_lt (by norm_num) (by omega)
  dsimp only
  generalize shiftToTargetExponent Format.binary64 first.1.roundedMantissa first.2 .exact = last
    at *
  by_cases hnone : last.1.mantissa = 0
  · rw [dif_pos hnone]
    trivial
  · rw [dif_neg hnone]
    show last.2 ≤ top + 1
    rw [hlast, totalExponent]
    omega

/-- A number below `2 ^ (top + 53)` is rounded to one whose last digit is small enough. -/
lemma below_round {sign : Sign} {mantissa : Nat} {exponent : Int} (top : Int)
    (hlow : -1074 ≤ top) (htotal : totalExponent mantissa exponent ≤ top + 53) :
    Below (top + 1) (UnpackedFloat.round Format.binary64 sign mantissa exponent) := by
  simp only [UnpackedFloat.round, decreaseExponent, targetExponent_eq]
  generalize hshift : (exponent - max (totalExponent mantissa exponent - 53) (-1074)).toNat = shift
  have hlog : (mantissa <<< shift).log2 < mantissa.log2 + 1 + shift := by
    apply log2_lt_of_lt (by omega)
    rw [Nat.shiftLeft_eq, Nat.pow_add]
    exact Nat.mul_lt_mul_of_pos_right Nat.lt_log2_self (by positivity)
  simp only [totalExponent] at hshift htotal
  apply below_roundWithAccuracy top hlow
  · omega
  · rw [totalExponent]
    omega

/-! ## Components

A float is kept in 64 bits: its sign, 11 bits for the exponent and 52 for the digits. -/

lemma two_pow_le_toNat_append (mantissa : BitVec 52) : 2 ^ 52 ≤ (1#1 ++ mantissa).toNat := by
  rw [BitVec.toNat_append]
  exact Nat.left_le_or

/-- The number with the components.  Its first digit is left out of them, unless the exponent is the
least one; the greatest exponent is for what is no finite number. -/
def ofComponents (sign : Sign) (exponent : BitVec 11) (mantissa : BitVec 52) : UnpackedFloat :=
  if exponent = -1#11 then if mantissa = 0#52 then .infinity sign else .notANumber
  else if exponent = 0#11 then
    if h : mantissa = 0#52 then .zero sign
    else .finite sign mantissa.toNat (exponent.toNat - 1075 + 1) (BitVec.toNat_pos_of_ne_zero h)
  else .finite sign (1#1 ++ mantissa).toNat (exponent.toNat - 1075)
    ((Nat.two_pow_pos 52).trans_le (two_pow_le_toNat_append mantissa))

lemma unpack_eq (bits : BitVec Format.binary64.numBits) :
    UnpackedFloat.unpack Format.binary64 bits =
      ofComponents (Sign.ofBitVec (@unpackSign Format.binary64 bits))
        (@unpackExponent Format.binary64 bits) (@unpackMantissa Format.binary64 bits) := rfl

lemma unpackSign_packComponents {sign : Sign} {exponent : BitVec 11} {mantissa : BitVec 52} :
    @unpackSign Format.binary64 (packComponents Format.binary64 sign exponent mantissa) =
      sign.toBitVec := by
  show (sign.toBitVec ++ exponent ++ mantissa).extractLsb' 63 1 = sign.toBitVec
  rw [BitVec.extractLsb'_append_eq_of_le (by norm_num),
    BitVec.extractLsb'_append_eq_of_le (by norm_num)]
  exact BitVec.extractLsb'_eq_self

lemma ofBitVec_toBitVec (sign : Sign) : Sign.ofBitVec sign.toBitVec = sign := by
  cases sign with
  | positive => rfl
  | negative => rfl

lemma unpack_packComponents (sign : Sign) (exponent : BitVec 11) (mantissa : BitVec 52) :
    UnpackedFloat.unpack Format.binary64
        (packComponents Format.binary64 sign exponent mantissa) =
      ofComponents sign exponent mantissa := by
  rw [unpack_eq, unpackSign_packComponents, unpackExponent_packComponents,
    unpackMantissa_packComponents, ofBitVec_toBitVec]

/-- Components are those of a finite number unless all bits of the exponent are set. -/
lemma below_ofComponents {sign : Sign} {exponent : BitVec 11} (mantissa : BitVec 52)
    (h : exponent ≠ -1#11) : Below (max ((exponent.toNat : Int) - 1075) (-1074))
      (ofComponents sign exponent mantissa) := by
  rw [ofComponents, if_neg h]
  by_cases hfirst : exponent = 0#11
  · rw [if_pos hfirst]
    by_cases hnone : mantissa = 0#52
    · rw [dif_pos hnone]
      trivial
    · rw [dif_neg hnone]
      show (exponent.toNat : Int) - 1075 + 1 ≤ _
      rw [hfirst]
      norm_num
  · rw [if_neg hfirst]
    exact le_max_left ((exponent.toNat : Int) - 1075) (-1074)

/-- A finite number has the least exponent, or one of those between the least and the greatest and a
first digit that its components leave out. -/
lemma components_of_finite {exponent : BitVec 11} {mantissa : BitVec 52} {sign own : Sign}
    {digits : Nat} {power : Int} {hpos : 0 < digits}
    (h : ofComponents sign exponent mantissa = .finite own digits power hpos) :
    (digits = mantissa.toNat ∧ power = -1074) ∨
      (0 < exponent.toNat ∧ exponent.toNat < 2047 ∧ digits = (1#1 ++ mantissa).toNat ∧
        power = exponent.toNat - 1075) := by
  rw [ofComponents] at h
  by_cases hlast : exponent = -1#11
  · rw [if_pos hlast] at h
    by_cases hnone : mantissa = 0#52
    · rw [if_pos hnone] at h
      cases h
    · rw [if_neg hnone] at h
      cases h
  · rw [if_neg hlast] at h
    by_cases hfirst : exponent = 0#11
    · rw [if_pos hfirst] at h
      by_cases hnone : mantissa = 0#52
      · rw [dif_pos hnone] at h
        cases h
      · rw [dif_neg hnone, hfirst] at h
        cases h
        exact .inl ⟨rfl, rfl⟩
    · rw [if_neg hfirst] at h
      cases h
      exact .inr ⟨by bv_omega, by bv_omega, rfl, rfl⟩

lemma mantissa_unpack_lt {bits : BitVec Format.binary64.numBits} {sign : Sign} {mantissa : Nat}
    {exponent : Int} {hpos : 0 < mantissa}
    (h : UnpackedFloat.unpack Format.binary64 bits = .finite sign mantissa exponent hpos) :
    mantissa < 2 ^ 53 := by
  obtain ⟨rfl, -⟩ | ⟨-, -, rfl, -⟩ := components_of_finite h
  · exact (BitVec.isLt _).trans (by norm_num)
  · exact BitVec.isLt (1#1 ++ _)

/-! ## Packing -/

/-- A finite number is packed with the least exponent when it has less than 53 digits, and as an
infinity when its exponent has no room. -/
lemma pack_finite (sign : Sign) (mantissa : Nat) (exponent : Int) (hpos : 0 < mantissa) :
    UnpackedFloat.pack Format.binary64 (.finite sign mantissa exponent hpos) =
      let biased := (exponent + 1023 + 52).toNat
      if 2048 ≤ biased + 1 then packedInfinity Format.binary64 sign
      else if mantissa.log2 + 1 = 53 then
        packComponents Format.binary64 sign (BitVec.ofNat 11 biased) (BitVec.ofNat 52 mantissa)
      else packComponents Format.binary64 sign 0#11 (BitVec.ofNat 52 mantissa) := rfl

/-- A finite number whose exponent has room in the format is found again as a finite one. -/
lemma below_unpack_pack {top : Int} (hlow : -1074 ≤ top) (hhigh : top ≤ 971) {u : UnpackedFloat}
    (h : Below top u) : Below top
      (UnpackedFloat.unpack Format.binary64 (UnpackedFloat.pack Format.binary64 u)) := by
  have hzero : (0#11).toNat = 0 := rfl
  have hsmall : (0#11) ≠ -1#11 := by decide
  cases u with
  | zero sign =>
    show Below top (UnpackedFloat.unpack Format.binary64
      (packComponents Format.binary64 sign 0#11 0#52))
    rw [unpack_packComponents]
    apply (below_ofComponents 0#52 hsmall).mono
    rw [hzero]
    omega
  | finite sign mantissa exponent hm =>
    replace h : exponent ≤ top := h
    rw [pack_finite]
    dsimp only
    generalize hbiased : (exponent + 1023 + 52).toNat = biased
    have hroom : biased < 2047 := by omega
    rw [if_neg (by omega)]
    by_cases hnormal : mantissa.log2 + 1 = 53
    · have hne : BitVec.ofNat 11 biased ≠ -1#11 := by bv_omega
      rw [if_pos hnormal, unpack_packComponents]
      apply (below_ofComponents _ hne).mono
      rw [BitVec.toNat_ofNat]
      omega
    · rw [if_neg hnormal, unpack_packComponents]
      apply (below_ofComponents _ hsmall).mono
      rw [hzero]
      omega
  | infinity sign => exact h.elim
  | notANumber => exact h.elim

/-! ## Integers -/

/-- The float of a word below `2 ^ 53`. -/
lemma below_toFloat {n : Nat} (h : n < 2 ^ 53) : Below 1 n.toUInt64.toFloat.toModel.unpack := by
  have hn : n.toUInt64.toNat = n := by
    show n % 2 ^ 64 = n
    omega
  have hlog : n.log2 < 53 := log2_lt_of_lt (by norm_num) h
  apply below_unpack_pack (by norm_num) (by norm_num)
  show Below 1 (UnpackedFloat.normalize Format.binary64 (n.toUInt64.toNat : Int) 0 .positive)
  rw [hn, UnpackedFloat.normalize]
  split
  · apply below_round 0 (by norm_num)
    have hzero : (-(n : Int)).toNat = 0 := by omega
    rw [hzero, totalExponent]
    simp
  · trivial
  · apply below_round 0 (by norm_num)
    rw [totalExponent, Int.toNat_natCast]
    omega

lemma unpack_one : (Float.ofBits 0x3FF0000000000000).toModel.unpack =
    .finite .positive (2 ^ 52) (-52) (Nat.two_pow_pos 52) := by rfl

lemma below_mul_one {n : Nat} (h : n < 2 ^ 53) :
    Below 971 (UnpackedFloat.mul Format.binary64 n.toUInt64.toFloat.toModel.unpack
      (Float.ofBits 0x3FF0000000000000).toModel.unpack) := by
  have hfloat := below_toFloat h
  rw [unpack_one]
  cases hunpack : n.toUInt64.toFloat.toModel.unpack with
  | zero sign => trivial
  | finite sign mantissa exponent hm =>
    rw [hunpack] at hfloat
    have hexp : exponent ≤ 1 := hfloat
    have hmantissa : mantissa < 2 ^ 53 := mantissa_unpack_lt hunpack
    have hlog : (mantissa * 2 ^ 52).log2 < 105 := log2_lt_of_lt (by norm_num) (by omega)
    apply below_roundWithAccuracy 970 (by norm_num) (by omega)
    rw [totalExponent]
    omega
  | infinity sign =>
    rw [hunpack] at hfloat
    exact hfloat.elim
  | notANumber =>
    rw [hunpack] at hfloat
    exact hfloat.elim

/-- An integer is rounded with 53 more digits behind it. -/
lemma ofScientific_of_pos {n : Nat} (hpos : 0 < n) :
    UnpackedFloat.ofScientific Format.binary64 n 0 =
      roundWithAccuracy Format.binary64 .positive (n * 2 ^ 53) (-53) .exact := by
  have hhuge : (2 : Int) ^ Format.binary64.exponentBits = 2048 := by norm_num
  have hten : n <<< 53 * 10 ^ Int.toNat 0 = n * 2 ^ 53 := by
    rw [Nat.shiftLeft_eq]
    exact Nat.mul_one _
  rw [UnpackedFloat.ofScientific, dif_neg hpos.ne', hhuge, if_neg (by norm_num),
    if_neg (by omega), if_pos le_rfl, ← hten]
  rfl

lemma below_scientific {n : Nat} (h : n < 2 ^ 64) :
    Below 971 (UnpackedFloat.ofScientific Format.binary64 n 0) := by
  obtain rfl | hpos := n.eq_zero_or_pos
  · trivial
  · have hlog : (n * 2 ^ 53).log2 < 117 := log2_lt_of_lt (by norm_num) (by omega)
    rw [ofScientific_of_pos hpos]
    apply below_roundWithAccuracy 970 (by norm_num) (by norm_num)
    rw [totalExponent]
    omega

/-- The float of an integer is finite, and so is its negative. -/
lemma below_ofScientific {n : Nat} (h : n < 2 ^ 64) :
    Below 971 (Float.ofScientific n false 0).toModel.unpack := by
  rw [Float.ofScientific]
  split
  · -- Small numbers are multiplied by the float one.
    rename_i hsmall
    exact below_unpack_pack (by norm_num) (by norm_num) (below_mul_one hsmall.1)
  · exact below_unpack_pack (by norm_num) (by norm_num) (below_scientific h)

lemma below_neg {top : Int} (hlow : -1074 ≤ top) (hhigh : top ≤ 971) {f : Float}
    (h : Below top f.toModel.unpack) : Below top (-f).toModel.unpack :=
  below_unpack_pack hlow hhigh h.neg

/-! ## Integer texts are decimal texts -/

/-- An integer text is a literal with neither fraction nor power of ten. -/
lemma ofChars?_of_integer? {text : List Char} {number : Int} (h : integer? text = some number) :
    ∃ negative digits, Literal.ofChars? text = some ⟨negative, digits, [], 0⟩ ∧
      number = signed negative (value digits) := by
  rw [integer?] at h
  rw [Literal.ofChars?]
  generalize sign text = signAndDigits at h ⊢
  obtain ⟨negative, digits⟩ := signAndDigits
  dsimp only at h ⊢
  split at h
  · rename_i hdigits
    have hall : ∀ c ∈ digits, c.isDigit = true := List.all_eq_true.1 hdigits.2
    have htake : digits.takeWhile Char.isDigit = digits := List.takeWhile_eq_self_iff.2 hall
    have hdrop : digits.dropWhile Char.isDigit = [] := List.dropWhile_eq_nil_iff.2 hall
    refine ⟨negative, digits, ?_, (Option.some.inj h).symm⟩
    simp [span, htake, hdrop, Literal.pointed, Literal.exponent?, hdigits.1]
  · cases h

lemma isFinite_toFloat (negative : Bool) {digits : List Char} (h : value digits < 2 ^ 64) :
    (Literal.toFloat ⟨negative, digits, [], 0⟩).isFinite = true := by
  have hbelow : Below 971 (Literal.nearest (value (digits ++ [])) 0).toModel.unpack := by
    rw [List.append_nil]
    exact below_ofScientific h
  show (if negative then -Literal.nearest (value (digits ++ [])) 0
    else Literal.nearest (value (digits ++ [])) 0).toModel.unpack.isFinite = true
  cases negative with
  | false => exact hbelow.isFinite
  | true => exact (below_neg (by norm_num) (by norm_num) hbelow).isFinite

end Conform.Decimal

namespace Conform

/-- The text of an integer of 64 bits is a literal with neither fraction nor power of ten. -/
lemma exists_literal_of_parseInteger {text : String} {number : Int64}
    (h : parseInteger text = some number) : ∃ negative digits,
      Decimal.Literal.ofChars? text.toList = some ⟨negative, digits, [], 0⟩ ∧
        number.toInt = Decimal.signed negative (Decimal.value digits) ∧
        Decimal.value digits < 2 ^ 64 := by
  obtain ⟨integer, hinteger, hword⟩ := Option.bind_eq_some_iff.1 h
  obtain ⟨negative, digits, hliteral, rfl⟩ := Decimal.ofChars?_of_integer? hinteger
  rw [Word.ofInt?_eq_some_iff] at hword
  refine ⟨negative, digits, hliteral, hword, ?_⟩
  have hlow := number.le_toInt
  have hhigh := number.toInt_lt
  rw [hword, Decimal.signed] at hlow hhigh
  cases negative with
  | false =>
    simp only [Bool.false_eq_true, if_false] at hhigh
    omega
  | true =>
    simp only [if_true] at hlow
    omega

/-- **Integer texts are float texts.** -/
theorem exists_parseFloat_of_parseInteger {text : String} {number : Int64}
    (h : parseInteger text = some number) : ∃ float, parseFloat text = some float := by
  obtain ⟨negative, digits, hliteral, -, hvalue⟩ := exists_literal_of_parseInteger h
  refine ⟨Decimal.Literal.toFloat ⟨negative, digits, [], 0⟩, ?_⟩
  rw [parseFloat, hliteral]
  simp [Decimal.isFinite_toFloat negative hvalue]

/-- **Integers of 64 bits have finite floats.** -/
theorem isFinite_widen (number : Int64) : (Value.widen number).isFinite = true := by
  have hlow := number.le_toInt
  have hhigh := number.toInt_lt
  rw [Value.widen]
  generalize number.toInt = integer at hlow hhigh ⊢
  cases integer with
  | ofNat n =>
    rw [Int.ofNat_eq_natCast] at hhigh
    have hn : n < 2 ^ 64 := by omega
    exact (Decimal.below_ofScientific hn).isFinite
  | negSucc n =>
    have hn : n + 1 < 2 ^ 64 := by omega
    have hsize := Decimal.below_ofScientific hn
    exact (Decimal.below_neg (by norm_num) (by norm_num) hsize).isFinite

lemma isFinite_of_parseFloat {text : String} {number : Float}
    (h : parseFloat text = some number) : number.isFinite = true := by
  obtain ⟨literal, -, hliteral⟩ := Option.bind_eq_some_iff.1 h
  split at hliteral
  · rename_i hfinite
    rw [← Option.some.inj hliteral]
    exact hfinite
  · cases hliteral

end Conform
