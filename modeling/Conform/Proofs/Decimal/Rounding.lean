import Conform.Proofs.Decimal.Nearest
import Mathlib.Tactic.FieldSimp

/-!
# Rounding integers

The conversion of an integer to a float drops binary digits until 53 are left, and keeps track of
whether what is dropped is nothing, less than one half of the last place, one half or more
(`Locates`).  That is enough to round to the nearest float, ties to even
(`approximates_roundWithAccuracy`).

Small integers take a way of their own, through a word and a multiplication by the float one.  They
have at most 53 digits, so nothing is dropped on it; both ways come to the nearest float
(`approximates_ofScientific`, `nearest_ofInt`).
-/

namespace Conform.Decimal

open Float.Model Float.Model.UnpackedFloat

/-! ## What is dropped -/

/-- The mantissa is the whole part of a number, and the rest is compared with one half. -/
def Locates (mantissa : Nat) : Accuracy → ℚ → Prop
  | .exact, number => number = mantissa
  | .inexact .lt, number => mantissa < number ∧ number < mantissa + 1 / 2
  | .inexact .eq, number => number = mantissa + 1 / 2
  | .inexact .gt, number => mantissa + 1 / 2 < number ∧ number < mantissa + 1

/-- Dropping one more digit halves the number. -/
lemma locates_shiftRightOne {em : ExtendedMantissa} {number : ℚ}
    (h : Locates em.mantissa em.accuracy number) :
    Locates em.shiftRightOne.mantissa em.shiftRightOne.accuracy (number / 2) := by
  obtain ⟨mantissa, roundBit, stickyBit⟩ := em
  have hsplit : (mantissa : ℚ) = 2 * (mantissa / 2 : Nat) + (mantissa % 2 : Nat) := by
    exact_mod_cast (Nat.div_add_mod mantissa 2).symm
  rw [ExtendedMantissa.shiftRightOne]
  -- The digit that is dropped now becomes the round bit, and the round bit a sticky one.
  rcases Nat.mod_two_eq_zero_or_one mantissa with hmod | hmod
  · rw [hmod] at hsplit ⊢
    cases roundBit <;> cases stickyBit <;>
      simp [Locates, ExtendedMantissa.accuracy] at h ⊢ <;> grind
  · rw [hmod] at hsplit ⊢
    cases roundBit <;> cases stickyBit <;>
      simp [Locates, ExtendedMantissa.accuracy] at h ⊢ <;> grind

lemma locates_shiftRight (mantissa shift : Nat) :
    let em := ExtendedMantissa.ofMantissaAndAccuracy mantissa .exact >>> shift
    Locates em.mantissa em.accuracy (mantissa / 2 ^ shift) := by
  intro em
  have hem : em = Nat.repeat ExtendedMantissa.shiftRightOne shift
      (.ofMantissaAndAccuracy mantissa .exact) := rfl
  rw [hem]
  clear hem em
  induction shift with
  | zero =>
    rw [pow_zero, div_one]
    rfl
  | succ shift ih =>
    rw [pow_succ, ← div_div]
    exact locates_shiftRightOne ih

/-- A whole number next to a number is at most one half away from it, and even when it is just that
far away. -/
structure RoundsOff (number : ℚ) (whole rounded : Nat) : Prop where
  whole_le : whole ≤ number
  le_succ : number ≤ whole + 1
  one_of_two : rounded = whole ∨ rounded = whole + 1
  half : 2 * |number - rounded| ≤ 1
  even : 2 * |number - rounded| = 1 → rounded % 2 = 0

lemma roundsOff_of_locates {mantissa : Nat} {accuracy : Accuracy} {number : ℚ}
    (h : Locates mantissa accuracy number) :
    RoundsOff number mantissa (accuracy.roundToNearestEven mantissa) := by
  cases accuracy with
  | exact =>
    have hnumber : number = mantissa := h
    have hdistance : |number - mantissa| = 0 := by rw [hnumber, sub_self, abs_zero]
    have hrounded : Accuracy.exact.roundToNearestEven mantissa = mantissa := rfl
    rw [hrounded]
    exact ⟨hnumber.ge, by linarith, .inl rfl, by linarith, fun _ => by linarith⟩
  | inexact position =>
    cases position with
    | lt =>
      obtain ⟨hlow, hhigh⟩ : mantissa < number ∧ number < mantissa + 1 / 2 := h
      have hdistance : |number - mantissa| = number - mantissa := abs_of_pos (by linarith)
      have hrounded : (Accuracy.inexact .lt).roundToNearestEven mantissa = mantissa := rfl
      rw [hrounded]
      exact ⟨hlow.le, by linarith, .inl rfl, by linarith, fun _ => by linarith⟩
    | gt =>
      obtain ⟨hlow, hhigh⟩ : mantissa + 1 / 2 < number ∧ number < mantissa + 1 := h
      have hdistance : |number - (mantissa + 1 : Nat)| = mantissa + 1 - number := by
        push_cast
        rw [abs_of_neg (by linarith), neg_sub]
      have hrounded : (Accuracy.inexact .gt).roundToNearestEven mantissa = mantissa + 1 := rfl
      rw [hrounded]
      exact ⟨by linarith, by linarith, .inr rfl, by linarith, fun _ => by linarith⟩
    | eq =>
      have hnumber : number = mantissa + 1 / 2 := h
      have hrounded : (Accuracy.inexact .eq).roundToNearestEven mantissa =
        mantissa + mantissa % 2 := rfl
      have hodd : (mantissa + mantissa % 2) % 2 = 0 := by omega
      have hdistance : |number - (mantissa + mantissa % 2 : Nat)| = 1 / 2 := by
        rw [hnumber]
        push_cast
        rcases Nat.mod_two_eq_zero_or_one mantissa with hmod | hmod
        · rw [hmod]
          norm_num
        · rw [hmod]
          norm_num
      rw [hrounded]
      exact ⟨by linarith, by linarith, by omega, by linarith, fun _ => hodd⟩

/-- What is left when digits are dropped is rounded off. -/
lemma roundsOff_shiftRight (mantissa shift : Nat) :
    RoundsOff (mantissa / 2 ^ shift) (mantissa / 2 ^ shift : Nat)
      (ExtendedMantissa.ofMantissaAndAccuracy mantissa .exact >>> shift).roundedMantissa := by
  have hwhole : (ExtendedMantissa.ofMantissaAndAccuracy mantissa .exact >>> shift).mantissa =
      mantissa / 2 ^ shift := mantissa_shiftRight _ shift
  rw [← hwhole]
  exact roundsOff_of_locates (locates_shiftRight mantissa shift)

/-- Rounding off to a whole number is rounding on every grid on which that number is large. -/
lemma RoundsOff.rounds {number : ℚ} {whole rounded : Nat} (h : RoundsOff number whole rounded)
    (grid : Int) (hlarge : grid = -1074 ∨ 2 ^ 52 ≤ whole) :
    Rounds (number * 2 ^ grid) (size rounded grid) (rounded % 2 = 0) := by
  have hunit : (0 : ℚ) < 2 ^ grid := by positivity
  have hdistance : 2 * |number * 2 ^ grid - size rounded grid| =
      2 * |number - rounded| * 2 ^ grid := by
    rw [size, ← sub_mul, abs_mul, abs_of_pos hunit, mul_assoc]
  apply rounds_of_between hlarge
  · exact mul_le_mul_of_nonneg_right h.whole_le hunit.le
  · rw [size]
    push_cast
    exact mul_le_mul_of_nonneg_right h.le_succ hunit.le
  · exact h.one_of_two.imp (congrArg fun mantissa => size mantissa grid)
      (congrArg fun mantissa => size mantissa grid)
  · rw [hdistance]
    exact mul_le_of_le_one_left hunit.le h.half
  · intro htie
    rw [hdistance, mul_eq_right₀ hunit.ne'] at htie
    exact h.even htie

/-! ## Dropping digits until 53 are left -/

/-- So many digits are dropped that the exponent comes to the target, if there are enough. -/
lemma shiftToTargetExponent_eq {mantissa : Nat} {exponent target : Int}
    (htarget : totalExponent mantissa exponent = target + 53) (hlow : -1074 ≤ target)
    (hexp : exponent ≤ target) :
    shiftToTargetExponent Format.binary64 mantissa exponent .exact =
      (ExtendedMantissa.ofMantissaAndAccuracy mantissa .exact >>> (target - exponent).toNat,
        target) := by
  have hmax : max (totalExponent mantissa exponent - 53) (-1074) = target := by omega
  rw [shiftToTargetExponent, targetExponent_eq, hmax, shiftToExponent]
  congr 1
  omega

/-- What is left after rounding has 53 digits, unless rounding has carried through all of them. -/
lemma exists_shiftToTargetExponent {mantissa : Nat} {target : Int} (hlow : 2 ^ 52 ≤ mantissa)
    (hhigh : mantissa ≤ 2 ^ 53) (htarget : -1074 ≤ target) : ∃ kept last,
      (shiftToTargetExponent Format.binary64 mantissa target .exact).1.mantissa = kept ∧
      (shiftToTargetExponent Format.binary64 mantissa target .exact).2 = last ∧
      2 ^ 52 ≤ kept ∧ kept < 2 ^ 53 ∧ target ≤ last ∧ last ≤ target + 1 ∧
      size kept last = size mantissa target ∧ (mantissa % 2 = 0 → kept % 2 = 0) := by
  by_cases hfits : mantissa < 2 ^ 53
  · have htotal : totalExponent mantissa target = target + 53 := by
      rw [totalExponent, log2_eq hlow hfits]
      push_cast
      ring
    rw [shiftToTargetExponent_eq htotal htarget le_rfl, sub_self]
    exact ⟨mantissa, target, rfl, rfl, hlow, hfits, le_rfl, by omega, rfl, id⟩
  · obtain rfl : mantissa = 2 ^ 53 := by omega
    have htotal : totalExponent (2 ^ 53) target = target + 1 + 53 := by
      rw [totalExponent, Nat.log2_two_pow]
      push_cast
      ring
    have hone : (target + 1 - target).toNat = 1 := by omega
    rw [shiftToTargetExponent_eq htotal (by omega) (by omega), hone]
    refine ⟨2 ^ 52, target + 1, rfl, rfl, le_rfl, by norm_num, by omega, le_rfl, ?_, by norm_num⟩
    rw [size_eq_of_le _ (by omega : target ≤ target + 1), hone]
    norm_num

/-- 53 digits are left when all the others are dropped. -/
lemma whole_mem_range {mantissa shift : Nat} (hpos : 0 < mantissa)
    (hlog : mantissa.log2 = 52 + shift) :
    2 ^ 52 ≤ mantissa / 2 ^ shift ∧ mantissa / 2 ^ shift < 2 ^ 53 := by
  have hle := Nat.log2_self_le hpos.ne'
  have hlt := Nat.lt_log2_self (n := mantissa)
  rw [hlog, pow_add] at hle
  rw [hlog, Nat.add_right_comm, pow_add] at hlt
  exact ⟨(Nat.le_div_iff_mul_le (by positivity)).2 hle,
    (Nat.div_lt_iff_lt_mul (by positivity)).2 hlt⟩

lemma size_eq_div_mul (mantissa shift : Nat) (exponent : Int) :
    size mantissa exponent = mantissa / 2 ^ shift * 2 ^ (exponent + shift) := by
  rw [size, zpow_add₀ (by norm_num), zpow_natCast]
  field_simp

/-- The float has the sign, and its size is the nearest to the number among those of all floats. -/
def Approximates (sign : Sign) (number : ℚ) : UnpackedFloat → Prop
  | .finite own mantissa exponent _ => own = sign ∧ Canonical mantissa exponent ∧
      2 ^ 52 ≤ mantissa ∧ Rounds number (size mantissa exponent) (mantissa % 2 = 0)
  | _ => False

/-- **Rounding** comes to the nearest float, when the number has at least 53 digits and is neither
too small nor too large. -/
theorem approximates_roundWithAccuracy (sign : Sign) {mantissa : Nat} {exponent target : Int}
    (htarget : totalExponent mantissa exponent = target + 53) (hlow : -1074 ≤ target)
    (hhigh : target ≤ 970) (hexp : exponent ≤ target) (hpos : 0 < mantissa) :
    Approximates sign (size mantissa exponent)
      (roundWithAccuracy Format.binary64 sign mantissa exponent .exact) := by
  obtain ⟨shift, rfl⟩ : ∃ shift : Nat, target = exponent + shift := by
    obtain ⟨shift, hshift⟩ := Int.le.dest hexp
    exact ⟨shift, hshift.symm⟩
  have hlog : mantissa.log2 = 52 + shift := by
    rw [totalExponent] at htarget
    omega
  have hamount : (exponent + shift - exponent).toNat = shift := by omega
  have hfirst := shiftToTargetExponent_eq htarget hlow hexp
  rw [hamount] at hfirst
  obtain ⟨hlarge, hsmall⟩ := whole_mem_range hpos hlog
  have hoff := roundsOff_shiftRight mantissa shift
  have hrounds := hoff.rounds (exponent + shift) (.inr hlarge)
  rw [← size_eq_div_mul] at hrounds
  rw [roundWithAccuracy, hfirst]
  dsimp only
  generalize (ExtendedMantissa.ofMantissaAndAccuracy mantissa .exact >>> shift).roundedMantissa =
    rounded at *
  have hrounded : 2 ^ 52 ≤ rounded ∧ rounded ≤ 2 ^ 53 := by
    have hone := hoff.one_of_two
    omega
  obtain ⟨kept, last, hkept, hlast, hnormal, hfits, hle, hge, hsize, heven⟩ :=
    exists_shiftToTargetExponent hrounded.1 hrounded.2 hlow
  have hne : kept ≠ 0 := by omega
  rw [hkept, hlast, dif_neg hne]
  refine ⟨rfl, ⟨hfits, by omega, by omega, .inr hnormal⟩, hnormal, ?_⟩
  rw [hsize]
  exact hrounds.imp heven

section Approximates

variable {sign : Sign} {number : ℚ} {u : UnpackedFloat}

lemma Approximates.exists_finite (h : Approximates sign number u) :
    ∃ mantissa exponent hpos, u = .finite sign mantissa exponent hpos ∧
      Canonical mantissa exponent ∧ 2 ^ 52 ≤ mantissa ∧
      Rounds number (size mantissa exponent) (mantissa % 2 = 0) := by
  cases u with
  | finite own mantissa exponent hpos =>
    obtain ⟨rfl, hrounds⟩ := h
    exact ⟨mantissa, exponent, hpos, rfl, hrounds⟩
  | zero own => exact h.elim
  | infinity own => exact h.elim
  | notANumber => exact h.elim

/-- What rounding comes to is packed without a loss. -/
lemma Approximates.unpack_pack (h : Approximates sign number u) :
    UnpackedFloat.unpack Format.binary64 (UnpackedFloat.pack Format.binary64 u) = u := by
  obtain ⟨mantissa, exponent, hpos, rfl, hcanonical, -⟩ := h.exists_finite
  exact hcanonical.unpack_pack sign hpos

lemma Approximates.pack (h : Approximates sign number u) : Approximates sign number
    (UnpackedFloat.unpack Format.binary64 (UnpackedFloat.pack Format.binary64 u)) := by
  rw [h.unpack_pack]
  exact h

lemma Approximates.opposite {float : Float}
    (h : Approximates .positive number float.toModel.unpack) :
    Approximates .negative number (-float).toModel.unpack := by
  have hneg : Approximates .negative number float.toModel.unpack.neg := by
    obtain ⟨mantissa, exponent, hpos, hunpack, hrounds⟩ := h.exists_finite
    rw [hunpack]
    exact ⟨rfl, hrounds⟩
  exact hneg.pack

/-- What rounding comes to is nearest among floats with signs as well. -/
lemma Approximates.nearest {float : Float} (h : Approximates .positive number float.toModel.unpack)
    (hnumber : 0 ≤ number) : Nearest number float := by
  obtain ⟨mantissa, exponent, hpos, hunpack, -, -, hrounds⟩ := h.exists_finite
  exact nearest_of_positive hnumber hrounds hunpack

lemma Approximates.nearest_neg {float : Float}
    (h : Approximates .negative number float.toModel.unpack) (hnumber : 0 ≤ number) :
    Nearest (-number) float := by
  obtain ⟨mantissa, exponent, hpos, hunpack, -, -, hrounds⟩ := h.exists_finite
  exact nearest_of_negative hnumber hrounds hunpack

end Approximates

/-! ## Integers -/

lemma log2_mul_two_pow {n : Nat} (hpos : 0 < n) (shift : Nat) :
    (n * 2 ^ shift).log2 = n.log2 + shift := by
  induction shift with
  | zero => rw [pow_zero, mul_one, add_zero]
  | succ shift ih =>
    have hne : n * 2 ^ shift ≠ 0 := by positivity
    rw [pow_succ', mul_left_comm, Nat.log2_two_mul hne, ih, add_assoc]

lemma size_mul_two_pow (mantissa shift : Nat) (exponent : Int) :
    size (mantissa * 2 ^ shift) (exponent - shift) = size mantissa exponent := by
  have hshift : (exponent - (exponent - shift)).toNat = shift := by omega
  rw [size_eq_of_le mantissa (by omega : exponent - shift ≤ exponent), hshift]

lemma size_zero (mantissa : Nat) : size mantissa 0 = mantissa := by
  rw [size, zpow_zero, mul_one]

/-- A number is filled up with zeros before it is rounded, so that it has 53 digits. -/
lemma approximates_filled (sign : Sign) (shift : Nat) (exponent : Int) {mantissa : Nat}
    (hpos : 0 < mantissa) (hdigits : 52 ≤ mantissa.log2 + shift)
    (hlow : -1022 ≤ exponent + mantissa.log2) (hhigh : exponent + mantissa.log2 ≤ 1022) :
    Approximates sign (size mantissa exponent) (roundWithAccuracy Format.binary64 sign
      (mantissa * 2 ^ shift) (exponent - shift) .exact) := by
  have htotal : totalExponent (mantissa * 2 ^ shift) (exponent - shift) =
      exponent + mantissa.log2 - 52 + 53 := by
    rw [totalExponent, log2_mul_two_pow hpos]
    omega
  rw [← size_mul_two_pow mantissa shift]
  exact approximates_roundWithAccuracy sign htotal (by omega) (by omega) (by omega) (by positivity)

section Integers

variable {n : Nat}

/-- An integer with at most 53 digits is filled up to 53. -/
lemma round_natCast (sign : Sign) {shift : Nat} (hshift : n.log2 + shift = 52) :
    UnpackedFloat.round Format.binary64 sign n 0 =
      roundWithAccuracy Format.binary64 sign (n * 2 ^ shift) (0 - shift) .exact := by
  have hamount : (0 - max (totalExponent n 0 - 53) (-1074)).toNat = shift := by
    rw [totalExponent]
    omega
  simp only [UnpackedFloat.round, decreaseExponent, targetExponent_eq, hamount, Nat.shiftLeft_eq]

lemma canonical_natCast (hpos : 0 < n) {shift : Nat} (hshift : n.log2 + shift = 52) :
    Canonical (n * 2 ^ shift) (0 - shift) := by
  have hlog := log2_mul_two_pow hpos shift
  have hne : n * 2 ^ shift ≠ 0 := by positivity
  have hlow := Nat.log2_self_le hne
  have hhigh := Nat.lt_log2_self (n := n * 2 ^ shift)
  rw [hlog, hshift] at hlow hhigh
  exact ⟨hhigh, by omega, by omega, .inr hlow⟩

lemma unpack_toFloat (hpos : 0 < n) (h : n < 2 ^ 53) :
    n.toUInt64.toFloat.toModel.unpack = UnpackedFloat.unpack Format.binary64
      (UnpackedFloat.pack Format.binary64
        (UnpackedFloat.round Format.binary64 .positive n 0)) := by
  have hword : n.toUInt64.toNat = n := by
    show n % 2 ^ 64 = n
    omega
  have hcompare : compare (n : Int) 0 = .gt := compare_gt_iff_gt.2 (by omega)
  have hnormalize : UnpackedFloat.normalize Format.binary64 (n.toUInt64.toNat : Int) 0 .positive =
      UnpackedFloat.round Format.binary64 .positive n 0 := by
    rw [hword, UnpackedFloat.normalize, hcompare]
    rfl
  rw [← hnormalize]
  rfl

/-- A word with at most 53 digits has the float that stands for it. -/
lemma exists_unpack_toFloat (hpos : 0 < n) (h : n < 2 ^ 53) : ∃ mantissa exponent hmantissa,
    n.toUInt64.toFloat.toModel.unpack = .finite .positive mantissa exponent hmantissa ∧
      size mantissa exponent = n ∧ Canonical mantissa exponent ∧ 2 ^ 52 ≤ mantissa := by
  have hlog := log2_lt_of_lt (by norm_num) h
  obtain ⟨shift, hshift⟩ : ∃ shift, n.log2 + shift = 52 := Nat.le.dest (by omega)
  have happrox := approximates_filled .positive shift 0 hpos hshift.ge (by omega) (by omega)
  rw [← round_natCast .positive hshift] at happrox
  have hunpack := (unpack_toFloat hpos h).trans happrox.unpack_pack
  obtain ⟨mantissa, exponent, hmantissa, hround, hcanonical, hnormal, hrounds⟩ :=
    happrox.exists_finite
  rw [← size_mul_two_pow n shift] at hrounds
  refine ⟨mantissa, exponent, hmantissa, hunpack.trans hround, ?_, hcanonical, hnormal⟩
  rw [hrounds.eq_of_canonical (canonical_natCast hpos hshift), size_mul_two_pow, size_zero]

/-- Multiplying by the float one keeps the float of a small integer. -/
lemma approximates_mul_one (hpos : 0 < n) (h : n < 2 ^ 53) :
    Approximates .positive n (UnpackedFloat.mul Format.binary64 n.toUInt64.toFloat.toModel.unpack
      (Float.ofBits 0x3FF0000000000000).toModel.unpack) := by
  have hbelow := below_toFloat h
  obtain ⟨mantissa, exponent, hmantissa, hunpack, hsize, hcanonical, hnormal⟩ :=
    exists_unpack_toFloat hpos h
  rw [hunpack] at hbelow
  have hexp : exponent ≤ 1 := hbelow
  have hlow := hcanonical.least_le
  have hlog := log2_eq hnormal hcanonical.mantissa_lt
  have happrox := approximates_filled .positive 52 exponent hmantissa (by omega) (by omega)
    (by omega)
  rw [hsize] at happrox
  rw [hunpack, unpack_one]
  exact happrox

lemma approximates_scientific (hpos : 0 < n) (h : n < 2 ^ 64) :
    Approximates .positive n (UnpackedFloat.ofScientific Format.binary64 n 0) := by
  have hlog := log2_lt_of_lt (by norm_num) h
  have happrox := approximates_filled .positive 53 0 hpos (by omega) (by omega) (by omega)
  rw [size_zero, zero_sub] at happrox
  rw [ofScientific_of_pos hpos]
  exact happrox

/-- **The float of an integer** of at most 64 bits is the nearest one. -/
theorem approximates_ofScientific (hpos : 0 < n) (h : n < 2 ^ 64) :
    Approximates .positive n (Float.ofScientific n false 0).toModel.unpack := by
  rw [Float.ofScientific]
  split
  · rename_i hsmall
    exact (approximates_mul_one hpos hsmall.1).pack
  · exact (approximates_scientific hpos h).pack

end Integers

lemma nearest_ofNat {n : Nat} (h : n < 2 ^ 64) : Nearest n (Float.ofNat n) := by
  obtain rfl | hpos := n.eq_zero_or_pos
  · have hzero : (Float.ofNat 0).toModel.unpack = .zero .positive := by rfl
    rw [Nat.cast_zero]
    exact nearest_zero hzero
  · exact (approximates_ofScientific hpos h).nearest (Nat.cast_nonneg n)

/-- **Integers** of at most 64 bits have the nearest float, whatever their sign. -/
theorem nearest_ofInt {integer : Int} (h : integer.natAbs < 2 ^ 64) :
    Nearest integer (Float.ofInt integer) := by
  cases integer with
  | ofNat n =>
    rw [Int.ofNat_eq_natCast, Int.cast_natCast]
    exact nearest_ofNat h
  | negSucc n =>
    have hopposite : Float.ofInt (.negSucc n) = -Float.ofScientific (n + 1) false 0 := by rfl
    rw [Int.cast_negSucc, hopposite]
    exact (approximates_ofScientific n.succ_pos h).opposite.nearest_neg (Nat.cast_nonneg (n + 1))

end Conform.Decimal
