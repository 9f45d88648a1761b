import Conform.Proofs.Decimal.Finite
import Mathlib.Algebra.Order.Field.Power
import Mathlib.Algebra.Order.Field.Rat
import Mathlib.Tactic.GCongr
import Mathlib.Tactic.Linarith
import Mathlib.Tactic.Ring

/-!
# The nearest float

A finite float stands for a rational number.  Rounding takes a number to the float nearest to it,
and of two that are equally near to the one whose last place is even (`Nearest`).

Floats lie on grids of powers of two: between two points of a grid that are next to each other there
is no float, unless they are too small for the grid (`Canonical.size_le_or_le`).  So a number that
lies between two such points is rounded to one of them, and it is enough to compare it with these
two (`rounds_of_between`).

Between two floats whose last places are even there is another one (`exists_float_between`).  So no
number has two of them for its nearest ones (`exists_rational?_of_nearest`).
-/

namespace Conform.Decimal

open Float.Model Float.Model.UnpackedFloat

/-! ## What floats stand for -/

/-- The number that a mantissa and an exponent stand for. -/
def size (mantissa : Nat) (exponent : Int) : ℚ := mantissa * 2 ^ exponent

/-- The number that a float stands for; infinities and what is not a number stand for none. -/
def rational? : UnpackedFloat → Option ℚ
  | .zero _ => some 0
  | .finite .positive mantissa exponent _ => some (size mantissa exponent)
  | .finite .negative mantissa exponent _ => some (-size mantissa exponent)
  | _ => none

/-- The last place of a float is even; zero is. -/
def LastEven : UnpackedFloat → Prop
  | .finite _ mantissa _ _ => mantissa % 2 = 0
  | _ => True

/-- The float is the nearest one to the number.  If another number that a float stands for is as
near, then the last place of this float is even. -/
def Nearest (number : ℚ) (float : Float) : Prop :=
  ∃ rounded, rational? float.toModel.unpack = some rounded ∧
    ∀ (other : Float) (value : ℚ), rational? other.toModel.unpack = some value →
      |number - rounded| ≤ |number - value| ∧
        (|number - value| = |number - rounded| → value = rounded ∨ LastEven float.toModel.unpack)

/-! ## Mantissas and exponents -/

/-- A mantissa and an exponent that a finite float can have. -/
structure Canonical (mantissa : Nat) (exponent : Int) : Prop where
  mantissa_lt : mantissa < 2 ^ 53
  least_le : -1074 ≤ exponent
  le_greatest : exponent ≤ 971
  normal : exponent = -1074 ∨ 2 ^ 52 ≤ mantissa

lemma canonical_of_unpack {bits : BitVec Format.binary64.numBits} {sign : Sign} {mantissa : Nat}
    {exponent : Int} {hpos : 0 < mantissa}
    (h : UnpackedFloat.unpack Format.binary64 bits = .finite sign mantissa exponent hpos) :
    Canonical mantissa exponent := by
  have hlt := mantissa_unpack_lt h
  obtain ⟨-, rfl⟩ | ⟨habove, hbelow, rfl, rfl⟩ := components_of_finite h
  · exact ⟨hlt, by norm_num, by norm_num, .inl rfl⟩
  · exact ⟨hlt, by omega, by omega, .inr (two_pow_le_toNat_append _)⟩

lemma size_nonneg (mantissa : Nat) (exponent : Int) : 0 ≤ size mantissa exponent := by
  rw [size]
  positivity

lemma size_pos {mantissa : Nat} (h : 0 < mantissa) (exponent : Int) :
    0 < size mantissa exponent := by
  rw [size]
  positivity

/-- A number is on every finer grid. -/
lemma size_eq_of_le (mantissa : Nat) {low high : Int} (h : low ≤ high) :
    size mantissa high = size (mantissa * 2 ^ (high - low).toNat) low := by
  have hpow : (2 : ℚ) ^ high = 2 ^ (high - low).toNat * 2 ^ low := by
    rw [← zpow_natCast, ← zpow_add₀ (by norm_num)]
    congr 1
    omega
  rw [size, size, hpow]
  push_cast
  ring

lemma size_le_iff {first second : Nat} {exponent : Int} :
    size first exponent ≤ size second exponent ↔ first ≤ second := by
  rw [size, size, mul_le_mul_iff_of_pos_right (by positivity), Nat.cast_le]

/-- A float on a finer grid lies below all large points. -/
lemma Canonical.size_lt_of_exponent_lt {mantissa : Nat} {exponent : Int}
    (h : Canonical mantissa exponent) {point : Nat} {grid : Int} (hfiner : exponent < grid)
    (hlarge : 2 ^ 52 ≤ point) : size mantissa exponent < size point grid := by
  calc size mantissa exponent < size (2 ^ 53) exponent := by
        rw [size, size]
        have hlt := h.mantissa_lt
        gcongr
    _ ≤ size (2 ^ 53) (grid - 1) := by
        rw [size, size]
        gcongr
        · norm_num
        · omega
    _ = size (2 ^ 52) grid := by
        have hdouble : (grid - (grid - 1)).toNat = 1 := by omega
        rw [size_eq_of_le _ (by omega : grid - 1 ≤ grid), hdouble]
        norm_num
    _ ≤ size point grid := size_le_iff.2 hlarge

/-- Next to a point of a grid there is no float before the next point, if the point is large enough
for the grid. -/
theorem Canonical.size_le_or_le {mantissa : Nat} {exponent : Int} (h : Canonical mantissa exponent)
    {point : Nat} {grid : Int} (hlarge : grid = -1074 ∨ 2 ^ 52 ≤ point) :
    size mantissa exponent ≤ size point grid ∨ size (point + 1) grid ≤ size mantissa exponent := by
  by_cases hle : grid ≤ exponent
  · rw [size_eq_of_le mantissa hle, size_le_iff, size_le_iff]
    exact Nat.lt_or_ge _ (point + 1) |>.imp_left Nat.le_of_lt_succ
  · left
    have hpoint : 2 ^ 52 ≤ point := hlarge.resolve_left fun hgrid => by
      have := h.least_le
      omega
    exact (h.size_lt_of_exponent_lt (by omega) hpoint).le

/-- A float has one mantissa and one exponent. -/
lemma Canonical.eq_of_size_eq {first second : Nat} {low high : Int} (hfirst : Canonical first low)
    (hsecond : Canonical second high) (h : size first low = size second high) :
    first = second ∧ low = high := by
  rcases lt_trichotomy low high with hlt | rfl | hlt
  · have hlarge := hsecond.normal.resolve_left (by have := hfirst.least_le; omega)
    exact absurd h (hfirst.size_lt_of_exponent_lt hlt hlarge).ne
  · exact ⟨le_antisymm (size_le_iff.1 h.le) (size_le_iff.1 h.ge), rfl⟩
  · have hlarge := hfirst.normal.resolve_left (by have := hsecond.least_le; omega)
    exact absurd h (hsecond.size_lt_of_exponent_lt hlt hlarge).ne'

/-! ## Packing -/

lemma log2_eq {mantissa : Nat} (hlow : 2 ^ 52 ≤ mantissa) (hhigh : mantissa < 2 ^ 53) :
    mantissa.log2 = 52 := by
  have hne : mantissa ≠ 0 := by omega
  have hle := (Nat.le_log2 hne).2 hlow
  have hlt := (Nat.log2_lt hne).2 hhigh
  omega

lemma unpack_pack_of_normal {mantissa : Nat} {exponent : Int} (h : Canonical mantissa exponent)
    (hnormal : 2 ^ 52 ≤ mantissa) (sign : Sign) (hpos : 0 < mantissa) :
    UnpackedFloat.unpack Format.binary64
        (UnpackedFloat.pack Format.binary64 (.finite sign mantissa exponent hpos)) =
      .finite sign mantissa exponent hpos := by
  have hlow := h.least_le
  have hhigh := h.le_greatest
  have hmantissa := h.mantissa_lt
  obtain ⟨biased, hbiased⟩ : ∃ biased : Nat, exponent + 1075 = biased :=
    Int.eq_ofNat_of_zero_le (by omega)
  have htoNat : (exponent + 1023 + 52).toNat = biased := by omega
  rw [pack_finite]
  dsimp only
  rw [htoNat, log2_eq hnormal hmantissa, if_neg (by omega), if_pos rfl, unpack_packComponents,
    ofComponents]
  have hexponent : (BitVec.ofNat 11 biased).toNat = biased := by
    rw [BitVec.toNat_ofNat]
    omega
  have hlast : BitVec.ofNat 11 biased ≠ -1#11 := by bv_omega
  have hfirst : BitVec.ofNat 11 biased ≠ 0#11 := by bv_omega
  have hwhole : (1#1 ++ BitVec.ofNat 52 mantissa).toNat = mantissa := by
    rw [BitVec.toNat_append, ← Nat.shiftLeft_add_eq_or_of_lt (BitVec.isLt _),
      BitVec.toNat_ofNat, BitVec.toNat_ofNat]
    omega
  rw [if_neg hlast, if_neg hfirst]
  congr 1
  omega

lemma unpack_pack_of_subnormal {mantissa : Nat} (h : mantissa < 2 ^ 52) (sign : Sign)
    (hpos : 0 < mantissa) :
    UnpackedFloat.unpack Format.binary64
        (UnpackedFloat.pack Format.binary64 (.finite sign mantissa (-1074) hpos)) =
      .finite sign mantissa (-1074) hpos := by
  have hlog : mantissa.log2 < 52 := log2_lt_of_lt (by norm_num) h
  have htoNat : ((-1074 : Int) + 1023 + 52).toNat = 1 := by norm_num
  rw [pack_finite]
  dsimp only
  rw [htoNat, if_neg (by norm_num), if_neg (by omega), unpack_packComponents, ofComponents]
  have hwhole : (BitVec.ofNat 52 mantissa).toNat = mantissa := by
    rw [BitVec.toNat_ofNat]
    omega
  have hnonzero : BitVec.ofNat 52 mantissa ≠ 0#52 := by bv_omega
  rw [if_neg (by decide), if_pos rfl, dif_neg hnonzero]
  congr 1

/-- Floats are packed without a loss. -/
lemma Canonical.unpack_pack {mantissa : Nat} {exponent : Int} (h : Canonical mantissa exponent)
    (sign : Sign) (hpos : 0 < mantissa) :
    UnpackedFloat.unpack Format.binary64
        (UnpackedFloat.pack Format.binary64 (.finite sign mantissa exponent hpos)) =
      .finite sign mantissa exponent hpos := by
  by_cases hnormal : 2 ^ 52 ≤ mantissa
  · exact unpack_pack_of_normal h hnormal sign hpos
  · obtain rfl := h.normal.resolve_right hnormal
    exact unpack_pack_of_subnormal (by omega) sign hpos

lemma Canonical.exists_float {mantissa : Nat} {exponent : Int} (h : Canonical mantissa exponent)
    (sign : Sign) (hpos : 0 < mantissa) :
    ∃ float : Float, float.toModel.unpack = .finite sign mantissa exponent hpos :=
  ⟨.ofModel (.pack (.finite sign mantissa exponent hpos)), h.unpack_pack sign hpos⟩

/-! ## Rounding to one of two points -/

/-- No float is nearer to the number than the one it is rounded to, and another one is as near only
under the condition.  Signs are left out. -/
def Rounds (number rounded : ℚ) (even : Prop) : Prop :=
  ∀ mantissa exponent, Canonical mantissa exponent →
    |number - rounded| ≤ |number - size mantissa exponent| ∧
      (|number - size mantissa exponent| = |number - rounded| →
        size mantissa exponent = rounded ∨ even)

lemma size_succ (point : Nat) (grid : Int) :
    size (point + 1) grid = size point grid + 2 ^ grid := by
  rw [size, size]
  push_cast
  ring

/-- A number between two points next to each other is rounded to one that is at most half of the
way off, and to an even one when it is exactly half of the way off. -/
theorem rounds_of_between {number rounded : ℚ} {even : Prop} {point : Nat} {grid : Int}
    (hlarge : grid = -1074 ∨ 2 ^ 52 ≤ point) (hlow : size point grid ≤ number)
    (hhigh : number ≤ size (point + 1) grid)
    (hpoint : rounded = size point grid ∨ rounded = size (point + 1) grid)
    (hhalf : 2 * |number - rounded| ≤ 2 ^ grid)
    (heven : 2 * |number - rounded| = 2 ^ grid → even) : Rounds number rounded even := by
  intro mantissa exponent hcanonical
  have hgap := hcanonical.size_le_or_le hlarge
  rw [size_succ] at hgap hhigh hpoint
  generalize size mantissa exponent = value at *
  generalize size point grid = low at *
  generalize (2 : ℚ) ^ grid = unit at *
  rcases hpoint with rfl | rfl
  · rw [abs_of_nonneg (sub_nonneg.2 hlow)] at hhalf heven ⊢
    rcases hgap with hbelow | habove
    · rw [abs_of_nonneg (sub_nonneg.2 (hbelow.trans hlow))]
      exact ⟨by linarith, fun _ => .inl (by linarith)⟩
    · rw [abs_of_nonpos (sub_nonpos.2 (hhigh.trans habove))]
      exact ⟨by linarith, fun _ => .inr (heven (by linarith))⟩
  · rw [abs_of_nonpos (sub_nonpos.2 hhigh)] at hhalf heven ⊢
    rcases hgap with hbelow | habove
    · rw [abs_of_nonneg (sub_nonneg.2 (hbelow.trans hlow))]
      exact ⟨by linarith, fun _ => .inr (heven (by linarith))⟩
    · rw [abs_of_nonpos (sub_nonpos.2 (hhigh.trans habove))]
      exact ⟨by linarith, fun _ => .inl (by linarith)⟩

lemma Rounds.imp {number rounded : ℚ} {even weaker : Prop} (h : Rounds number rounded even)
    (himp : even → weaker) : Rounds number rounded weaker := by
  intro mantissa exponent hcanonical
  obtain ⟨hle, htie⟩ := h mantissa exponent hcanonical
  exact ⟨hle, fun hequal => (htie hequal).imp_right himp⟩

/-- A number that a float stands for is not rounded. -/
lemma Rounds.eq_of_canonical {mantissa : Nat} {exponent : Int} {rounded : ℚ} {even : Prop}
    (h : Rounds (size mantissa exponent) rounded even) (hcanonical : Canonical mantissa exponent) :
    rounded = size mantissa exponent := by
  have hle := (h mantissa exponent hcanonical).1
  rw [sub_self, abs_zero, abs_nonpos_iff, sub_eq_zero] at hle
  exact hle.symm

/-! ## Signs -/

lemma canonical_zero : Canonical 0 (-1074) := ⟨by norm_num, le_rfl, by norm_num, .inl rfl⟩

/-- The nearest float without a sign is the nearest among those with signs as well. -/
lemma Rounds.of_signed {number rounded : ℚ} {even : Prop} (h : Rounds number rounded even)
    (hnumber : 0 ≤ number) {mantissa : Nat} {exponent : Int}
    (hcanonical : Canonical mantissa exponent) {value : ℚ}
    (hvalue : value = size mantissa exponent ∨ value = -size mantissa exponent) :
    |number - rounded| ≤ |number - value| ∧
      (|number - value| = |number - rounded| → value = rounded ∨ even) := by
  rcases hvalue with rfl | rfl
  · exact h mantissa exponent hcanonical
  · -- Zero is nearer than anything below it.
    have hsize := size_nonneg mantissa exponent
    obtain ⟨hzero, htie⟩ := h 0 (-1074) canonical_zero
    have hnone : size 0 (-1074) = 0 := by rw [size, Nat.cast_zero, zero_mul]
    rw [hnone, sub_zero, abs_of_nonneg hnumber] at hzero htie
    rw [sub_neg_eq_add, abs_of_nonneg (add_nonneg hnumber hsize)]
    refine ⟨by linarith, fun hequal => ?_⟩
    have hvanishes : size mantissa exponent = 0 := by linarith
    rw [hvanishes, neg_zero]
    exact htie (by linarith)

/-- A float that stands for a number is a zero, or has the sign of the number. -/
lemma cases_of_rational? {float : Float} {value : ℚ}
    (h : rational? float.toModel.unpack = some value) :
    (value = 0 ∧ ∃ sign, float.toModel.unpack = .zero sign) ∨
    (0 < value ∧ ∃ mantissa exponent hpos, value = size mantissa exponent ∧
      float.toModel.unpack = .finite .positive mantissa exponent hpos) ∨
    (value < 0 ∧ ∃ mantissa exponent hpos, value = -size mantissa exponent ∧
      float.toModel.unpack = .finite .negative mantissa exponent hpos) := by
  cases hunpack : float.toModel.unpack with
  | zero sign =>
    rw [hunpack] at h
    exact .inl ⟨(Option.some.inj h).symm, sign, rfl⟩
  | finite sign mantissa exponent hpos =>
    have hsize := size_pos hpos exponent
    rw [hunpack] at h
    cases sign with
    | positive =>
      obtain rfl := Option.some.inj h
      exact .inr (.inl ⟨hsize, mantissa, exponent, hpos, rfl, rfl⟩)
    | negative =>
      obtain rfl := Option.some.inj h
      exact .inr (.inr ⟨neg_lt_zero.2 hsize, mantissa, exponent, hpos, rfl, rfl⟩)
  | infinity sign =>
    rw [hunpack] at h
    cases h
  | notANumber =>
    rw [hunpack] at h
    cases h

lemma exists_canonical_of_rational? {float : Float} {value : ℚ}
    (h : rational? float.toModel.unpack = some value) : ∃ mantissa exponent,
      Canonical mantissa exponent ∧
        (value = size mantissa exponent ∨ value = -size mantissa exponent) ∧
        (LastEven float.toModel.unpack → mantissa % 2 = 0) := by
  rcases cases_of_rational? h with ⟨hvalue, sign, -⟩ |
    ⟨-, mantissa, exponent, hpos, hvalue, hunpack⟩ | ⟨-, mantissa, exponent, hpos, hvalue, hunpack⟩
  · refine ⟨0, -1074, canonical_zero, .inl ?_, fun _ => rfl⟩
    rw [hvalue, size, Nat.cast_zero, zero_mul]
  · rw [hunpack]
    exact ⟨mantissa, exponent, canonical_of_unpack hunpack, .inl hvalue, id⟩
  · rw [hunpack]
    exact ⟨mantissa, exponent, canonical_of_unpack hunpack, .inr hvalue, id⟩

/-- Two floats that stand for the same number are the same, or are both zeros. -/
lemma unpack_eq_of_rational?_eq {first second : Float} {value : ℚ}
    (hfirst : rational? first.toModel.unpack = some value)
    (hsecond : rational? second.toModel.unpack = some value) :
    first.toModel.unpack = second.toModel.unpack ∨
      ∃ s t, first.toModel.unpack = .zero s ∧ second.toModel.unpack = .zero t := by
  rcases cases_of_rational? hfirst with ⟨hsign, s, hs⟩ | ⟨hsign, m, e, hm, hvalue, hunpack⟩ |
    ⟨hsign, m, e, hm, hvalue, hunpack⟩
  · rcases cases_of_rational? hsecond with ⟨-, t, ht⟩ | ⟨hother, -⟩ | ⟨hother, -⟩
    · exact .inr ⟨s, t, hs, ht⟩
    · exact absurd hsign hother.ne'
    · exact absurd hsign hother.ne
  · rcases cases_of_rational? hsecond with ⟨hother, -⟩ | ⟨-, n, f, hn, hequal, hagain⟩ | ⟨hother, -⟩
    · exact absurd hother hsign.ne'
    · obtain ⟨rfl, rfl⟩ := (canonical_of_unpack hunpack).eq_of_size_eq (canonical_of_unpack hagain)
        (hvalue.symm.trans hequal)
      exact .inl (hunpack.trans hagain.symm)
    · exact absurd hother hsign.not_gt
  · rcases cases_of_rational? hsecond with ⟨hother, -⟩ | ⟨hother, -⟩ | ⟨-, n, f, hn, hequal, hagain⟩
    · exact absurd hother hsign.ne
    · exact absurd hother hsign.not_gt
    · obtain ⟨rfl, rfl⟩ := (canonical_of_unpack hunpack).eq_of_size_eq (canonical_of_unpack hagain)
        (neg_injective (hvalue.symm.trans hequal))
      exact .inl (hunpack.trans hagain.symm)

lemma nearest_zero {float : Float} {sign : Sign} (h : float.toModel.unpack = .zero sign) :
    Nearest 0 float := by
  rw [Nearest, h]
  refine ⟨0, rfl, fun other value hother => ⟨?_, fun _ => .inr trivial⟩⟩
  rw [sub_zero, abs_zero]
  exact abs_nonneg _

section Nearest

variable {number : ℚ} {float : Float} {mantissa : Nat} {exponent : Int} {hpos : 0 < mantissa}

lemma nearest_of_positive (hnumber : 0 ≤ number)
    (hrounds : Rounds number (size mantissa exponent) (mantissa % 2 = 0))
    (h : float.toModel.unpack = .finite .positive mantissa exponent hpos) :
    Nearest number float := by
  rw [Nearest, h]
  refine ⟨_, rfl, fun other value hother => ?_⟩
  obtain ⟨_, _, hcanonical, hvalue, -⟩ := exists_canonical_of_rational? hother
  exact hrounds.of_signed hnumber hcanonical hvalue

lemma nearest_of_negative (hnumber : 0 ≤ number)
    (hrounds : Rounds number (size mantissa exponent) (mantissa % 2 = 0))
    (h : float.toModel.unpack = .finite .negative mantissa exponent hpos) :
    Nearest (-number) float := by
  rw [Nearest, h]
  refine ⟨_, rfl, fun other value hother => ?_⟩
  obtain ⟨_, _, hcanonical, hvalue, -⟩ := exists_canonical_of_rational? hother
  -- The floats lie on both sides of zero alike.
  have hopposite := hvalue.symm.imp neg_eq_iff_eq_neg.2 (congrArg Neg.neg)
  have hmirrored := hrounds.of_signed hnumber hcanonical hopposite
  have hdistance (value : ℚ) : |-number - value| = |number - -value| := by
    rw [← abs_neg, neg_sub, sub_neg_eq_add, sub_neg_eq_add, add_comm]
  rw [hdistance, hdistance, neg_neg]
  exact hmirrored.imp_right fun himp hequal => (himp hequal).imp_left neg_eq_iff_eq_neg.1

end Nearest

/-! ## There is one nearest float -/

/-- Between two mantissas that are even there is another one. -/
lemma Canonical.exists_between {low high : Nat} {lowest highest : Int}
    (hlow : Canonical low lowest) (hhigh : Canonical high highest) (hlowEven : low % 2 = 0)
    (hhighEven : high % 2 = 0) (hlt : size low lowest < size high highest) :
    ∃ mantissa exponent, Canonical mantissa exponent ∧ 0 < mantissa ∧
      size low lowest < size mantissa exponent ∧ size mantissa exponent < size high highest := by
  have hlast := hlow.mantissa_lt
  have hnext : Canonical (low + 1) lowest :=
    ⟨by omega, hlow.least_le, hlow.le_greatest, hlow.normal.imp_right Nat.le_succ_of_le⟩
  refine ⟨low + 1, lowest, hnext, low.succ_pos, ?_, ?_⟩
  · exact lt_of_not_ge fun hle => absurd (size_le_iff.1 hle) (by omega)
  · have hle := (hhigh.size_le_or_le hlow.normal).resolve_left hlt.not_ge
    refine lt_of_le_of_ne hle fun hequal => ?_
    have hsame := (hnext.eq_of_size_eq hhigh hequal).1
    omega

/-- Between two floats whose last places are even there is another one. -/
theorem exists_float_between {first second : Float} {low high : ℚ}
    (hfirst : rational? first.toModel.unpack = some low)
    (hsecond : rational? second.toModel.unpack = some high)
    (hfirstEven : LastEven first.toModel.unpack) (hsecondEven : LastEven second.toModel.unpack)
    (hlt : low < high) :
    ∃ (other : Float) (value : ℚ), rational? other.toModel.unpack = some value ∧
      low < value ∧ value < high := by
  obtain ⟨m, e, hlow, hlowValue, hlowEven⟩ := exists_canonical_of_rational? hfirst
  obtain ⟨n, f, hhigh, hhighValue, hhighEven⟩ := exists_canonical_of_rational? hsecond
  have hlowSize := size_nonneg m e
  have hhighSize := size_nonneg n f
  rcases lt_or_ge low 0 with hnegative | hnonneg
  · rcases lt_or_ge 0 high with hpositive | hnonpos
    · have hzero : (Float.ofNat 0).toModel.unpack = .zero .positive := by rfl
      exact ⟨Float.ofNat 0, 0, congrArg rational? hzero, hnegative, hpositive⟩
    · -- Both are below zero, so what is between their sizes gets a minus.
      have hlowEq : low = -size m e := by
        rcases hlowValue with h | h <;> linarith
      have hhighEq : high = -size n f := by
        rcases hhighValue with h | h <;> linarith
      rw [hlowEq, hhighEq, neg_lt_neg_iff] at hlt
      obtain ⟨mantissa, exponent, hcanonical, hpos, hleft, hright⟩ :=
        hhigh.exists_between hlow (hhighEven hsecondEven) (hlowEven hfirstEven) hlt
      obtain ⟨other, hunpack⟩ := hcanonical.exists_float .negative hpos
      exact ⟨other, -size mantissa exponent, congrArg rational? hunpack, by linarith, by linarith⟩
  · have hlowEq : low = size m e := by
      rcases hlowValue with h | h <;> linarith
    have hhighEq : high = size n f := by
      rcases hhighValue with h | h <;> linarith
    rw [hlowEq, hhighEq] at hlt
    obtain ⟨mantissa, exponent, hcanonical, hpos, hleft, hright⟩ :=
      hlow.exists_between hhigh (hlowEven hfirstEven) (hhighEven hsecondEven) hlt
    obtain ⟨other, hunpack⟩ := hcanonical.exists_float .positive hpos
    exact ⟨other, size mantissa exponent, congrArg rational? hunpack, by linarith, by linarith⟩

lemma abs_sub_lt_of_between {number low value high : ℚ} (h : |number - low| = |number - high|)
    (hlow : low < value) (hhigh : value < high) : |number - value| < |number - low| := by
  rcases abs_eq_abs.1 h with hsame | hopposite
  · linarith
  · rw [abs_of_pos (by linarith : 0 < number - low), abs_lt]
    exact ⟨by linarith, by linarith⟩

/-- All floats that are nearest to a number stand for the same number. -/
theorem exists_rational?_of_nearest {number : ℚ} {first second : Float}
    (hfirst : Nearest number first) (hsecond : Nearest number second) :
    ∃ rounded, rational? first.toModel.unpack = some rounded ∧
      rational? second.toModel.unpack = some rounded := by
  obtain ⟨low, hlow, hlowNearest⟩ := hfirst
  obtain ⟨high, hhigh, hhighNearest⟩ := hsecond
  suffices hequal : low = high from ⟨low, hlow, hequal ▸ hhigh⟩
  by_contra hne
  -- They are equally near, so both are even, and then one between them is nearer.
  have hdistance := le_antisymm (hlowNearest second high hhigh).1 (hhighNearest first low hlow).1
  have hlowEven := ((hlowNearest second high hhigh).2 hdistance.symm).resolve_left (Ne.symm hne)
  have hhighEven := ((hhighNearest first low hlow).2 hdistance).resolve_left hne
  rcases lt_or_gt_of_ne hne with hlt | hlt
  · obtain ⟨other, value, hother, hleft, hright⟩ :=
      exists_float_between hlow hhigh hlowEven hhighEven hlt
    have hnearer := abs_sub_lt_of_between hdistance hleft hright
    exact absurd (hlowNearest other value hother).1 hnearer.not_ge
  · obtain ⟨other, value, hother, hleft, hright⟩ :=
      exists_float_between hhigh hlow hhighEven hlowEven hlt
    have hnearer := abs_sub_lt_of_between hdistance.symm hleft hright
    exact absurd (hhighNearest other value hother).1 hnearer.not_ge

end Conform.Decimal
