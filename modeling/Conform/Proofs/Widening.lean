import Conform.Proofs.Decimal.Rounding
import Conform.Proofs.Equality
import Conform.Proofs.Outcome

/-!
# Two ways from a text to a float

The text of an integer is a decimal text as well.  It can be taken for a float at once, or for an
integer that is widened later.  Both ways come to the float nearest to the integer, however many
digits and leading zeros the text has, and nearest floats of one integer are equal
(`Validator.float_through_integer`).

They need not be the same.  An integer has no negative zero, so a zero that the text writes with a
minus loses its sign on the way through the integer.
-/

namespace Conform

namespace Decimal

lemma fst_sign_eq_true_iff {text : List Char} :
    (sign text).1 = true ↔ text.head? = some '-' := by
  rw [sign.eq_def]
  split
  case h_1 => simp
  case h_2 => simp
  case h_3 hplus hminus =>
    cases text with
    | nil => simp
    | cons first rest =>
      have hfirst : first ≠ '-' := fun heq => hminus rest (by rw [heq])
      simp [hfirst]

lemma Literal.negative_eq_of_ofChars? {text : List Char} {literal : Literal}
    (h : ofChars? text = some literal) : literal.negative = (sign text).1 := by
  rw [ofChars?] at h
  dsimp only at h
  split at h
  · cases h
  · obtain ⟨exponent, -, rfl⟩ := Option.map_eq_some_iff.1 h
    rfl

/-- The float of an integer text is that of the integer, but zero keeps its sign. -/
lemma Literal.toFloat_eq_ofInt (negative : Bool) (digits : List Char) :
    toFloat ⟨negative, digits, [], 0⟩ =
      if negative = true ∧ signed negative (value digits) = 0 then
        -Float.ofInt (signed negative (value digits))
      else Float.ofInt (signed negative (value digits)) := by
  have hsize : toFloat ⟨negative, digits, [], 0⟩ = if negative = true then
      -Float.ofInt (value digits) else Float.ofInt (value digits) := by
    show (if negative then -nearest (value (digits ++ [])) 0
      else nearest (value (digits ++ [])) 0) = _
    rw [List.append_nil]
    rfl
  rw [hsize]
  cases negative with
  | false => rfl
  | true =>
    generalize value digits = n
    cases n with
    | zero => rfl
    | succ n => rfl

/-- Nearest floats of one number are equal. -/
lemma beq_of_nearest {number : ℚ} {first second : Float} (hfirst : Nearest number first)
    (hsecond : Nearest number second) : (first == second) = true := by
  obtain ⟨rounded, hleft, hright⟩ := exists_rational?_of_nearest hfirst hsecond
  rw [Value.float_beq_iff, Value.compare_eq_iff]
  rcases unpack_eq_of_rational?_eq hleft hright with hsame | hzeros
  · refine .inl ⟨hsame, fun hnan => ?_⟩
    rw [hnan] at hleft
    cases hleft
  · exact .inr hzeros

end Decimal

/-- The float of an integer, but a zero that the text writes with a minus keeps its sign. -/
def Value.widenSpelt (text : String) (integer : Int64) : Float :=
  if text.toList.head? = some '-' ∧ integer = 0 then -widen integer else widen integer

section Integers

variable (text : String) (integer : Int64)

lemma nearest_widen : Decimal.Nearest integer.toInt (Value.widen integer) := by
  have hlow := integer.le_toInt
  have hhigh := integer.toInt_lt
  exact Decimal.nearest_ofInt (by omega)

lemma nearest_widenSpelt : Decimal.Nearest integer.toInt (Value.widenSpelt text integer) := by
  rw [Value.widenSpelt]
  split
  · rename_i hzero
    have hunpack : (-Value.widen 0).toModel.unpack = .zero .negative := rfl
    rw [hzero.2]
    exact Decimal.nearest_zero hunpack
  · exact nearest_widen integer

lemma float_widenSpelt_beq :
    (Value.float (Value.widenSpelt text integer) == Value.float (Value.widen integer)) = true :=
  Decimal.beq_of_nearest (nearest_widenSpelt text integer) (nearest_widen integer)

end Integers

lemma parseFloat_of_parseInteger {text : String} {integer : Int64}
    (h : parseInteger text = some integer) :
    parseFloat text = some (Value.widenSpelt text integer) := by
  obtain ⟨negative, digits, hliteral, hinteger, hvalue⟩ := exists_literal_of_parseInteger h
  have hsign : negative = true ↔ text.toList.head? = some '-' := by
    rw [← Decimal.fst_sign_eq_true_iff, ← Decimal.Literal.negative_eq_of_ofChars? hliteral]
  have hzero : integer.toInt = 0 ↔ integer = 0 := by rw [← Int64.toInt_inj, Int64.toInt_zero]
  have hfloat : Decimal.Literal.toFloat ⟨negative, digits, [], 0⟩ =
      Value.widenSpelt text integer := by
    rw [Decimal.Literal.toFloat_eq_ofInt, Value.widenSpelt, ← hinteger]
    simp only [hsign, hzero, Value.widen]
  rw [parseFloat, hliteral, ← hfloat]
  simp [Decimal.isFinite_toFloat negative hvalue]

namespace Validator

/-- **The two ways agree.**  A text that spells out an integer spells out a float as well, and that
is the widened integer but for the sign of a zero; both are the float nearest to the integer.  So
after the validator for integers has taken the text, the one for floats takes what it came to and
comes to a value equal to what it makes of the text itself. -/
theorem float_through_integer {text : String} {integer : Int64}
    (h : parseInteger text = some integer) :
    ∃ number, parseFloat text = some number ∧
      (Value.float number == Value.float (Value.widen integer)) = true ∧
      number = Value.widenSpelt text integer ∧
      Decimal.Nearest integer.toInt number ∧
      Decimal.Nearest integer.toInt (Value.widen integer) ∧
      ∀ config root,
        (primitive .float).validateWith config root (.string text) = .ok (.float number) ∧
        (primitive .integer).validateWith config root (.string text) = .ok (.integer integer) ∧
        (primitive .float).validateWith config root (.integer integer) =
          .ok (.float (Value.widen integer)) := by
  have hfloat := parseFloat_of_parseInteger h
  refine ⟨_, hfloat, float_widenSpelt_beq text integer, rfl, nearest_widenSpelt text integer,
    nearest_widen integer, fun config root => ⟨?_, ?_, ?_⟩⟩
  · rw [validateWith_eq_ok, run_primitive_eq_ok, Kind.coerce_eq_ok]
    exact .float hfloat
  · rw [validateWith_eq_ok, run_primitive_eq_ok, Kind.coerce_eq_ok]
    exact .integer h
  · rw [validateWith_eq_ok, run_primitive_eq_ok, Kind.coerce_eq_ok]
    exact .widened integer

/-- An odd integer just beyond 53 digits is half-way between two floats. -/
theorem float_through_integer_halfway :
    parseInteger "-09007199254740993" = some (-9007199254740993) ∧
      ∃ number, parseFloat "-09007199254740993" = some number ∧
        number = Value.widen (-9007199254740993) ∧
        number = -Float.ofNat 9007199254740992 ∧
        Decimal.Nearest (-9007199254740993) number := by
  have hparse : parseInteger "-09007199254740993" = some (-9007199254740993) := by decide
  obtain ⟨number, hfloat, -, hspelt, hnearest, -⟩ := float_through_integer hparse
  have hwiden : Value.widenSpelt "-09007199254740993" (-9007199254740993) =
    Value.widen (-9007199254740993) := by decide
  refine ⟨hparse, number, hfloat, hspelt.trans hwiden, ?_, hnearest⟩
  rw [hspelt]
  rfl

example : (parseFloat "-00").map Float.toBits = some 0x8000000000000000 ∧
    (parseInteger "-00").map (Float.toBits ∘ Value.widen) = some 0 := by
  decide

end Validator

end Conform
