import Conform.Coercion
import Mathlib.Tactic.Lemma

/-!
# What coercion can do

A kind describes the values of its own tag, and the kind of anything describes all values.  A value
that its kind describes stays as it is; besides that an integer may be widened to a float, and a
string may be replaced by the scalar that it spells out.  `Kind.coerce_eq_ok` says that this is all.
-/

namespace Conform.Kind

/-- The tag that a kind asks for, unless it takes every value. -/
def tag? : Kind → Option Tag
  | string => some .string
  | integer => some .integer
  | float => some .float
  | boolean => some .boolean
  | null => some .null
  | any => none
  | datetime => some .datetime

/-- A value has the tag that a kind asks for. -/
def Describes (kind : Kind) (value : Value) : Prop := ∀ tag, kind.tag? = some tag → value.tag = tag

/-- The ways in which a kind takes a value. -/
inductive Coerces : Kind → Value → Value → Prop where
  | same {kind : Kind} {value : Value} : kind.Describes value → Coerces kind value value
  | widened (number : Int64) : Coerces float (.integer number) (.float (Value.widen number))
  | integer {text : String} {number : Int64} :
    parseInteger text = some number → Coerces integer (.string text) (.integer number)
  | float {text : String} {number : Float} :
    parseFloat text = some number → Coerces float (.string text) (.float number)
  | boolean {text : String} {truth : Bool} :
    parseBoolean text = some truth → Coerces boolean (.string text) (.boolean truth)
  | datetime {text : String} {stamp : Timestamp} :
    parseTimestamp text = some stamp → Coerces datetime (.string text) (.timestamp stamp)

lemma spelt_eq_ok {text : String} {spelt? : Option Value} {value : Value} :
    spelt text spelt? = .ok value ↔ spelt? = some value := by
  cases spelt? <;> simp [spelt]

lemma spelt_eq_error {text : String} {spelt? : Option Value} {misfit : Misfit} :
    spelt text spelt? = .error misfit ↔ spelt? = none ∧ misfit = .text text := by
  cases spelt? <;> simp [spelt, eq_comm]

lemma coerce_of_describes {kind : Kind} {value : Value} (h : kind.Describes value) :
    kind.coerce value = .ok value := by
  cases kind with
  | any => rfl
  | _ =>
    have htag := h _ rfl
    cases value <;> first | rfl | cases htag

lemma coerces_of_coerce {kind : Kind} {raw value : Value} (h : kind.coerce raw = .ok value) :
    Coerces kind raw value := by
  by_cases hsame : kind.Describes raw
  · rw [coerce_of_describes hsame] at h
    obtain rfl := Except.ok.inj h
    exact .same hsame
  · rw [coerce.eq_def] at h
    split at h
    case h_8 number =>
      obtain rfl := Except.ok.inj h
      exact .widened number
    case h_9 text =>
      obtain ⟨number, hparse, rfl⟩ := Option.map_eq_some_iff.1 (spelt_eq_ok.1 h)
      exact .integer hparse
    case h_10 text =>
      obtain ⟨number, hparse, rfl⟩ := Option.map_eq_some_iff.1 (spelt_eq_ok.1 h)
      exact .float hparse
    case h_11 text =>
      obtain ⟨truth, hparse, rfl⟩ := Option.map_eq_some_iff.1 (spelt_eq_ok.1 h)
      exact .boolean hparse
    case h_12 text =>
      obtain ⟨stamp, hparse, rfl⟩ := Option.map_eq_some_iff.1 (spelt_eq_ok.1 h)
      exact .datetime hparse
    case h_13 => cases h
    -- In the cases that are left the kind describes the value.
    all_goals exact absurd (fun tag htag => by cases htag <;> rfl) hsame

/-- The inputs of a kind and what it makes of them. -/
theorem coerce_eq_ok {kind : Kind} {raw value : Value} :
    kind.coerce raw = .ok value ↔ Coerces kind raw value := by
  constructor
  · exact coerces_of_coerce
  · intro h
    cases h with
    | same hsame => exact coerce_of_describes hsame
    | widened number => rfl
    | integer hparse => exact spelt_eq_ok.2 (by rw [hparse]; rfl)
    | float hparse => exact spelt_eq_ok.2 (by rw [hparse]; rfl)
    | boolean hparse => exact spelt_eq_ok.2 (by rw [hparse]; rfl)
    | datetime hparse => exact spelt_eq_ok.2 (by rw [hparse]; rfl)

/-- A kind that does not take a value names its tag, or the string that it is. -/
lemma misfit_of_coerce {kind : Kind} {raw : Value} {misfit : Misfit}
    (h : kind.coerce raw = .error misfit) :
    misfit = .tag raw.tag ∨ ∃ text, raw = .string text ∧ misfit = .text text := by
  rw [coerce.eq_def] at h
  split at h
  case h_9 text => exact .inr ⟨text, rfl, (spelt_eq_error.1 h).2⟩
  case h_10 text => exact .inr ⟨text, rfl, (spelt_eq_error.1 h).2⟩
  case h_11 text => exact .inr ⟨text, rfl, (spelt_eq_error.1 h).2⟩
  case h_12 text => exact .inr ⟨text, rfl, (spelt_eq_error.1 h).2⟩
  case h_13 => exact .inl (Except.error.inj h).symm
  -- In the cases that are left the kind takes the value.
  all_goals cases h

lemma Coerces.describes {kind : Kind} {raw value : Value} (h : kind.Coerces raw value) :
    kind.Describes value := by
  cases h with
  | same hsame => exact hsame
  | widened => exact fun _ htag => Option.some.inj htag
  | integer => exact fun _ htag => Option.some.inj htag
  | float => exact fun _ htag => Option.some.inj htag
  | boolean => exact fun _ htag => Option.some.inj htag
  | datetime => exact fun _ htag => Option.some.inj htag

/-- A kind takes again what it made of a value. -/
lemma coerce_idempotent {kind : Kind} {raw value : Value} (h : kind.coerce raw = .ok value) :
    kind.coerce value = .ok value :=
  coerce_of_describes (coerce_eq_ok.1 h).describes

end Conform.Kind
