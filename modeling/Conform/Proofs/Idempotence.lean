import Conform.Proofs.Decimal.Finite
import Conform.Proofs.Recovery

/-!
# Validating twice

A validator leaves alone what it has made of a value: `Validator.validateWith_idempotent`.  This is
recovery from a result that comes back unchanged, under the two conditions of `Recovery.recovers`.

What makes it so is that no scalar kind refuses a value and then changes what another kind has made
of it (`Kind.Coerces.eq_of_refused`).  A string is taken by every kind
that reads it, so what matters is who takes the scalar that was read; and the only kind that changes
anything but a string is the one of floats, which widens an integer.  It would have read the text of
the integer first.
-/

namespace Conform

/-! ## Scalars -/

/-- A kind that refused a value and takes what another kind made of it leaves that as it is. -/
theorem Kind.Coerces.eq_of_refused {kind other : Kind} {raw value taken : Value}
    (h : kind.Coerces raw value) {misfit : Misfit} (hrefused : other.coerce raw = .error misfit)
    (htakes : other.Coerces value taken) : taken = value := by
  have hchanged : raw ≠ value := by
    rintro rfl
    rw [coerce_eq_ok.2 htakes] at hrefused
    cases hrefused
  cases htakes with
  | same => rfl
  | widened number =>
    cases h with
    | same => exact absurd rfl hchanged
    | integer hparse =>
      obtain ⟨float, hfloat⟩ := exists_parseFloat_of_parseInteger hparse
      rw [coerce_eq_ok.2 (.float hfloat)] at hrefused
      cases hrefused
  -- No kind makes a string of anything else.
  | integer => cases h with | same => exact absurd rfl hchanged
  | float => cases h with | same => exact absurd rfl hchanged
  | boolean => cases h with | same => exact absurd rfl hchanged
  | datetime => cases h with | same => exact absurd rfl hchanged

/-- The kinds recover what they made of any value from it as it is. -/
lemma recovery_id : Recovery id fun _ => True where
  sequence items := by rw [List.map_id]; rfl
  mapping entries := by simp
  part _ _ := trivial
  coerce _ h := Kind.coerce_of_describes h.describes
  refused _ h hrefused htakes := h.eq_of_refused hrefused htakes

/-! ## All validators -/

namespace Validator

/-- With the same budget a validator comes to the value that it has come to once before. -/
def Settles (validator : Validator) : Prop :=
  ∀ (budget : Nat) (raw value : Value), (validator.run budget raw).outcome = .ok value →
    (validator.run budget value).outcome = .ok value

lemma settles {validator : Validator} (hfields : validator.Everywhere HasDistinctFields)
    (hchoices : validator.Everywhere ChoosesScalars) : validator.Settles := by
  intro budget raw value h
  exact recovery_id.recovers hfields hchoices budget raw value trivial h

/-- **Idempotence.** What a validator makes of a value it leaves as it is. -/
theorem validateWith_idempotent {validator : Validator}
    (hfields : validator.Everywhere HasDistinctFields)
    (hchoices : validator.Everywhere ChoosesScalars) {config : Config} {root : String}
    {raw value : Value} (h : validator.validateWith config root raw = .ok value) :
    validator.validateWith config root value = .ok value :=
  validateWith_eq_ok.2 (settles hfields hchoices _ _ _ (validateWith_eq_ok.1 h))

/-- Things with an identifier, which may be a truth or a number, and with marks that are truths. -/
def marked : Validator :=
  record [⟨"id", choice [primitive .boolean, primitive .integer, primitive .float], false⟩]
    (.typed (primitive .boolean))

theorem validateWith_idempotent_marked :
    marked.validateWith ⟨1, .detailed⟩ "$"
        (.mapping ⟨[("seen", .string "true"), ("id", .string "042")]⟩) =
      .ok (.mapping ⟨[("id", .integer 42), ("seen", .boolean true)]⟩) ∧
    marked.validateWith ⟨1, .detailed⟩ "$"
        (.mapping ⟨[("id", .integer 42), ("seen", .boolean true)]⟩) =
      .ok (.mapping ⟨[("id", .integer 42), ("seen", .boolean true)]⟩) := by
  have hfields : marked.Everywhere HasDistinctFields := by
    simp [marked, Everywhere, Field.Everywhere, Extra.Everywhere, AllEverywhere, HasDistinctFields]
  have hchoices : marked.Everywhere ChoosesScalars := by
    simp [marked, Everywhere, Field.Everywhere, Extra.Everywhere, AllEverywhere, ChoosesScalars]
  have hfirst : marked.validateWith ⟨1, .detailed⟩ "$"
      (.mapping ⟨[("seen", .string "true"), ("id", .string "042")]⟩) =
    .ok (.mapping ⟨[("id", .integer 42), ("seen", .boolean true)]⟩) := rfl
  exact ⟨hfirst, validateWith_idempotent hfields hchoices hfirst⟩

end Validator

end Conform
