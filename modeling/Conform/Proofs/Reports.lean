import Conform.Proofs.Failures

/-!
# What a failure reports

The place and the kind of an error are those of its failure, whatever the settings; only the message
depends on them.  The limit on depth is named in no message but that of a value that is nested too
deep, and such a failure is never among the reasons of a choice, so under two limits that both let a
run fail for another reason the report is the same (`Validator.Fails.report_congr`).
-/

namespace Conform

/-- The kind of error that a fault is reported as. -/
def Fault.kind : Fault → ErrorKind
  | typeMismatch _ _ => .typeMismatch
  | coercion _ _ => .coercion
  | missingField _ => .missingField
  | extraFields _ => .extraField
  | constraint _ => .constraint
  | unionExhausted _ => .unionExhausted
  | depthExceeded => .depthExceeded

@[simp] lemma Fault.kind_report (config : Config) (place : String) (fault : Fault) :
    (fault.report config place).kind = fault.kind := by
  cases fault <;> rfl

@[simp] lemma Fault.path_report (config : Config) (place : String) (fault : Fault) :
    (fault.report config place).path = place := by
  cases fault <;> rfl

lemma Fault.isDepth_iff (fault : Fault) :
    fault.isDepth = true ↔ fault.kind = .depthExceeded := by
  cases fault <;> simp [isDepth, kind]

lemma Failure.report_eq (config : Config) (root : String) (failure : Failure) :
    failure.report config root = failure.fault.report config (failure.path.textFrom root) := by
  obtain ⟨path, fault⟩ := failure
  rfl

@[simp] lemma Failure.kind_report (config : Config) (root : String) (failure : Failure) :
    (failure.report config root).kind = failure.fault.kind := by
  rw [report_eq, Fault.kind_report]

@[simp] lemma Failure.path_report (config : Config) (root : String) (failure : Failure) :
    (failure.report config root).path = failure.path.textFrom root := by
  rw [report_eq, Fault.path_report]

/-- The message of a fault names neither a place nor the way of reporting, unless it gives the
reasons of a choice. -/
lemma Fault.message_report (config other : Config) (hlimit : config.maxDepth = other.maxDepth)
    {fault : Fault} (h : fault.kind ≠ .unionExhausted ∨
      (config.unionErrors = .summary ∧ other.unionErrors = .summary)) (place elsewhere : String) :
    (fault.report config place).message = (fault.report other elsewhere).message := by
  cases fault with
  | unionExhausted rejections =>
    obtain ⟨hconfig, hother⟩ := h.resolve_left (absurd rfl)
    rw [report, report, hconfig, hother]
    rfl
  | depthExceeded =>
    rw [report, report, hlimit]
    rfl
  | _ => rfl

/-- Seen from the whole, a part is reported below the place at which it stands. -/
lemma Failure.report_under (config : Config) (root : String) (failure : Failure)
    (segment : Segment) :
    (failure.under segment).report config root = failure.report config (root ++ segment.text) := by
  rw [report_eq, report_eq]
  rfl

lemma reasons_congr {config other : Config} {place : String}
    {rejections : List (Shape × Failure)}
    (h : ∀ rejection ∈ rejections,
      rejection.2.report config place = rejection.2.report other place) (index : Nat) :
    reasons config place index rejections = reasons other place index rejections := by
  induction rejections generalizing index with
  | nil => rfl
  | cons rejection rejections ih =>
    obtain ⟨hfirst, hothers⟩ := List.forall_mem_cons.1 h
    obtain ⟨shape, failure⟩ := rejection
    rw [reasons, reasons, hfirst, ih hothers]

/-- A failure other than of depth is worded without regard to the limit. -/
theorem Validator.Fails.report_congr {validator : Validator} {budget : Nat} {raw : Value}
    {failure : Failure} (h : validator.Fails budget raw failure)
    (hshallow : failure.fault.isDepth = false) {config other : Config}
    (hreporting : config.unionErrors = other.unionErrors) (root : String) :
    failure.report config root = failure.report other root := by
  induction h generalizing root with
  | @misfit _ _ _ misfit _ => cases misfit <;> rfl
  | notMapping => rfl
  | notSequence => rfl
  | missing => rfl
  | undeclared => rfl
  | tooDeep => cases hshallow
  | @part _ _ _ _ _ segment failure _ _ _ ih =>
    rw [Failure.report_under, Failure.report_under]
    exact ih hshallow (root ++ segment.text)
  | base _ ih => exact ih hshallow root
  | broken => rfl
  | alternative _ _ _ ih => exact ih hshallow root
  | @exhausted refusals _ _ _ hdepths ih =>
    have hreasons : reasons config root 0
          (refusals.map fun refusal => (refusal.1.shape, refusal.2)) =
        reasons other root 0 (refusals.map fun refusal => (refusal.1.shape, refusal.2)) := by
      apply reasons_congr
      intro rejection hrejection
      obtain ⟨refusal, hrefusal, rfl⟩ := List.mem_map.1 hrejection
      exact ih refusal hrefusal (hdepths refusal hrefusal) root
    show Fault.report config root _ = Fault.report other root _
    rw [Fault.report, Fault.report, hreporting, hreasons]

end Conform
