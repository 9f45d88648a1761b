import Conform.Proofs.Outcome
import Conform.Proofs.Parts

/-!
# What runs go through

A run goes through the steps of the runs that it is built of, in order, up to the first that fails.
What is kept when runs are joined, and holds of runs in which no constraint is tested, is kept by
records and arrays as soon as it holds of their parts (`Run.Compositional`); it remains to be said
of subtypes, where constraints are tested, and of choices, which go on after a failure.
-/

namespace Conform

namespace Run

variable {α β : Type}

/-! ## Runs joined -/

lemma steps_bind_of_ok {run : Run α} {value : α} (h : run.outcome = .ok value)
    (next : α → Run β) : (run >>= next).steps = run.steps ++ (next value).steps := by
  show (Run.bind run next).steps = _
  rw [Run.bind, h]

lemma steps_bind_of_error {run : Run α} {failure : Failure} (h : run.outcome = .error failure)
    (next : α → Run β) : (run >>= next).steps = run.steps := by
  show (Run.bind run next).steps = _
  rw [Run.bind, h]

lemma evaluations_bind_of_ok {run : Run α} {value : α} (h : run.outcome = .ok value)
    (next : α → Run β) :
    (run >>= next).evaluations = run.evaluations ++ (next value).evaluations := by
  rw [evaluations, steps_bind_of_ok h, List.flatMap_append, evaluations, evaluations]

lemma evaluations_bind_of_error {run : Run α} {failure : Failure}
    (h : run.outcome = .error failure) (next : α → Run β) :
    (run >>= next).evaluations = run.evaluations := by
  rw [evaluations, steps_bind_of_error h, evaluations]

/-- To put a result into another form takes no test. -/
lemma evaluations_bind_pure (run : Run α) (form : α → β) :
    (run >>= fun value => (Pure.pure (form value) : Run β)).evaluations = run.evaluations := by
  cases houtcome : run.outcome with
  | ok value => exact (evaluations_bind_of_ok houtcome _).trans (List.append_nil run.evaluations)
  | error failure => exact evaluations_bind_of_error houtcome _

@[simp] lemma evaluations_below (segment : Segment) (run : Run α) :
    (run.below segment).evaluations = run.evaluations :=
  List.flatMap_map _ _ run.steps

/-! ## Runs without tests -/

/-- No constraint is tested in a run, and none is what it fails for. -/
structure Quiet (run : Run α) : Prop where
  untested : ∀ step ∈ run.steps, ∀ value results, step.event ≠ .tested value results
  unbroken : ∀ path message, run.outcome ≠ .error ⟨path, .constraint message⟩

lemma Quiet.evaluations_eq_nil {run : Run α} (h : run.Quiet) : run.evaluations = [] := by
  rw [evaluations, List.flatMap_eq_nil_iff]
  intro step hstep
  obtain ⟨path, event⟩ := step
  cases event with
  | tested value results => exact absurd rfl (h.untested _ hstep value results)
  | _ => rfl

lemma quiet_pure (value : α) : (Pure.pure value : Run α).Quiet where
  untested := by simp [Pure.pure, Run.pure]
  unbroken := by simp

lemma quiet_fail {fault : Fault} (h : ∀ message, fault ≠ .constraint message) :
    (fail fault : Run α).Quiet where
  untested := by simp [fail]
  unbroken := by simp [h]

lemma quiet_note {event : Event} (h : ∀ value results, event ≠ .tested value results) :
    (note event).Quiet where
  untested := by simpa [note] using h
  unbroken := by simp

lemma Quiet.below {run : Run α} (h : run.Quiet) (segment : Segment) :
    (run.below segment).Quiet where
  untested := by
    intro step hstep
    obtain ⟨inner, hinner, rfl⟩ := List.mem_map.1 hstep
    exact h.untested inner hinner
  unbroken := by
    intro path message houtcome
    obtain ⟨⟨inner, fault⟩, hinner, heq⟩ := below_eq_error.1 houtcome
    obtain ⟨-, rfl⟩ := Failure.mk.inj heq
    exact h.unbroken inner message hinner

end Run

open Run

/-! ## Tests -/

namespace Constraint

/-- To let a value pass takes one step, whether or not it does. -/
lemma steps_gate (constraints : List Constraint) (value : Value) :
    (gate constraints value).steps = [⟨[], .tested value (test value constraints)⟩] := by
  rw [gate, steps_bind_of_ok (note_outcome _)]
  cases broken? (test value constraints) <;> rfl

lemma evaluations_gate (constraints : List Constraint) (value : Value) :
    (gate constraints value).evaluations =
      (test value constraints).map fun result => ⟨result.1, value, result.2⟩ := by
  rw [evaluations, steps_gate]
  exact List.append_nil _

end Constraint

/-! ## Properties of whole runs -/

namespace Run

/-- What holds of runs without tests, and of joined runs when it holds of each of them. -/
structure Compositional (holds : ∀ {α : Type}, Run α → Prop) : Prop where
  quiet : ∀ {α : Type} {run : Run α}, run.Quiet → holds run
  bind : ∀ {α β : Type} {run : Run α} {next : α → Run β}, holds run →
    (∀ value, run.outcome = .ok value → holds (next value)) → holds (run >>= next)

namespace Compositional

variable {holds : ∀ {α : Type}, Run α → Prop} (h : Compositional holds) {budget : Nat}

include h

lemma noted {event : Event} (hevent : ∀ value results, event ≠ .tested value results)
    {run : Run α} (hrun : holds run) : holds (note event >>= fun _ => run) :=
  h.bind (h.quiet (quiet_note hevent)) fun _ _ => hrun

lemma items {visit : Nat → Value → Run Value} {start : Nat} {items : List Value}
    (hitems : ∀ index item, items[index]? = some item →
      holds (descend (.index (start + index)) budget fun left => visit left item)) :
    holds (Run.items visit budget start items) := by
  induction items generalizing start with
  | nil => exact h.quiet (quiet_pure [])
  | cons item items ih =>
    refine h.bind (hitems 0 item rfl) fun first _ => h.bind ?_ fun others _ =>
      h.quiet (quiet_pure (first :: others))
    apply ih
    intro index part hpart
    rw [Nat.add_right_comm]
    exact hitems (index + 1) part hpart

lemma entries {visit : Nat → Value → Run Value} {entries : List (String × Value)}
    (hentries : ∀ entry ∈ entries,
      holds (descend (.key entry.1) budget fun left => visit left entry.2)) :
    holds (Run.entries visit budget entries) := by
  induction entries with
  | nil => exact h.quiet (quiet_pure [])
  | cons entry entries ih =>
    obtain ⟨hfirst, hothers⟩ := List.forall_mem_cons.1 hentries
    exact h.bind hfirst fun first _ => h.bind (ih hothers) fun others _ =>
      h.quiet (quiet_pure ((entry.1, first) :: others))

lemma fields {fields : List Field} {input : Map Value}
    (hfields : ∀ field ∈ fields, ∀ value, input.get? field.name = some value →
      holds (descend (.key field.name) budget fun left => field.validator.run left value)) :
    holds (Field.run fields budget input) := by
  induction fields with
  | nil => exact h.quiet (quiet_pure [])
  | cons field fields ih =>
    obtain ⟨hfirst, hothers⟩ := List.forall_mem_cons.1 hfields
    obtain ⟨name, validator, optional⟩ := field
    rw [Field.run]
    cases hget : input.get? name with
    | some value =>
      exact h.bind (hfirst value hget) fun first _ => h.bind (ih hothers) fun others _ =>
        h.quiet (quiet_pure ((name, first) :: others))
    | none =>
      cases optional with
      | true => exact ih hothers
      | false => exact h.quiet ((quiet_fail (by simp)).below (.key name))

lemma extra {extra : Extra} {undeclared : List (String × Value)}
    (hextra : ∀ validator, extra = .typed validator → ∀ entry ∈ undeclared,
      holds (descend (.key entry.1) budget fun left => validator.run left entry.2)) :
    holds (extra.run budget undeclared) := by
  cases extra with
  | closed =>
    cases undeclared with
    | nil => exact h.quiet (quiet_pure [])
    | cons entry undeclared => exact h.quiet (quiet_fail (by simp))
  | ignored =>
    cases undeclared with
    | nil => exact h.quiet (quiet_pure [])
    | cons entry undeclared => exact h.noted (by simp) (h.quiet (quiet_pure []))
  | typed validator => exact h.entries (hextra validator rfl)

/-! Scalars, records and arrays; what is asked of the parts is asked of the steps down to them. -/

lemma primitive (kind : Kind) (raw : Value) :
    holds ((Validator.primitive kind).run budget raw) := by
  rw [Validator.run]
  refine h.noted (by simp) ?_
  rw [Kind.run]
  cases kind.coerce raw with
  | ok value => exact h.quiet (quiet_pure value)
  | error misfit => exact h.quiet (quiet_fail (by cases misfit <;> simp [Misfit.fault]))

lemma record {fields : List Field} {extra : Extra} {raw : Value}
    (hparts : ∀ segment inner part, (Validator.record fields extra).Visits segment inner →
      raw.HasPart segment part → holds (descend segment budget fun left => inner.run left part)) :
    holds ((Validator.record fields extra).run budget raw) := by
  simp only [Validator.run]
  refine h.noted (by simp) ?_
  cases raw with
  | mapping input =>
    have hfields : holds (Field.run fields budget input) := by
      apply h.fields
      intro field hfield value hget
      exact hparts _ _ _ (.field hfield) (.entry (Map.mem_of_lookup hget))
    have hextra : holds (extra.run budget (Field.undeclared fields input)) := by
      apply h.extra
      rintro validator rfl ⟨key, part⟩ hentry
      obtain ⟨hmem, hundeclared⟩ := Field.mem_undeclared.1 hentry
      exact hparts _ _ _ (.extra hundeclared) (.entry hmem)
    exact h.bind hfields fun declared _ => h.bind hextra fun kept _ => h.quiet (quiet_pure _)
  | _ => exact h.quiet (quiet_fail (by simp))

lemma array {element : Validator} {raw : Value}
    (hparts : ∀ segment inner part, (Validator.array element).Visits segment inner →
      raw.HasPart segment part → holds (descend segment budget fun left => inner.run left part)) :
    holds ((Validator.array element).run budget raw) := by
  simp only [Validator.run]
  refine h.noted (by simp) ?_
  cases raw with
  | sequence items =>
    refine h.bind (h.items ?_) fun results _ => h.quiet (quiet_pure _)
    intro index item hitem
    rw [Nat.zero_add]
    exact hparts _ _ _ (.element index) (.item hitem)
  | _ => exact h.quiet (quiet_fail (by simp))

end Compositional

end Run

end Conform
