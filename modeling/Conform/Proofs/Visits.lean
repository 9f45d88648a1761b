import Conform.Proofs.Steps
import Conform.Proofs.Trees

/-!
# Visits

A run puts one validator after another to the value and to its parts.  Each time is a visit
(`Visit`); its steps are those of the run that it would be on its own, seen from further up
(`Visit.steps`), and `Validator.Reaches` says which visits there can be.

The visit of a subtype ends with the test of its constraints, if its base comes to a value
(`Visit.EndsIn`).  Conversely every test in a run ends such a visit, and all steps of this visit
stand next to one another in the run (`Validator.traced_run`).
-/

namespace Conform

open Run

/-! ## Visits -/

/-- A validator is put to a value, at a place below the start, with a budget of steps down. -/
structure Visit where
  path : Path
  validator : Validator
  budget : Nat
  value : Value

namespace Visit

/-- A visit of a part, seen from the whole. -/
def under (segment : Segment) (visit : Visit) : Visit :=
  { visit with path := segment :: visit.path }

/-- The steps of a visit, seen from the start. -/
def steps (visit : Visit) : List Step :=
  (visit.validator.run visit.budget visit.value).steps.map fun step =>
    { step with path := visit.path ++ step.path }

lemma steps_under (segment : Segment) (visit : Visit) :
    (visit.under segment).steps =
      visit.steps.map fun step => { step with path := segment :: step.path } := by
  rw [steps, steps, List.map_map]
  rfl

/-- A visit of a subtype whose base comes to a value: after all steps of the base there is one more,
in which the constraints are tested on that value. -/
structure EndsIn (visit : Visit) (base : Validator) (constraints : List Constraint) (value : Value)
    (step : Step) : Prop where
  validator_eq : visit.validator = .subtype base constraints
  base_outcome : (base.run visit.budget visit.value).outcome = .ok value
  event_eq : step.event = .tested value (Constraint.test value constraints)
  steps_eq : visit.steps = ⟨visit.path, .entered .subtype⟩ ::
    ({ visit with validator := base } : Visit).steps ++ [step]

lemma EndsIn.under {visit : Visit} {base : Validator} {constraints : List Constraint}
    {value : Value} {step : Step} (h : visit.EndsIn base constraints value step)
    (segment : Segment) :
    (visit.under segment).EndsIn base constraints value
      { step with path := segment :: step.path } where
  validator_eq := h.validator_eq
  base_outcome := h.base_outcome
  event_eq := h.event_eq
  steps_eq := by
    have hbase := steps_under segment { visit with validator := base }
    rw [steps_under, h.steps_eq, List.map_append, List.map_cons, ← hbase]
    rfl

lemma steps_start (validator : Validator) (budget : Nat) (raw : Value) :
    (Visit.mk [] validator budget raw).steps = (validator.run budget raw).steps :=
  List.map_id _

lemma endsIn_start {base : Validator} {budget : Nat} {raw value : Value}
    (h : (base.run budget raw).outcome = .ok value) (constraints : List Constraint) :
    (Visit.mk [] (.subtype base constraints) budget raw).EndsIn base constraints value
      ⟨[], .tested value (Constraint.test value constraints)⟩ where
  validator_eq := rfl
  base_outcome := h
  event_eq := rfl
  steps_eq := by
    rw [steps_start, steps_start, Validator.run, steps_bind_of_ok (note_outcome _),
      steps_bind_of_ok h, Constraint.steps_gate]
    rfl

end Visit

/-- The visits to which it can lead that a validator is put to a value. -/
inductive Validator.Reaches : Validator → Nat → Value → Visit → Prop where
  | here {validator : Validator} {budget : Nat} {raw : Value} :
    Reaches validator budget raw ⟨[], validator, budget, raw⟩
  | base {base : Validator} {constraints : List Constraint} {budget : Nat} {raw : Value}
    {visit : Visit} :
    Reaches base budget raw visit → Reaches (subtype base constraints) budget raw visit
  | alternative {alternatives : List Validator} {first : Validator} {budget : Nat} {raw : Value}
    {visit : Visit} :
    first ∈ alternatives → Reaches first budget raw visit →
      Reaches (choice alternatives) budget raw visit
  | part {validator inner : Validator} {left : Nat} {raw part : Value} {segment : Segment}
    {visit : Visit} :
    validator.Visits segment inner → raw.HasPart segment part → Reaches inner left part visit →
      Reaches validator (left + 1) raw (visit.under segment)

/-! ## Every test belongs to a visit -/

/-- A step that is a test ends a visit that stands among some steps as a whole. -/
def Owned (reached : Visit → Prop) (steps : List Step) (step : Step) : Prop :=
  ∀ value results, step.event = .tested value results →
    ∃ visit base constraints, reached visit ∧ visit.EndsIn base constraints value step ∧
      visit.steps <:+: steps

/-- Every test among some steps ends a visit that stands among them as a whole. -/
def Traced (reached : Visit → Prop) (steps : List Step) : Prop :=
  ∀ step ∈ steps, Owned reached steps step

section Traced

variable {reached other : Visit → Prop} {steps front back : List Step}

lemma Owned.within {step : Step} (h : Owned reached front step) (hwithin : front <:+: steps) :
    Owned reached steps step := by
  intro value results hevent
  obtain ⟨visit, base, constraints, hreached, hends, hvisit⟩ := h value results hevent
  exact ⟨visit, base, constraints, hreached, hends, hvisit.trans hwithin⟩

lemma traced_of_untested
    (h : ∀ step ∈ steps, ∀ value results, step.event ≠ .tested value results) :
    Traced reached steps :=
  fun step hstep value results hevent => absurd hevent (h step hstep value results)

lemma Traced.mono (h : Traced reached steps) (himp : ∀ visit, reached visit → other visit) :
    Traced other steps := by
  intro step hstep value results hevent
  obtain ⟨visit, base, constraints, hreached, hvisit⟩ := h step hstep value results hevent
  exact ⟨visit, base, constraints, himp visit hreached, hvisit⟩

lemma Traced.append (hfront : Traced reached front) (hback : Traced reached back) :
    Traced reached (front ++ back) := by
  refine List.forall_mem_append.2 ⟨fun step hstep => ?_, fun step hstep => ?_⟩
  · exact (hfront step hstep).within (List.prefix_append front back).isInfix
  · exact (hback step hstep).within (List.suffix_append front back).isInfix

lemma Traced.cons {step : Step} (hstep : ∀ value results, step.event ≠ .tested value results)
    (h : Traced reached steps) : Traced reached (step :: steps) :=
  Traced.append (traced_of_untested (List.forall_mem_singleton.2 hstep)) h

/-- A last step may end the visit to which all of the steps belong. -/
lemma Traced.concat (hfront : Traced reached front) {visit : Visit} {base : Validator}
    {constraints : List Constraint} {value : Value} {step : Step} (hreached : reached visit)
    (hends : visit.EndsIn base constraints value step) (hsteps : visit.steps = front ++ [step]) :
    Traced reached (front ++ [step]) := by
  refine List.forall_mem_append.2 ⟨fun step hstep => ?_, List.forall_mem_singleton.2 ?_⟩
  · exact (hfront step hstep).within (List.prefix_append front _).isInfix
  · intro tested results hevent
    obtain ⟨rfl, -⟩ := Event.tested.inj (hends.event_eq.symm.trans hevent)
    rw [← hsteps]
    exact ⟨visit, base, constraints, hreached, hends, List.infix_rfl⟩

lemma Traced.below {α : Type} {run : Run α} {segment : Segment}
    (h : Traced (fun visit => reached (visit.under segment)) run.steps) :
    Traced reached (run.below segment).steps := by
  intro step hstep value results hevent
  obtain ⟨inner, hinner, rfl⟩ := List.mem_map.1 hstep
  obtain ⟨visit, base, constraints, hreached, hends, hwithin⟩ :=
    h inner hinner value results hevent
  refine ⟨visit.under segment, base, constraints, hreached, hends.under segment, ?_⟩
  rw [Visit.steps_under]
  exact hwithin.map _

lemma traced_compositional (reached : Visit → Prop) :
    Compositional fun {_} run => Traced reached run.steps where
  quiet hquiet := traced_of_untested hquiet.untested
  bind := by
    intro α β run next hrun hnext
    cases houtcome : run.outcome with
    | error failure =>
      rw [steps_bind_of_error houtcome]
      exact hrun
    | ok value =>
      rw [steps_bind_of_ok houtcome]
      exact hrun.append (hnext value houtcome)

end Traced

namespace Validator

lemma traced_descend {validator inner : Validator} {budget : Nat} {raw part : Value}
    {segment : Segment} (hvisits : validator.Visits segment inner)
    (hpart : raw.HasPart segment part)
    (h : ∀ left, Traced (inner.Reaches left part) (inner.run left part).steps) :
    Traced (validator.Reaches budget raw)
      (descend segment budget fun left => inner.run left part).steps := by
  cases budget with
  | zero => exact traced_of_untested (by simp [descend, Run.below, fail])
  | succ left => exact ((h left).mono fun visit hvisit => .part hvisits hpart hvisit).below

lemma traced_firstOf {alternatives : List Validator} {budget : Nat} {raw : Value}
    {reached : Visit → Prop}
    (h : ∀ first ∈ alternatives, Traced reached (first.run budget raw).steps)
    (refused : List (Shape × Failure)) :
    Traced reached (firstOf alternatives refused budget raw).steps := by
  induction alternatives generalizing refused with
  | nil => exact traced_of_untested (by simp [firstOf, fail])
  | cons first others ih =>
    obtain ⟨hfirst, hothers⟩ := List.forall_mem_cons.1 h
    cases houtcome : (first.run budget raw).outcome with
    | ok value =>
      rw [firstOf_cons_of_ok houtcome]
      exact hfirst
    | error failure =>
      cases hdepth : failure.fault.isDepth with
      | true =>
        rw [firstOf_cons_of_depth houtcome hdepth]
        exact hfirst
      | false =>
        rw [firstOf_cons_of_refused houtcome hdepth]
        exact hfirst.append ((ih hothers _).cons (by simp))

/-- Every test of a run is the end of a visit to which the run leads. -/
theorem traced_run (validator : Validator) (budget : Nat) (raw : Value) :
    Traced (validator.Reaches budget raw) (validator.run budget raw).steps := by
  induction validator generalizing budget raw with
  | primitive kind => exact (traced_compositional _).primitive kind raw
  | record fields extra ihFields ihExtra =>
    apply (traced_compositional _).record
    intro segment inner part hvisits hpart
    refine traced_descend hvisits hpart fun left => ?_
    cases hvisits with
    | field hfield => exact ihFields _ hfield left part
    | extra _ => exact ihExtra _ rfl left part
  | subtype base constraints ih =>
    have hbase : Traced ((subtype base constraints).Reaches budget raw)
        (base.run budget raw).steps :=
      (ih budget raw).mono fun _ => .base
    cases houtcome : (base.run budget raw).outcome with
    | error failure =>
      rw [Validator.run]
      refine (traced_compositional _).noted (by simp) ?_
      rw [steps_bind_of_error houtcome]
      exact hbase
    | ok value =>
      have hends := Visit.endsIn_start houtcome constraints
      have hsteps := hends.steps_eq
      rw [← Visit.steps_start, hsteps]
      refine Traced.concat (Traced.cons (by simp) ?_) .here hends hsteps
      rw [Visit.steps_start]
      exact hbase
  | array element ih =>
    apply (traced_compositional _).array
    intro segment inner part hvisits hpart
    refine traced_descend hvisits hpart fun left => ?_
    cases hvisits
    exact ih left part
  | choice alternatives ih =>
    rw [Validator.run]
    refine (traced_compositional _).noted (by simp) ?_
    refine traced_firstOf (fun first hfirst => ?_) []
    exact (ih first hfirst budget raw).mono fun visit hvisit => .alternative hfirst hvisit

end Validator

end Conform
