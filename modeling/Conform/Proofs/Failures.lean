import Conform.Proofs.Outcome
import Conform.Proofs.Parts
import Conform.Proofs.Trees
import Mathlib.Data.List.Basic

/-!
# How a validator fails

`Validator.Fails` lists the ways in which a validator does not accept a value with a budget of steps
down.  A failure is found where the validator stands, or is that of a part, reported one step
further down; a subtype and a choice hand on failures of the validators that they put to the same
value.  `Validator.fails_of_run` says that the list is complete, so what is to be shown of failures
is shown by induction on it.
-/

namespace Conform

open Run

/-! ## Runs on parts -/

lemma Run.exists_of_items_error {visit : Nat → Value → Run Value} {budget start : Nat}
    {items : List Value} {failure : Failure}
    (h : (Run.items visit budget start items).outcome = .error failure) :
    ∃ index item, items[index]? = some item ∧
      (descend (.index (start + index)) budget fun left => visit left item).outcome =
        .error failure := by
  induction items generalizing start with
  | nil => cases h
  | cons item items ih =>
    rw [Run.items, bind_eq_error] at h
    obtain hfirst | ⟨first, -, hrest⟩ := h
    · exact ⟨0, item, rfl, hfirst⟩
    · obtain hothers | ⟨others, -, hpure⟩ := bind_eq_error.1 hrest
      · obtain ⟨index, part, hpart, hfails⟩ := ih hothers
        refine ⟨index + 1, part, hpart, ?_⟩
        rw [Nat.add_right_comm] at hfails
        exact hfails
      · cases hpure

lemma Run.exists_of_entries_error {visit : Nat → Value → Run Value} {budget : Nat}
    {entries : List (String × Value)} {failure : Failure}
    (h : (Run.entries visit budget entries).outcome = .error failure) :
    ∃ entry ∈ entries,
      (descend (.key entry.1) budget fun left => visit left entry.2).outcome = .error failure := by
  induction entries with
  | nil => cases h
  | cons entry entries ih =>
    obtain ⟨key, value⟩ := entry
    rw [Run.entries, bind_eq_error] at h
    obtain hfirst | ⟨first, -, hrest⟩ := h
    · exact List.exists_mem_cons_of entries hfirst
    · obtain hothers | ⟨others, -, hpure⟩ := bind_eq_error.1 hrest
      · exact List.exists_mem_cons_of_exists (ih hothers)
      · cases hpure

/-- Fields fail at one that is present and not accepted, or required and absent. -/
lemma Field.exists_of_run_error {fields : List Field} {budget : Nat} {input : Map Value}
    {failure : Failure} (h : (Field.run fields budget input).outcome = .error failure) :
    ∃ field ∈ fields,
      (∃ value, input.get? field.name = some value ∧
        (descend (.key field.name) budget fun left => field.validator.run left value).outcome =
          .error failure) ∨
      (input.get? field.name = none ∧ field.optional = false ∧
        failure = ⟨[.key field.name], .missingField field.name⟩) := by
  induction fields with
  | nil => cases h
  | cons field fields ih =>
    obtain ⟨name, validator, optional⟩ := field
    rw [Field.run] at h
    cases hget : input.get? name with
    | some value =>
      simp only [hget] at h
      obtain hfirst | ⟨first, -, hothers⟩ := bind_eq_error.1 h
      · exact List.exists_mem_cons_of fields (.inl ⟨value, hget, hfirst⟩)
      · obtain hothers | ⟨others, -, hpure⟩ := bind_eq_error.1 hothers
        · exact List.exists_mem_cons_of_exists (ih hothers)
        · cases hpure
    | none =>
      simp only [hget] at h
      cases optional with
      | true => exact List.exists_mem_cons_of_exists (ih h)
      | false =>
        obtain ⟨inner, hinner, rfl⟩ := below_eq_error.1 h
        cases hinner
        exact List.exists_mem_cons_of fields (.inr ⟨hget, rfl, rfl⟩)

/-- Extras fail when there are any that are refused, or at one that is not accepted. -/
lemma Extra.exists_of_run_error {extra : Extra} {budget : Nat}
    {undeclared : List (String × Value)} {failure : Failure}
    (h : (extra.run budget undeclared).outcome = .error failure) :
    (extra = .closed ∧ undeclared ≠ [] ∧ failure = ⟨[], .extraFields (undeclared.map Prod.fst)⟩) ∨
    ∃ validator, extra = .typed validator ∧ ∃ entry ∈ undeclared,
      (descend (.key entry.1) budget fun left => validator.run left entry.2).outcome =
        .error failure := by
  cases extra with
  | closed =>
    cases undeclared with
    | nil => cases h
    | cons entry undeclared =>
      cases h
      exact .inl ⟨rfl, List.cons_ne_nil entry undeclared, rfl⟩
  | ignored => cases undeclared <;> cases h
  | typed validator => exact .inr ⟨validator, rfl, exists_of_entries_error h⟩

/-- Either all constraints hold, or they are tested up to the first that does not. -/
lemma Constraint.test_cases (value : Value) (constraints : List Constraint) :
    ((∀ constraint ∈ constraints, constraint.holds value = true) ∧
      test value constraints = constraints.map (·, true)) ∨
    ∃ front broken back, constraints = front ++ broken :: back ∧
      (∀ constraint ∈ front, constraint.holds value = true) ∧ broken.holds value = false ∧
      test value constraints = front.map (·, true) ++ [(broken, false)] := by
  induction constraints with
  | nil => exact .inl ⟨by simp, rfl⟩
  | cons first others ih =>
    rw [test]
    cases hfirst : first.holds value with
    | false => exact .inr ⟨[], first, others, rfl, by simp, hfirst, rfl⟩
    | true =>
      obtain ⟨hall, htest⟩ | ⟨front, broken, back, rfl, hfront, hbroken, htest⟩ := ih
      · refine .inl ⟨List.forall_mem_cons.2 ⟨hfirst, hall⟩, ?_⟩
        exact congrArg ((first, true) :: ·) htest
      · refine .inr ⟨first :: front, broken, back, rfl,
          List.forall_mem_cons.2 ⟨hfirst, hfront⟩, hbroken, ?_⟩
        exact congrArg ((first, true) :: ·) htest

lemma Constraint.gate_eq_error {constraints front : List Constraint} {value : Value}
    {broken : Constraint} (h : test value constraints = front.map (·, true) ++ [(broken, false)]) :
    (gate constraints value).outcome = .error ⟨[], .constraint broken.message⟩ := by
  have hfront : (front.map (·, true)).find? (fun result => !result.2) = none := by simp
  have hbroken : broken? (test value constraints) = some broken := by
    rw [broken?, h, List.find?_append, hfront]
    rfl
  rw [gate, bind_outcome, hbroken]
  rfl

lemma Constraint.exists_of_gate_error {constraints : List Constraint} {value : Value}
    {failure : Failure} (h : (gate constraints value).outcome = .error failure) :
    ∃ broken ∈ constraints, broken.holds value = false ∧
      failure = ⟨[], .constraint broken.message⟩ := by
  obtain ⟨hall, -⟩ | ⟨front, broken, back, rfl, -, hbroken, htest⟩ := test_cases value constraints
  · rw [gate_eq_ok.2 ⟨rfl, hall⟩] at h
    cases h
  · rw [gate_eq_error htest] at h
    exact ⟨broken, by simp, hbroken, (Except.error.inj h).symm⟩

/-- A choice fails when it runs out of budget, or with all that its alternatives say. -/
lemma Validator.exists_of_firstOf_error {alternatives : List Validator}
    {refused : List (Shape × Failure)} {budget : Nat} {raw : Value} {failure : Failure}
    (h : (firstOf alternatives refused budget raw).outcome = .error failure) :
    (∃ first ∈ alternatives, (first.run budget raw).outcome = .error failure ∧
      failure.fault.isDepth = true) ∨
    ∃ refusals : List (Validator × Failure), alternatives = refusals.map Prod.fst ∧
      (∀ refusal ∈ refusals, (refusal.1.run budget raw).outcome = .error refusal.2 ∧
        refusal.2.fault.isDepth = false) ∧
      failure = ⟨[], .unionExhausted
        (refused ++ refusals.map fun refusal => (refusal.1.shape, refusal.2))⟩ := by
  induction alternatives generalizing refused with
  | nil =>
    cases h
    exact .inr ⟨[], rfl, by simp, by simp⟩
  | cons first others ih =>
    cases houtcome : (first.run budget raw).outcome with
    | ok value =>
      rw [firstOf_cons_of_ok houtcome, houtcome] at h
      cases h
    | error refusal =>
      cases hdepth : refusal.fault.isDepth with
      | true =>
        rw [firstOf_cons_of_depth houtcome hdepth, houtcome] at h
        cases h
        exact .inl (List.exists_mem_cons_of others ⟨houtcome, hdepth⟩)
      | false =>
        rw [firstOf_cons_of_refused houtcome hdepth] at h
        obtain hdeep | ⟨refusals, rfl, hall, rfl⟩ := ih h
        · exact .inl (List.exists_mem_cons_of_exists hdeep)
        · refine .inr ⟨(first, refusal) :: refusals, rfl, ?_, by simp⟩
          exact List.forall_mem_cons.2 ⟨⟨houtcome, hdepth⟩, hall⟩

/-! ## All validators -/

namespace Validator

/-- The ways in which a validator fails on a value with a budget of steps down. -/
inductive Fails : Validator → Nat → Value → Failure → Prop where
  | misfit {kind : Kind} {budget : Nat} {raw : Value} {misfit : Misfit} :
    kind.coerce raw = .error misfit → Fails (primitive kind) budget raw ⟨[], misfit.fault kind⟩
  | notMapping {fields : List Field} {extra : Extra} {budget : Nat} {raw : Value} :
    raw.tag ≠ .object →
      Fails (record fields extra) budget raw ⟨[], .typeMismatch "object" raw.tag⟩
  | notSequence {element : Validator} {budget : Nat} {raw : Value} :
    raw.tag ≠ .array → Fails (array element) budget raw ⟨[], .typeMismatch "array" raw.tag⟩
  | missing {fields : List Field} {extra : Extra} {budget : Nat} {input : Map Value}
    {field : Field} :
    field ∈ fields → input.get? field.name = none →
      Fails (record fields extra) budget (.mapping input)
        ⟨[.key field.name], .missingField field.name⟩
  | undeclared {fields : List Field} {budget : Nat} {input : Map Value} :
    Field.undeclared fields input ≠ [] →
      Fails (record fields .closed) budget (.mapping input)
        ⟨[], .extraFields ((Field.undeclared fields input).map Prod.fst)⟩
  | tooDeep {validator inner : Validator} {raw part : Value} {segment : Segment} :
    validator.Visits segment inner → raw.HasPart segment part →
      Fails validator 0 raw ⟨[segment], .depthExceeded⟩
  | part {validator inner : Validator} {left : Nat} {raw part : Value} {segment : Segment}
    {failure : Failure} :
    validator.Visits segment inner → raw.HasPart segment part → Fails inner left part failure →
      Fails validator (left + 1) raw (failure.under segment)
  | base {base : Validator} {constraints : List Constraint} {budget : Nat} {raw : Value}
    {failure : Failure} :
    Fails base budget raw failure → Fails (subtype base constraints) budget raw failure
  | broken {base : Validator} {constraints : List Constraint} {budget : Nat} {raw value : Value}
    {broken : Constraint} :
    (base.run budget raw).outcome = .ok value → broken ∈ constraints →
      broken.holds value = false →
      Fails (subtype base constraints) budget raw ⟨[], .constraint broken.message⟩
  | alternative {alternatives : List Validator} {first : Validator} {budget : Nat} {raw : Value}
    {failure : Failure} :
    first ∈ alternatives → Fails first budget raw failure → failure.fault.isDepth = true →
      Fails (choice alternatives) budget raw failure
  | exhausted {refusals : List (Validator × Failure)} {budget : Nat} {raw : Value} :
    (∀ refusal ∈ refusals, Fails refusal.1 budget raw refusal.2) →
      (∀ refusal ∈ refusals, refusal.2.fault.isDepth = false) →
      Fails (choice (refusals.map Prod.fst)) budget raw
        ⟨[], .unionExhausted (refusals.map fun refusal => (refusal.1.shape, refusal.2))⟩

/-- A failed step down is a failure of the part, unless there is no budget for it. -/
lemma Fails.of_descend {validator inner : Validator} {budget : Nat} {raw part : Value}
    {segment : Segment} {failure : Failure} (hvisits : validator.Visits segment inner)
    (hpart : raw.HasPart segment part)
    (hinner : ∀ left failure, (inner.run left part).outcome = .error failure →
      inner.Fails left part failure)
    (h : (descend segment budget fun left => inner.run left part).outcome = .error failure) :
    validator.Fails budget raw failure := by
  obtain ⟨rfl, rfl⟩ | ⟨left, below, rfl, hbelow, rfl⟩ := descend_eq_error.1 h
  · exact .tooDeep hvisits hpart
  · exact .part hvisits hpart (hinner left below hbelow)

theorem fails_of_run {validator : Validator} {budget : Nat} {raw : Value} {failure : Failure}
    (h : (validator.run budget raw).outcome = .error failure) :
    validator.Fails budget raw failure := by
  induction validator generalizing budget raw failure with
  | primitive kind =>
    rw [outcome_run_primitive] at h
    obtain ⟨misfit, hcoerce, rfl⟩ := Kind.run_eq_error.1 h
    exact .misfit hcoerce
  | record fields extra ihFields ihExtra =>
    cases raw with
    | mapping input =>
      rw [outcome_run_record, bind_eq_error] at h
      obtain hdeclared | ⟨declared, -, hrest⟩ := h
      · obtain ⟨field, hfield, ⟨value, hget, hfails⟩ | ⟨hget, -, rfl⟩⟩ :=
          Field.exists_of_run_error hdeclared
        · exact .of_descend (.field hfield) (.entry (Map.mem_of_lookup hget))
            (fun left failure => ihFields field hfield) hfails
        · exact .missing hfield hget
      · obtain hkept | ⟨kept, -, hpure⟩ := bind_eq_error.1 hrest
        · obtain ⟨rfl, hundeclared, rfl⟩ | ⟨validator, rfl, ⟨key, part⟩, hentry, hfails⟩ :=
            Extra.exists_of_run_error hkept
          · exact .undeclared hundeclared
          · obtain ⟨hmem, hundeclared⟩ := Field.mem_undeclared.1 hentry
            exact .of_descend (.extra hundeclared) (.entry hmem)
              (fun left failure => ihExtra validator rfl) hfails
        · cases hpure
    | _ =>
      cases h
      exact .notMapping (by simp [Value.tag])
  | subtype base constraints ih =>
    rw [outcome_run_subtype, bind_eq_error] at h
    obtain hbase | ⟨value, hbase, hgate⟩ := h
    · exact .base (ih hbase)
    · obtain ⟨broken, hmem, hholds, rfl⟩ := Constraint.exists_of_gate_error hgate
      exact .broken hbase hmem hholds
  | array element ih =>
    cases raw with
    | sequence items =>
      rw [outcome_run_array, bind_eq_error] at h
      obtain hitems | ⟨items, -, hpure⟩ := h
      · obtain ⟨index, item, hitem, hfails⟩ := exists_of_items_error hitems
        rw [Nat.zero_add] at hfails
        exact .of_descend (.element index) (.item hitem) (fun left failure => ih) hfails
      · cases hpure
    | _ =>
      cases h
      exact .notSequence (by simp [Value.tag])
  | choice alternatives ih =>
    rw [outcome_run_choice] at h
    obtain ⟨first, hfirst, hfails, hdepth⟩ | ⟨refusals, rfl, hall, rfl⟩ :=
      exists_of_firstOf_error h
    · exact .alternative hfirst (ih first hfirst hfails) hdepth
    · have hfails : ∀ refusal ∈ refusals, refusal.1.Fails budget raw refusal.2 := by
        intro refusal hrefusal
        exact ih refusal.1 (List.mem_map_of_mem hrefusal) (hall refusal hrefusal).1
      have hshallow : ∀ refusal ∈ refusals, refusal.2.fault.isDepth = false := by
        intro refusal hrefusal
        exact (hall refusal hrefusal).2
      exact .exhausted hfails hshallow

/-- A failure stands no further down than the budget goes; only a value that is nested too deep, and
a field that is absent, stand one step below that. -/
lemma Fails.length_path {validator : Validator} {budget : Nat} {raw : Value} {failure : Failure}
    (h : validator.Fails budget raw failure) :
    match failure.fault with
    | .depthExceeded => failure.path.length = budget + 1
    | .missingField _ => failure.path.length ≤ budget + 1
    | _ => failure.path.length ≤ budget := by
  induction h with
  | @misfit _ _ _ misfit _ => cases misfit <;> exact Nat.zero_le _
  | notMapping => exact Nat.zero_le _
  | notSequence => exact Nat.zero_le _
  | missing => exact Nat.le_add_left _ _
  | undeclared => exact Nat.zero_le _
  | tooDeep => rfl
  | @part _ _ left _ _ segment failure _ _ _ ih =>
    obtain ⟨path, fault⟩ := failure
    cases fault with
    | depthExceeded => exact congrArg (· + 1) ih
    | _ => exact Nat.succ_le_succ ih
  | base _ ih => exact ih
  | broken => exact Nat.zero_le _
  | alternative _ _ _ ih => exact ih
  | exhausted => exact Nat.zero_le _

end Validator

end Conform
