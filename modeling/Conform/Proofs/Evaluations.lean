import Conform.Proofs.Reports
import Conform.Proofs.Visits

/-!
# Which constraints are tested, and when

The order of all tests of a run.  A subtype tests its constraints on what its base makes of the
value, up to the first that does not hold (`Constraint.test_cases`), and then it fails.  Records and
arrays end at the first failure of a part, so a run that fails for a constraint has made its last
test, and that test is the one reported (`Run.Gated`).  Only a choice goes on after a constraint did
not hold; its own failure is never that of a constraint.

Together with `Validator.traced_run`, which finds for every test the visit to which it belongs,
`Validator.tests_in_order` says all of this of whole runs.
-/

namespace Conform

open Run

/-! ## Constraints in order -/

namespace Constraint

lemma holds_of_mem_test {value : Value} {constraints : List Constraint}
    {result : Constraint × Bool} (h : result ∈ test value constraints) :
    result.2 = result.1.holds value := by
  have hfront (front : List Constraint)
      (hall : ∀ constraint ∈ front, constraint.holds value = true)
      (hmem : result ∈ front.map (·, true)) : result.2 = result.1.holds value := by
    obtain ⟨constraint, hconstraint, rfl⟩ := List.mem_map.1 hmem
    exact (hall constraint hconstraint).symm
  obtain ⟨hall, htest⟩ | ⟨front, broken, back, -, hall, hbroken, htest⟩ :=
    test_cases value constraints
  · rw [htest] at h
    exact hfront constraints hall h
  · rw [htest] at h
    obtain hmem | hmem := List.mem_append.1 h
    · exact hfront front hall hmem
    · obtain rfl := List.mem_singleton.1 hmem
      exact hbroken.symm

/-- The constraints that are tested come first, and all of them are if none fails. -/
lemma map_fst_test (value : Value) (constraints : List Constraint) :
    (test value constraints).map Prod.fst <+: constraints ∧
      ((∀ result ∈ test value constraints, result.2 = true) →
        (test value constraints).map Prod.fst = constraints) := by
  obtain ⟨-, htest⟩ | ⟨front, broken, back, rfl, -, -, htest⟩ := test_cases value constraints
  · have hall : (test value constraints).map Prod.fst = constraints := by
      rw [htest]
      simp [Function.comp_def]
    rw [hall]
    exact ⟨List.prefix_rfl, fun _ => rfl⟩
  · rw [htest]
    refine ⟨⟨back, by simp [Function.comp_def]⟩, fun h => ?_⟩
    cases h (broken, false) (by simp)

/-- Only the last of the constraints that are tested can fail. -/
lemma holds_of_mem_dropLast_test {value : Value} {constraints : List Constraint}
    {result : Constraint × Bool} (h : result ∈ (test value constraints).dropLast) :
    result.2 = true := by
  have hfront (front : List Constraint) (hmem : result ∈ front.map (·, true)) :
      result.2 = true := by
    obtain ⟨constraint, -, rfl⟩ := List.mem_map.1 hmem
    rfl
  obtain ⟨-, htest⟩ | ⟨front, broken, back, -, -, -, htest⟩ := test_cases value constraints
  · rw [htest] at h
    exact hfront constraints (List.dropLast_subset _ h)
  · rw [htest, List.dropLast_concat] at h
    exact hfront front h

end Constraint

/-! ## The last test of a run -/

namespace Run

/-- A run either fails for the constraint that it tested last, or for none; all of its other tests
have `passed`. -/
inductive Gated {α : Type} (passed : Evaluation → Prop) (run : Run α) : Prop where
  | broken {front : List Evaluation} {last : Evaluation} {path : Path} :
    run.evaluations = front ++ [last] → (∀ test ∈ front, passed test) → last.holds = false →
      run.outcome = .error ⟨path, .constraint last.constraint.message⟩ → Gated passed run
  | unbroken : (∀ path message, run.outcome ≠ .error ⟨path, .constraint message⟩) →
    (∀ test ∈ run.evaluations, passed test) → Gated passed run

variable {passed : Evaluation → Prop}

/-- Nothing is tested after a failure, so what a run tests last stays last when it is joined. -/
lemma gated_compositional : Compositional fun {_} run => run.Gated passed where
  quiet := by
    intro α run hquiet
    refine .unbroken hquiet.unbroken fun test htest => ?_
    rw [hquiet.evaluations_eq_nil] at htest
    cases htest
  bind := by
    intro α β run next hrun hnext
    cases hrun with
    | broken htests hfront hlast houtcome =>
      refine .broken ?_ hfront hlast (bind_eq_error.2 (.inl houtcome))
      rw [evaluations_bind_of_error houtcome, htests]
    | unbroken hnone hpassed =>
      cases houtcome : run.outcome with
      | error failure =>
        refine .unbroken (fun path message h => ?_) ?_
        · rw [bind_outcome, houtcome] at h
          obtain rfl := Except.error.inj h
          exact hnone path message houtcome
        · rw [evaluations_bind_of_error houtcome]
          exact hpassed
      | ok value =>
        have htests := evaluations_bind_of_ok houtcome next
        have hbind : (run >>= next).outcome = (next value).outcome := by
          rw [bind_outcome, houtcome]
          rfl
        cases hnext value houtcome with
        | broken hmore hfront hlast hfails =>
          rw [hmore, ← List.append_assoc] at htests
          exact .broken htests (List.forall_mem_append.2 ⟨hpassed, hfront⟩) hlast
            (hbind.trans hfails)
        | unbroken hnone hmore =>
          refine .unbroken ?_ ?_
          · rw [hbind]
            exact hnone
          · rw [htests]
            exact List.forall_mem_append.2 ⟨hpassed, hmore⟩

lemma Gated.below {run : Run Value} (h : run.Gated passed) (segment : Segment) :
    (run.below segment).Gated passed := by
  cases h with
  | broken htests hfront hlast houtcome =>
    refine .broken ?_ hfront hlast (below_eq_error.2 ⟨_, houtcome, rfl⟩)
    rw [evaluations_below, htests]
  | unbroken hnone hpassed =>
    refine .unbroken (fun path message h => ?_) ?_
    · obtain ⟨⟨inner, fault⟩, hinner, heq⟩ := below_eq_error.1 h
      obtain ⟨-, rfl⟩ := Failure.mk.inj heq
      exact hnone inner message hinner
    · rw [evaluations_below]
      exact hpassed

lemma Gated.descend {segment : Segment} {budget : Nat} {visit : Nat → Run Value}
    (h : ∀ left, (visit left).Gated passed) : (descend segment budget visit).Gated passed := by
  cases budget with
  | zero => exact gated_compositional.quiet ((quiet_fail (by simp)).below segment)
  | succ left => exact (h left).below segment

lemma Gated.exists_last {run : Run Value} (h : run.Gated passed) {path : Path} {message : String}
    (hfails : run.outcome = .error ⟨path, .constraint message⟩) :
    ∃ front last, run.evaluations = front ++ [last] ∧ last.holds = false ∧
      last.constraint.message = message := by
  cases h with
  | broken htests _ hlast houtcome =>
    rw [hfails] at houtcome
    injection houtcome with hfailure
    injection hfailure with _ hfault
    injection hfault with hmessage
    exact ⟨_, _, htests, hlast, hmessage.symm⟩
  | unbroken hnone _ => exact absurd hfails (hnone path message)

/-- When only tests that held have passed, none but the last one fails. -/
lemma Gated.holds_of_mem_dropLast {run : Run Value} (h : run.Gated (·.holds = true))
    {test : Evaluation} (htest : test ∈ run.evaluations.dropLast) : test.holds = true := by
  cases h with
  | broken htests hfront _ _ =>
    rw [htests, List.dropLast_concat] at htest
    exact hfront test htest
  | unbroken _ hpassed => exact hpassed test (List.dropLast_subset _ htest)

lemma Gated.exists_fails_iff {run : Run Value} (h : run.Gated (·.holds = true)) :
    (∃ test ∈ run.evaluations, test.holds = false) ↔
      ∃ path message, run.outcome = .error ⟨path, .constraint message⟩ := by
  constructor
  · rintro ⟨test, htest, hfails⟩
    cases h with
    | broken _ _ _ houtcome => exact ⟨_, _, houtcome⟩
    | unbroken _ hpassed =>
      rw [hpassed test htest] at hfails
      cases hfails
  · rintro ⟨path, message, houtcome⟩
    obtain ⟨front, last, htests, hlast, -⟩ := h.exists_last houtcome
    exact ⟨last, by simp [htests], hlast⟩

lemma gated_gate (hpassed : ∀ test : Evaluation, test.holds = true → passed test)
    (constraints : List Constraint) (value : Value) :
    (Constraint.gate constraints value).Gated passed := by
  have hheld (front : List Constraint) :
      ∀ test ∈ front.map (Evaluation.mk · value true), passed test := by
    intro test hmem
    obtain ⟨constraint, -, rfl⟩ := List.mem_map.1 hmem
    exact hpassed _ rfl
  obtain ⟨hall, htest⟩ | ⟨front, broken, back, -, -, -, htest⟩ :=
    Constraint.test_cases value constraints
  · refine .unbroken (by simp [Constraint.gate_eq_ok.2 ⟨rfl, hall⟩]) ?_
    rw [Constraint.evaluations_gate, htest, List.map_map]
    exact hheld constraints
  · have htests : (Constraint.gate constraints value).evaluations =
        front.map (⟨·, value, true⟩) ++ [⟨broken, value, false⟩] := by
      rw [Constraint.evaluations_gate, htest, List.map_append, List.map_map]
      rfl
    exact .broken htests (hheld front) rfl (Constraint.gate_eq_error htest)

end Run

/-- A validator that is not a choice. -/
def Validator.NoChoice : Validator → Prop
  | choice _ => False
  | _ => True

namespace Validator

/-- A choice that fails does so because the value is nested too deep, or as exhausted. -/
lemma run_choice_ne_constraint (alternatives : List Validator) (budget : Nat) (raw : Value)
    (path : Path) (message : String) :
    ((choice alternatives).run budget raw).outcome ≠ .error ⟨path, .constraint message⟩ := by
  intro h
  rw [outcome_run_choice] at h
  obtain ⟨first, -, -, hdepth⟩ | ⟨refusals, -, -, heq⟩ := exists_of_firstOf_error h
  · cases hdepth
  · cases heq

/-- A run that fails for a constraint tested it last, and without choices all tests in front of the
last one have held. -/
lemma gated_run {passed : Evaluation → Prop} {validator : Validator}
    (hpassed : ∀ test : Evaluation, test.holds = true → passed test)
    (h : (∀ test, passed test) ∨ validator.Everywhere NoChoice) (budget : Nat) (raw : Value) :
    (validator.run budget raw).Gated passed := by
  induction validator generalizing budget raw with
  | primitive kind => exact gated_compositional.primitive kind raw
  | record fields extra ihFields ihExtra =>
    apply gated_compositional.record
    intro segment inner part hvisits _
    refine Gated.descend fun left => ?_
    cases hvisits with
    | field hfield => exact ihFields _ hfield (h.imp_right (·.field hfield)) left part
    | extra _ => exact ihExtra _ rfl (h.imp_right (·.extra)) left part
  | subtype base constraints ih =>
    rw [Validator.run]
    refine gated_compositional.noted (by simp) ?_
    exact gated_compositional.bind (ih (h.imp_right (·.base)) budget raw)
      fun value _ => gated_gate hpassed constraints value
  | array element ih =>
    apply gated_compositional.array
    intro segment inner part hvisits _
    refine Gated.descend fun left => ?_
    cases hvisits
    exact ih (h.imp_right (·.element)) left part
  | choice alternatives _ =>
    obtain hall | hnone := h
    · exact .unbroken (run_choice_ne_constraint alternatives budget raw) fun test _ => hall test
    · exact hnone.here.elim

/-! ## Whole runs -/

lemma exists_constraint_of_error {validator : Validator} {config : Config} {root : String}
    {raw : Value} {error : ValidationError}
    (h : validator.validateWith config root raw = .error error) (hkind : error.kind = .constraint) :
    ∃ path, (validator.run config.maxDepth raw).outcome =
      .error ⟨path, .constraint error.message⟩ := by
  obtain ⟨⟨path, fault⟩, houtcome, rfl⟩ := validateWith_eq_error.1 h
  cases fault with
  | constraint message => exact ⟨path, houtcome⟩
  | _ => cases hkind

lemma exists_constraint_error_iff {validator : Validator} {config : Config} {root : String}
    {raw : Value} :
    (∃ error, validator.validateWith config root raw = .error error ∧ error.kind = .constraint) ↔
      ∃ path message, (validator.run config.maxDepth raw).outcome =
        .error ⟨path, .constraint message⟩ := by
  constructor
  · rintro ⟨error, herror, hkind⟩
    obtain ⟨path, houtcome⟩ := exists_constraint_of_error herror hkind
    exact ⟨path, error.message, houtcome⟩
  · rintro ⟨path, message, houtcome⟩
    exact ⟨_, validateWith_eq_error.2 ⟨_, houtcome, rfl⟩, rfl⟩

/-- **Tests in order.**  A run that fails for a constraint made its last test on this one, and it is
the one reported.  Without choices no other test fails, nothing is tested after one that does, and
one does only if the run fails for it.  In every run, a test is the end of a visit of a subtype,
which stands in the run as a whole: there its constraints are tested from the first on, all on the
value that its base came to, and none is tested after one that does not hold. -/
theorem tests_in_order (validator : Validator) (config : Config) (root : String) (raw : Value) :
    let run := validator.run config.maxDepth raw
    let outcome := validator.validateWith config root raw
    (∀ error, outcome = .error error → error.kind = .constraint →
      ∃ front last, run.evaluations = front ++ [last] ∧ last.holds = false ∧
        last.constraint.message = error.message) ∧
    (validator.Everywhere NoChoice →
      (∀ test ∈ run.evaluations.dropLast, test.holds = true) ∧
      ((∃ test ∈ run.evaluations, test.holds = false) ↔
        ∃ error, outcome = .error error ∧ error.kind = .constraint)) ∧
    ∀ step ∈ run.steps, ∀ value results, step.event = .tested value results →
      ∃ (visit : Visit) (base : Validator) (constraints : List Constraint),
        validator.Reaches config.maxDepth raw visit ∧
        visit.EndsIn base constraints value step ∧ visit.steps <:+: run.steps ∧
        results.map Prod.fst <+: constraints ∧
        ((∀ result ∈ results, result.2 = true) → results.map Prod.fst = constraints) ∧
        (∀ result ∈ results, result.2 = result.1.holds value) ∧
        ∀ result ∈ results.dropLast, result.2 = true := by
  intro run outcome
  refine ⟨fun error herror hkind => ?last, fun hchoices => ?single, ?visits⟩
  case last =>
    obtain ⟨path, hfails⟩ := exists_constraint_of_error herror hkind
    have hgated : run.Gated fun _ => True :=
      gated_run (fun _ _ => trivial) (.inl fun _ => trivial) config.maxDepth raw
    exact hgated.exists_last hfails
  case single =>
    have hgated : run.Gated (·.holds = true) :=
      gated_run (fun _ => id) (.inr hchoices) config.maxDepth raw
    exact ⟨fun _ => hgated.holds_of_mem_dropLast,
      hgated.exists_fails_iff.trans exists_constraint_error_iff.symm⟩
  case visits =>
    intro step hstep value results hevent
    obtain ⟨visit, base, constraints, hreached, hends, hwithin⟩ :=
      traced_run validator config.maxDepth raw step hstep value results hevent
    obtain ⟨-, rfl⟩ := Event.tested.inj (hends.event_eq.symm.trans hevent)
    obtain ⟨hinitial, hall⟩ := Constraint.map_fst_test value constraints
    exact ⟨visit, base, constraints, hreached, hends, hwithin, hinitial, hall,
      fun _ => Constraint.holds_of_mem_test, fun _ => Constraint.holds_of_mem_dropLast_test⟩

/-- A choice goes on after a constraint that does not hold, and may come to a value. -/
example :
    let wanted := choice [subtype (primitive .any) [⟨"never", fun _ => false⟩], primitive .any]
    (wanted.run 0 .null).evaluations.map (·.holds) = [false] ∧
      wanted.validateWith ⟨0, .summary⟩ "$" .null = .ok .null := ⟨rfl, rfl⟩

end Validator

end Conform
