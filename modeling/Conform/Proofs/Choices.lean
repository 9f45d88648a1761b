import Conform.Proofs.Location

/-!
# What a choice comes to

A choice puts its alternatives to the value in turn, all of them at the place where it stands itself
and with the same number of steps down left.  An outcome is decisive when it is a value or says that
the value is nested too deep; any other one is a refusal, and after it the next alternative has its
turn.  So a choice comes to the first decisive outcome among those of its alternatives, and when
there is none, to an error of its own that may list the refusals (`Validator.result_choice`).

In this list a refusal is named with its place if that lies below the place of the choice.  Places
are compared by their steps; the texts of the places would tell the same, because no step has an
empty text (`Path.textFrom_eq_self_iff`).
-/

namespace Conform

/-! ## Decisive outcomes -/

/-- An outcome that ends a choice: a value, or that the value is nested too deep. -/
def Decisive (outcome : Except ValidationError Value) : Prop :=
  ∀ error, outcome = .error error → error.kind = .depthExceeded

namespace Validator

section Turns

variable {budget : Nat} {raw : Value}

lemma not_decisive_iff {validator : Validator} {config : Config} {root : String} :
    ¬Decisive ((validator.run budget raw).result config root) ↔ validator.Refuses budget raw := by
  rw [Decisive, Refuses, Run.result]
  cases (validator.run budget raw).outcome with
  | ok value => simp [Except.mapError]
  | error failure => simp [Except.mapError, ← Fault.isDepth_iff]

/-! ## Taking turns -/

/-- Alternatives that refuse a value, each with the failure that it comes to. -/
def AllRefuse (budget : Nat) (raw : Value) (refusals : List (Validator × Failure)) : Prop :=
  ∀ refusal ∈ refusals, (refusal.1.run budget raw).outcome = .error refusal.2 ∧
    refusal.2.fault.isDepth = false

lemma exists_allRefuse {alternatives : List Validator}
    (h : ∀ alternative ∈ alternatives, alternative.Refuses budget raw) :
    ∃ refusals, refusals.map Prod.fst = alternatives ∧ AllRefuse budget raw refusals := by
  induction alternatives with
  | nil => exact ⟨[], rfl, by simp [AllRefuse]⟩
  | cons first others ih =>
    obtain ⟨⟨failure, hfirst⟩, hothers⟩ := List.forall_mem_cons.1 h
    obtain ⟨refusals, rfl, hrefusals⟩ := ih hothers
    exact ⟨(first, failure) :: refusals, rfl, List.forall_mem_cons.2 ⟨hfirst, hrefusals⟩⟩

/-- Alternatives that refuse a value make their tests and leave the outcome to those behind them. -/
lemma firstOf_refusals_append {refusals : List (Validator × Failure)}
    (h : AllRefuse budget raw refusals) (others : List Validator)
    (refused : List (Shape × Failure)) :
    let whole := firstOf (refusals.map Prod.fst ++ others) refused budget raw
    let rest := firstOf others
      (refused ++ refusals.map fun refusal => (refusal.1.shape, refusal.2)) budget raw
    whole.outcome = rest.outcome ∧ whole.evaluations =
      (refusals.map Prod.fst).flatMap (fun first => (first.run budget raw).evaluations) ++
        rest.evaluations := by
  induction refusals generalizing refused with
  | nil => simp
  | cons refusal refusals ih =>
    obtain ⟨⟨houtcome, hshallow⟩, hrefusals⟩ := List.forall_mem_cons.1 h
    obtain ⟨first, failure⟩ := refusal
    obtain ⟨hrest, htests⟩ := ih hrefusals (refused ++ [(first.shape, failure)])
    have hwhole : firstOf (first :: (refusals.map Prod.fst ++ others)) refused budget raw = _ :=
      firstOf_cons_of_refused houtcome hshallow
    simp only [List.map_cons, List.cons_append, List.flatMap_cons, List.append_assoc,
      List.nil_append] at hrest htests ⊢
    rw [hwhole]
    refine ⟨hrest, ?_⟩
    -- The refusal is itself a step, but no test is made in it.
    show List.flatMap _ (_ ++ _) = _
    rw [List.flatMap_append, ← htests]
    rfl

lemma firstOf_of_decisive {first : Validator} {config : Config} {root : String}
    (h : Decisive ((first.run budget raw).result config root)) (others : List Validator)
    (refused : List (Shape × Failure)) :
    firstOf (first :: others) refused budget raw = first.run budget raw := by
  cases houtcome : (first.run budget raw).outcome with
  | ok value => exact firstOf_cons_of_ok houtcome
  | error failure =>
    have hkind : (failure.report config root).kind = .depthExceeded := by
      apply h
      rw [Run.result, houtcome]
      rfl
    rw [Failure.kind_report, ← Fault.isDepth_iff] at hkind
    exact firstOf_cons_of_depth houtcome hkind

end Turns

end Validator

/-! ## Reasons -/

/-- A reason, in full. -/
lemma ValidationError.reason_eq (index : Nat) (shape : Shape) (path : Path)
    (error : ValidationError) :
    reason index shape (!path.isEmpty) error =
      "variant " ++ toString index ++ " (" ++ shape.name ++ "): " ++
        (if path = [] then "" else "at '" ++ error.path ++ "': ") ++ error.message := by
  cases path <;> rfl

/-- The reasons of a choice, in full. -/
lemma reasons_eq_mapIdx (config : Config) (place : String) (start : Nat)
    (refusals : List (Validator × Failure)) :
    reasons config place start (refusals.map fun refusal => (refusal.1.shape, refusal.2)) =
      refusals.mapIdx fun index refusal =>
        let error := refusal.2.report config place
        "variant " ++ toString (start + index) ++ " (" ++ refusal.1.shape.name ++ "): " ++
          (if refusal.2.path = [] then "" else "at '" ++ error.path ++ "': ") ++
          error.message := by
  induction refusals generalizing start with
  | nil => rfl
  | cons refusal refusals ih =>
    rw [List.map_cons, reasons, ih, List.mapIdx_cons, ValidationError.reason_eq]
    simp only [Nat.add_zero, Nat.add_right_comm start 1, Nat.add_assoc]

namespace Validator

/-- **A choice, exactly.**  It comes to the first decisive outcome among those of its alternatives,
and none behind that one makes a test.  Without a decisive outcome it fails at its own place, after
all their tests, and if it gives its reasons, these are the errors of all alternatives in order,
each with its number and the name of its shape, and with the place just when the error stands
further down in the value than the choice. -/
theorem result_choice (alternatives : List Validator) (config : Config) (root : String)
    (budget : Nat) (raw : Value) :
    let outcome (validator : Validator) := (validator.run budget raw).result config root
    let tests (validator : Validator) := (validator.run budget raw).evaluations
    (∀ front first back, alternatives = front ++ first :: back →
      (∀ earlier ∈ front, ¬Decisive (outcome earlier)) → Decisive (outcome first) →
        outcome (choice alternatives) = outcome first ∧
        tests (choice alternatives) = (front ++ [first]).flatMap tests) ∧
    ((∀ alternative ∈ alternatives, ¬Decisive (outcome alternative)) →
      tests (choice alternatives) = alternatives.flatMap tests ∧
      ∃ refusals : List (Validator × Failure), refusals.map Prod.fst = alternatives ∧
        (∀ refusal ∈ refusals, (refusal.1.run budget raw).outcome = .error refusal.2 ∧
          outcome refusal.1 = .error (refusal.2.report config root) ∧
          ((refusal.2.report config root).path = root ↔ refusal.2.path = []) ∧
          (raw.WellFormed → refusal.2.fault.TellsOf raw refusal.2.path)) ∧
        outcome (choice alternatives) = .error ⟨root,
          match config.unionErrors with
          | .summary => "no union variant matched"
          | .detailed => "no union variant matched (" ++
              "; ".intercalate (refusals.mapIdx fun index refusal =>
                let error := refusal.2.report config root
                "variant " ++ toString index ++ " (" ++ refusal.1.shape.name ++ "): " ++
                  (if refusal.2.path = [] then "" else "at '" ++ error.path ++ "': ") ++
                  error.message) ++ ")",
          .unionExhausted⟩) := by
  intro outcome tests
  have hchoice : outcome (choice alternatives) =
      (firstOf alternatives [] budget raw).result config root := rfl
  have htests : tests (choice alternatives) = (firstOf alternatives [] budget raw).evaluations :=
    rfl
  constructor
  · rintro front first back rfl hfront hfirst
    obtain ⟨refusals, rfl, hrefusals⟩ := exists_allRefuse fun earlier hearlier =>
      not_decisive_iff.1 (hfront earlier hearlier)
    obtain ⟨hsame, hevaluations⟩ := firstOf_refusals_append hrefusals (first :: back) []
    rw [firstOf_of_decisive hfirst] at hsame hevaluations
    rw [hchoice, htests, hevaluations, Run.result, hsame, List.flatMap_append,
      List.flatMap_singleton]
    exact ⟨rfl, rfl⟩
  · intro hall
    obtain ⟨refusals, rfl, hrefusals⟩ := exists_allRefuse fun alternative halternative =>
      not_decisive_iff.1 (hall alternative halternative)
    obtain ⟨hsame, hevaluations⟩ := firstOf_refusals_append hrefusals [] []
    rw [List.append_nil] at hsame hevaluations
    refine ⟨?_, refusals, rfl, ?_, ?_⟩
    · rw [htests, hevaluations]
      exact List.append_nil _
    · intro refusal hrefusal
      obtain ⟨hfails, -⟩ := hrefusals refusal hrefusal
      refine ⟨hfails, ?_, ?_, (fails_of_run hfails).tellsOf⟩
      · show Run.result config root _ = _
        rw [Run.result, hfails]
        rfl
      · rw [Failure.path_report, Path.textFrom_eq_self_iff]
    · rw [hchoice, Run.result, hsame]
      show Except.error (Fault.report config root (.unionExhausted _)) = _
      rw [Fault.report, List.nil_append]
      cases config.unionErrors with
      | summary => rfl
      | detailed =>
        have hsentence : ValidationError.noMatch ++ " (" = "no union variant matched (" := rfl
        simp only [ValidationError.unionExhausted, reasons_eq_mapIdx, hsentence, Nat.zero_add]

/-- What is nested too deep for one alternative is not given to the next. -/
example : (choice [array (array (primitive .any)), primitive .any]).validateWith ⟨1, .detailed⟩ "$"
    (.sequence [.sequence [.integer 1]]) = .error (.depthExceeded "$[0][0]" 1) := rfl

end Validator

end Conform
