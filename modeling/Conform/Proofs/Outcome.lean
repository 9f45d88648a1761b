import Conform.Report
import Mathlib.Data.List.Forall2

/-!
# What runs come to

One statement for each operation on runs and for each shape of validator says when the outcome is a
value, and which.  Proofs about accepted values go by these statements and open no run again.

A part of a value is one step down, and a step is paid from the budget: `Run.Yields` says that there
is a budget left to pay from and what comes of the part with the rest of it.
-/

namespace Conform

/-- A failure of a part, seen from the whole. -/
def Failure.under (segment : Segment) (failure : Failure) : Failure :=
  ⟨segment :: failure.path, failure.fault⟩

namespace Run

variable {α β : Type}

/-! ## Operations on runs -/

@[simp] lemma pure_outcome (value : α) : (Pure.pure value : Run α).outcome = .ok value := rfl

@[simp] lemma fail_outcome (fault : Fault) :
    (fail fault : Run α).outcome = .error ⟨[], fault⟩ := rfl

@[simp] lemma note_outcome (event : Event) : (note event).outcome = .ok () := rfl

lemma bind_outcome (run : Run α) (next : α → Run β) :
    (run >>= next).outcome = run.outcome.bind fun value => (next value).outcome := by
  show (Run.bind run next).outcome = _
  unfold Run.bind
  cases run.outcome <;> rfl

lemma bind_eq_ok {run : Run α} {next : α → Run β} {result : β} :
    (run >>= next).outcome = .ok result ↔
      ∃ value, run.outcome = .ok value ∧ (next value).outcome = .ok result := by
  rw [bind_outcome]
  cases run.outcome with
  | error failure => simp [Except.bind]
  | ok value => simp [Except.bind]

lemma bind_eq_error {run : Run α} {next : α → Run β} {failure : Failure} :
    (run >>= next).outcome = .error failure ↔ run.outcome = .error failure ∨
      ∃ value, run.outcome = .ok value ∧ (next value).outcome = .error failure := by
  rw [bind_outcome]
  cases run.outcome with
  | error other => simp [Except.bind]
  | ok value => simp [Except.bind]

lemma below_eq_ok {segment : Segment} {run : Run α} {value : α} :
    (run.below segment).outcome = .ok value ↔ run.outcome = .ok value := by
  rw [below]
  cases run.outcome <;> simp [Except.mapError]

lemma below_eq_error {segment : Segment} {run : Run α} {failure : Failure} :
    (run.below segment).outcome = .error failure ↔
      ∃ inner, run.outcome = .error inner ∧ failure = inner.under segment := by
  rw [below]
  cases run.outcome with
  | error inner => simp [Except.mapError, Failure.under, eq_comm]
  | ok value => simp [Except.mapError]

lemma descend_eq_ok {segment : Segment} {budget : Nat} {visit : Nat → Run α} {value : α} :
    (descend segment budget visit).outcome = .ok value ↔
      ∃ left, budget = left + 1 ∧ (visit left).outcome = .ok value := by
  cases budget with
  | zero => simp [descend, below_eq_ok]
  | succ left => simp [descend, below_eq_ok]

lemma descend_eq_error {segment : Segment} {budget : Nat} {visit : Nat → Run α}
    {failure : Failure} :
    (descend segment budget visit).outcome = .error failure ↔
      (budget = 0 ∧ failure = ⟨[segment], .depthExceeded⟩) ∨
      ∃ left inner, budget = left + 1 ∧ (visit left).outcome = .error inner ∧
        failure = inner.under segment := by
  cases budget with
  | zero => simp [descend, below_eq_error, Failure.under]
  | succ left => simp [descend, below_eq_error]

/-! ## Parts -/

lemma exists_left_of_forall₂ {related : α → β → Prop} {lefts : List α} {rights : List β}
    (h : List.Forall₂ related lefts rights) {right : β} (hright : right ∈ rights) :
    ∃ left ∈ lefts, related left right := by
  induction h with
  | nil => cases hright
  | cons hhead _ ih =>
    obtain rfl | htail := List.mem_cons.1 hright
    · exact ⟨_, by simp, hhead⟩
    · obtain ⟨left, hleft, hrelated⟩ := ih htail
      exact ⟨left, List.mem_cons_of_mem _ hleft, hrelated⟩

lemma forall₂_imp_of_mem {related other : α → β → Prop} {lefts : List α} {rights : List β}
    (h : List.Forall₂ related lefts rights)
    (himp : ∀ left ∈ lefts, ∀ right, related left right → other left right) :
    List.Forall₂ other lefts rights := by
  have hboth := (List.forall₂_and_left lefts rights).2 ⟨himp, h⟩
  exact hboth.imp fun left right hpair => hpair.1 right hpair.2

lemma exists_forall₂_of_forall {related : α → β → Prop} {lefts : List α}
    (h : ∀ left ∈ lefts, ∃ right, related left right) :
    ∃ rights, List.Forall₂ related lefts rights := by
  induction lefts with
  | nil => exact ⟨[], .nil⟩
  | cons left lefts ih =>
    obtain ⟨⟨right, hright⟩, hlefts⟩ := List.forall_mem_cons.1 h
    obtain ⟨rights, hrights⟩ := ih hlefts
    exact ⟨right :: rights, .cons hright hrights⟩

/-- One step down there is budget left, and with it the part comes to the result. -/
def Yields (visit : Nat → Value → Run Value) (budget : Nat) (part result : Value) : Prop :=
  ∃ left, budget = left + 1 ∧ (visit left part).outcome = .ok result

lemma Yields.unique {visit : Nat → Value → Run Value} {budget : Nat} {part result other : Value}
    (h : Yields visit budget part result) (hother : Yields visit budget part other) :
    result = other := by
  obtain ⟨left, rfl, hrun⟩ := h
  obtain ⟨rest, hrest, hagain⟩ := hother
  obtain rfl := Nat.succ.inj hrest
  rw [hrun] at hagain
  exact Except.ok.inj hagain

lemma items_eq_ok {visit : Nat → Value → Run Value} {budget index : Nat}
    {items results : List Value} :
    (Run.items visit budget index items).outcome = .ok results ↔
      List.Forall₂ (Yields visit budget) items results := by
  induction items generalizing index results with
  | nil => simp [Run.items, eq_comm]
  | cons item items ih =>
    rw [Run.items, bind_eq_ok, List.forall₂_cons_left_iff]
    constructor
    · rintro ⟨first, hfirst, hrest⟩
      obtain ⟨others, hothers, heq⟩ := bind_eq_ok.1 hrest
      obtain rfl := Except.ok.inj heq
      exact ⟨first, others, descend_eq_ok.1 hfirst, ih.1 hothers, rfl⟩
    · rintro ⟨first, others, hfirst, hothers, rfl⟩
      exact ⟨first, descend_eq_ok.2 hfirst, bind_eq_ok.2 ⟨others, ih.2 hothers, rfl⟩⟩

/-- The entries keep their keys and their order. -/
lemma entries_eq_ok {visit : Nat → Value → Run Value} {budget : Nat}
    {entries results : List (String × Value)} :
    (Run.entries visit budget entries).outcome = .ok results ↔
      List.Forall₂ (fun entry result => result.1 = entry.1 ∧ Yields visit budget entry.2 result.2)
        entries results := by
  induction entries generalizing results with
  | nil => simp [Run.entries, eq_comm]
  | cons entry entries ih =>
    obtain ⟨key, value⟩ := entry
    rw [Run.entries, bind_eq_ok, List.forall₂_cons_left_iff]
    constructor
    · rintro ⟨first, hfirst, hrest⟩
      obtain ⟨others, hothers, heq⟩ := bind_eq_ok.1 hrest
      obtain rfl := Except.ok.inj heq
      exact ⟨(key, first), others, ⟨rfl, descend_eq_ok.1 hfirst⟩, ih.1 hothers, rfl⟩
    · rintro ⟨⟨name, first⟩, others, ⟨rfl, hfirst⟩, hothers, rfl⟩
      exact ⟨first, descend_eq_ok.2 hfirst, bind_eq_ok.2 ⟨others, ih.2 hothers, rfl⟩⟩

end Run

/-! ## Records -/

open Run

/-- A field that is present gives an entry, an optional one that is absent gives none. -/
lemma Field.run_cons_eq_ok {field : Field} {fields : List Field} {budget : Nat}
    {input : Map Value} {results : List (String × Value)} :
    (Field.run (field :: fields) budget input).outcome = .ok results ↔
      (∃ value first others, input.get? field.name = some value ∧
        Yields field.validator.run budget value first ∧
        (Field.run fields budget input).outcome = .ok others ∧
        results = (field.name, first) :: others) ∨
      (input.get? field.name = none ∧ field.optional = true ∧
        (Field.run fields budget input).outcome = .ok results) := by
  obtain ⟨name, validator, optional⟩ := field
  rw [Field.run]
  cases hget : input.get? name with
  | some value =>
    simp only [bind_eq_ok, descend_eq_ok]
    constructor
    · rintro ⟨first, hfirst, others, hothers, heq⟩
      obtain rfl := Except.ok.inj heq
      exact .inl ⟨value, first, others, rfl, hfirst, hothers, rfl⟩
    · rintro (⟨_, first, others, heq, hfirst, hothers, rfl⟩ | ⟨heq, -⟩)
      · obtain rfl := Option.some.inj heq
        exact ⟨first, hfirst, others, hothers, rfl⟩
      · cases heq
  | none =>
    cases optional with
    | true => simp
    | false => simp [below_eq_ok]

/-- Every entry of the results carries the name of a field that is present. -/
lemma Field.mem_names_of_run {fields : List Field} {budget : Nat} {input : Map Value}
    {results : List (String × Value)} (h : (Field.run fields budget input).outcome = .ok results) :
    (results.map Prod.fst).Sublist (fields.map Field.name) := by
  induction fields generalizing results with
  | nil =>
    obtain rfl : [] = results := Except.ok.inj h
    exact .slnil
  | cons field fields ih =>
    obtain ⟨value, first, others, -, -, hothers, rfl⟩ | ⟨-, -, hothers⟩ := run_cons_eq_ok.1 h
    · exact (ih hothers).cons_cons _
    · exact (ih hothers).cons _

/-- When names are distinct, what a field comes to is found under its name. -/
lemma Field.lookup_of_run {fields : List Field} (hnames : (fields.map Field.name).Nodup)
    {budget : Nat} {input : Map Value} {results : List (String × Value)}
    (h : (Field.run fields budget input).outcome = .ok results) {field : Field}
    (hfield : field ∈ fields) :
    (∃ value result, input.get? field.name = some value ∧
      Yields field.validator.run budget value result ∧
      Map.lookup field.name results = some result) ∨
    (input.get? field.name = none ∧ field.optional = true ∧
      Map.lookup field.name results = none) := by
  induction fields generalizing results with
  | nil => cases hfield
  | cons head fields ih =>
    rw [List.map_cons, List.nodup_cons] at hnames
    obtain ⟨value, first, others, hget, hfirst, hothers, rfl⟩ | ⟨hget, hopt, hothers⟩ :=
      run_cons_eq_ok.1 h
    · obtain rfl | hrest := List.mem_cons.1 hfield
      · exact .inl ⟨value, first, hget, hfirst, by simp [Map.lookup]⟩
      · have hne : head.name ≠ field.name := by
          intro heq
          rw [heq] at hnames
          exact hnames.1 (List.mem_map_of_mem hrest)
        simpa [Map.lookup, hne] using ih hnames.2 hothers hrest
    · obtain rfl | hrest := List.mem_cons.1 hfield
      · have habsent : field.name ∉ results.map Prod.fst := by
          intro hmem
          exact hnames.1 ((mem_names_of_run hothers).subset hmem)
        exact .inr ⟨hget, hopt, Map.lookup_eq_none habsent⟩
      · exact ih hnames.2 hothers hrest

/-- Fields that each find what they ask for come to entries. -/
lemma Field.exists_run_eq_ok {fields : List Field} {budget : Nat} {input : Map Value}
    (h : ∀ field ∈ fields,
      (∃ value result, input.get? field.name = some value ∧
        Yields field.validator.run budget value result) ∨
      (input.get? field.name = none ∧ field.optional = true)) :
    ∃ results, (Field.run fields budget input).outcome = .ok results := by
  induction fields with
  | nil => exact ⟨[], rfl⟩
  | cons field fields ih =>
    obtain ⟨hfield, hfields⟩ := List.forall_mem_cons.1 h
    obtain ⟨others, hothers⟩ := ih hfields
    obtain ⟨value, first, hget, hfirst⟩ | ⟨hget, hoptional⟩ := hfield
    · exact ⟨_, run_cons_eq_ok.2 (.inl ⟨value, first, others, hget, hfirst, hothers, rfl⟩)⟩
    · exact ⟨others, run_cons_eq_ok.2 (.inr ⟨hget, hoptional, hothers⟩)⟩

lemma Field.mem_undeclared {fields : List Field} {input : Map Value} {entry : String × Value} :
    entry ∈ Field.undeclared fields input ↔
      entry ∈ input.entries ∧ entry.1 ∉ fields.map Field.name := by
  simp [Field.undeclared]

/-- Extras are refused, left out, or each accepted by the validator for them. -/
lemma Extra.run_eq_ok {extra : Extra} {budget : Nat}
    {undeclared results : List (String × Value)} :
    (extra.run budget undeclared).outcome = .ok results ↔
      match extra with
      | .closed => undeclared = [] ∧ results = []
      | .ignored => results = []
      | .typed validator =>
        List.Forall₂
          (fun entry result => result.1 = entry.1 ∧ Yields validator.run budget entry.2 result.2)
          undeclared results := by
  cases extra with
  | closed => cases undeclared <;> simp [Extra.run, eq_comm]
  | ignored =>
    have hnone : (Extra.ignored.run budget undeclared).outcome = .ok [] := by
      cases undeclared <;> rfl
    simp [hnone, eq_comm]
  | typed validator => exact entries_eq_ok

/-! ## Constraints -/

lemma Constraint.broken?_test_eq_none {value : Value} {constraints : List Constraint} :
    Constraint.broken? (Constraint.test value constraints) = none ↔
      ∀ constraint ∈ constraints, constraint.holds value = true := by
  induction constraints with
  | nil => simp [Constraint.test, Constraint.broken?]
  | cons constraint constraints ih =>
    by_cases h : constraint.holds value = true
    · simpa [Constraint.test, Constraint.broken?, h] using ih
    · simp [Constraint.test, Constraint.broken?, h]

lemma Constraint.gate_eq_ok {constraints : List Constraint} {value result : Value} :
    (Constraint.gate constraints value).outcome = .ok result ↔
      result = value ∧ ∀ constraint ∈ constraints, constraint.holds value = true := by
  rw [← broken?_test_eq_none, Constraint.gate, bind_eq_ok]
  cases broken? (test value constraints) with
  | none => simp [eq_comm]
  | some broken => simp

/-! ## Scalars -/

lemma Kind.run_eq_ok {kind : Kind} {raw result : Value} :
    (kind.run raw).outcome = .ok result ↔ kind.coerce raw = .ok result := by
  rw [Kind.run]
  cases kind.coerce raw <;> simp

lemma Kind.run_eq_error {kind : Kind} {raw : Value} {failure : Failure} :
    (kind.run raw).outcome = .error failure ↔
      ∃ misfit, kind.coerce raw = .error misfit ∧ failure = ⟨[], misfit.fault kind⟩ := by
  rw [Kind.run]
  cases kind.coerce raw with
  | ok value => simp
  | error misfit => simp [eq_comm]

lemma Misfit.isDepth_fault (misfit : Misfit) (kind : Kind) :
    (misfit.fault kind).isDepth = false := by
  cases misfit <;> rfl

/-! ## Validators -/

namespace Validator

section Shapes

variable (budget : Nat) (raw : Value)

lemma outcome_run_primitive (kind : Kind) :
    ((primitive kind).run budget raw).outcome = (kind.run raw).outcome := rfl

lemma outcome_run_record (fields : List Field) (extra : Extra) (input : Map Value) :
    ((record fields extra).run budget (.mapping input)).outcome = (do
      let declared ← Field.run fields budget input
      let kept ← extra.run budget (Field.undeclared fields input)
      return Value.mapping (.ofList (declared ++ kept)) : Run Value).outcome := rfl

lemma outcome_run_subtype (base : Validator) (constraints : List Constraint) :
    ((subtype base constraints).run budget raw).outcome =
      (base.run budget raw >>= Constraint.gate constraints).outcome := rfl

lemma outcome_run_array (element : Validator) (items : List Value) :
    ((array element).run budget (.sequence items)).outcome = (do
      let results ← Run.items element.run budget 0 items
      return Value.sequence results : Run Value).outcome := rfl

lemma outcome_run_choice (alternatives : List Validator) :
    ((choice alternatives).run budget raw).outcome =
      (firstOf alternatives [] budget raw).outcome := rfl

end Shapes

lemma run_primitive_eq_ok {kind : Kind} {budget : Nat} {raw result : Value} :
    ((primitive kind).run budget raw).outcome = .ok result ↔ kind.coerce raw = .ok result := by
  rw [outcome_run_primitive, Kind.run_eq_ok]

lemma run_record_eq_ok {fields : List Field} {extra : Extra} {budget : Nat}
    {raw result : Value} :
    ((record fields extra).run budget raw).outcome = .ok result ↔
      ∃ input declared kept, raw = .mapping input ∧
        (Field.run fields budget input).outcome = .ok declared ∧
        (extra.run budget (Field.undeclared fields input)).outcome = .ok kept ∧
        result = .mapping (.ofList (declared ++ kept)) := by
  cases raw with
  | mapping input =>
    rw [outcome_run_record]
    simp only [bind_eq_ok, pure_outcome, Except.ok.injEq, Value.mapping.injEq]
    constructor
    · rintro ⟨declared, hdeclared, kept, hkept, rfl⟩
      exact ⟨input, declared, kept, rfl, hdeclared, hkept, rfl⟩
    · rintro ⟨_, declared, kept, rfl, hdeclared, hkept, rfl⟩
      exact ⟨declared, hdeclared, kept, hkept, rfl⟩
  | _ => simp [Validator.run, bind_eq_ok]

lemma run_subtype_eq_ok {base : Validator} {constraints : List Constraint} {budget : Nat}
    {raw result : Value} :
    ((subtype base constraints).run budget raw).outcome = .ok result ↔
      (base.run budget raw).outcome = .ok result ∧
        ∀ constraint ∈ constraints, constraint.holds result = true := by
  rw [outcome_run_subtype]
  simp only [bind_eq_ok, Constraint.gate_eq_ok]
  constructor
  · rintro ⟨_, hbase, rfl, hall⟩
    exact ⟨hbase, hall⟩
  · rintro ⟨hbase, hall⟩
    exact ⟨result, hbase, rfl, hall⟩

lemma run_array_eq_ok {element : Validator} {budget : Nat} {raw result : Value} :
    ((array element).run budget raw).outcome = .ok result ↔
      ∃ items results, raw = .sequence items ∧
        List.Forall₂ (Yields element.run budget) items results ∧ result = .sequence results := by
  cases raw with
  | sequence items =>
    rw [outcome_run_array]
    simp only [bind_eq_ok, items_eq_ok, pure_outcome, Except.ok.injEq, Value.sequence.injEq]
    constructor
    · rintro ⟨results, hresults, rfl⟩
      exact ⟨items, results, rfl, hresults, rfl⟩
    · rintro ⟨_, results, rfl, hresults, rfl⟩
      exact ⟨results, hresults, rfl⟩
  | _ => simp [Validator.run, bind_eq_ok]

/-- An alternative refuses a value without having run out of budget. -/
def Refuses (validator : Validator) (budget : Nat) (raw : Value) : Prop :=
  ∃ failure, (validator.run budget raw).outcome = .error failure ∧ failure.fault.isDepth = false

/-- The first alternative that does not refuse a value comes to the result. -/
inductive Chooses (budget : Nat) (raw result : Value) : List Validator → Prop where
  | here {first : Validator} {others : List Validator} :
    (first.run budget raw).outcome = .ok result → Chooses budget raw result (first :: others)
  | later {first : Validator} {others : List Validator} :
    first.Refuses budget raw → Chooses budget raw result others →
      Chooses budget raw result (first :: others)

lemma Chooses.exists_mem {budget : Nat} {raw result : Value} {alternatives : List Validator}
    (h : Chooses budget raw result alternatives) :
    ∃ first ∈ alternatives, (first.run budget raw).outcome = .ok result := by
  induction h with
  | here hfirst => exact ⟨_, by simp, hfirst⟩
  | later _ _ ih =>
    obtain ⟨first, hmem, hfirst⟩ := ih
    exact ⟨first, List.mem_cons_of_mem _ hmem, hfirst⟩

section FirstOf

variable {first : Validator} {others : List Validator} {refused : List (Shape × Failure)}
  {budget : Nat} {raw : Value}

lemma firstOf_cons_of_ok {value : Value} (h : (first.run budget raw).outcome = .ok value) :
    firstOf (first :: others) refused budget raw = first.run budget raw := by
  rw [firstOf, h]

/-- Out of budget: nothing after this alternative is tried. -/
lemma firstOf_cons_of_depth {failure : Failure}
    (h : (first.run budget raw).outcome = .error failure) (hdepth : failure.fault.isDepth = true) :
    firstOf (first :: others) refused budget raw = first.run budget raw := by
  rw [firstOf, h]
  simp [hdepth]

lemma firstOf_cons_of_refused {failure : Failure}
    (h : (first.run budget raw).outcome = .error failure)
    (hshallow : failure.fault.isDepth = false) :
    firstOf (first :: others) refused budget raw =
      ⟨(first.run budget raw).steps ++ ⟨[], .rejected refused.length first.shape failure⟩ ::
          (firstOf others (refused ++ [(first.shape, failure)]) budget raw).steps,
        (firstOf others (refused ++ [(first.shape, failure)]) budget raw).outcome⟩ := by
  rw [firstOf, h]
  simp [hshallow]

end FirstOf

lemma firstOf_eq_ok {alternatives : List Validator} {refused : List (Shape × Failure)}
    {budget : Nat} {raw result : Value} :
    (firstOf alternatives refused budget raw).outcome = .ok result ↔
      Chooses budget raw result alternatives := by
  induction alternatives generalizing refused with
  | nil =>
    constructor
    · intro h
      cases h
    · rintro ⟨⟩
  | cons first others ih =>
    constructor
    · intro h
      cases houtcome : (first.run budget raw).outcome with
      | ok value =>
        rw [firstOf_cons_of_ok houtcome] at h
        exact .here h
      | error failure =>
        cases hdepth : failure.fault.isDepth with
        | true =>
          rw [firstOf_cons_of_depth houtcome hdepth] at h
          exact .here h
        | false =>
          rw [firstOf_cons_of_refused houtcome hdepth] at h
          exact .later ⟨failure, houtcome, hdepth⟩ (ih.1 h)
    · rintro (hfirst | ⟨⟨failure, houtcome, hshallow⟩, hothers⟩)
      · rw [firstOf_cons_of_ok hfirst, hfirst]
      · rw [firstOf_cons_of_refused houtcome hshallow]
        exact ih.2 hothers

lemma run_choice_eq_ok {alternatives : List Validator} {budget : Nat} {raw result : Value} :
    ((choice alternatives).run budget raw).outcome = .ok result ↔
      Chooses budget raw result alternatives := by
  rw [outcome_run_choice, firstOf_eq_ok]

/-- A caller gets the value that the run comes to. -/
lemma validateWith_eq_ok {validator : Validator} {config : Config} {root : String}
    {raw value : Value} :
    validator.validateWith config root raw = .ok value ↔
      (validator.run config.maxDepth raw).outcome = .ok value := by
  rw [validateWith, Run.result]
  cases (validator.run config.maxDepth raw).outcome <;> simp [Except.mapError]

lemma validateWith_eq_error {validator : Validator} {config : Config} {root : String}
    {raw : Value} {error : ValidationError} :
    validator.validateWith config root raw = .error error ↔
      ∃ failure, (validator.run config.maxDepth raw).outcome = .error failure ∧
        error = failure.report config root := by
  rw [validateWith, Run.result]
  cases (validator.run config.maxDepth raw).outcome <;> simp [Except.mapError, eq_comm]

end Validator

end Conform
