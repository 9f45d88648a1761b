import Conform.Proofs.Reports
import Mathlib.Order.Basic
import Mathlib.Data.Nat.Find

/-!
# The limit on depth

How the outcome of a validation depends on the budget of steps down.  Once a run has not used its
budget up, it is the same run with any larger one, because nothing but a step down looks at the
budget; and a budget of the height of the value, or of the validator, is never used up.  `Bounded`
says both of anything that is run with a budget, and everything that runs are built of keeps it.

A choice is where this could fail: were a budget that is used up one more reason for an alternative
to refuse, the choice would turn to another alternative, and a larger budget would change what it
comes to.
-/

namespace Conform

namespace Run

variable {α β : Type}

/-- The budget was used up. -/
def TooDeep (run : Run α) : Prop :=
  ∃ failure, run.outcome = .error failure ∧ failure.fault.isDepth = true

lemma TooDeep.bind {run : Run α} (h : run.TooDeep) (next : α → Run β) :
    (run >>= next).TooDeep := by
  obtain ⟨failure, houtcome, hdepth⟩ := h
  exact ⟨failure, bind_eq_error.2 (.inl houtcome), hdepth⟩

lemma TooDeep.below {run : Run α} (h : run.TooDeep) (segment : Segment) :
    (run.below segment).TooDeep := by
  obtain ⟨failure, houtcome, hdepth⟩ := h
  exact ⟨failure.under segment, below_eq_error.2 ⟨failure, houtcome, rfl⟩, hdepth⟩

lemma not_tooDeep_of_ok {run : Run α} {value : α} (h : run.outcome = .ok value) :
    ¬run.TooDeep := by
  rintro ⟨failure, houtcome, -⟩
  rw [h] at houtcome
  cases houtcome

lemma not_tooDeep_of_shallow {run : Run α} {failure : Failure}
    (h : run.outcome = .error failure) (hshallow : failure.fault.isDepth = false) :
    ¬run.TooDeep := by
  rintro ⟨other, houtcome, hdepth⟩
  rw [h] at houtcome
  obtain rfl := Except.error.inj houtcome
  rw [hshallow] at hdepth
  cases hdepth

lemma bind_congr_of_ok {run : Run α} {next other : α → Run β}
    (h : ∀ value, run.outcome = .ok value → next value = other value) :
    run >>= next = run >>= other := by
  show Run.bind run next = Run.bind run other
  unfold Run.bind
  cases houtcome : run.outcome with
  | ok value => simp only [h value houtcome]
  | error failure => rfl

/-! ## Runs with a budget -/

/-- A run that has not used its budget up stays the same with a larger one, and `height` is a budget
that is not used up. -/
structure Bounded (visit : Nat → Run α) (height : Nat) : Prop where
  stable : ∀ budget, ¬(visit budget).TooDeep → visit (budget + 1) = visit budget
  within : ∀ budget, height ≤ budget → ¬(visit budget).TooDeep

namespace Bounded

variable {height : Nat}

lemma mono {visit : Nat → Run α} (h : Bounded visit height) {top : Nat} (hle : height ≤ top) :
    Bounded visit top :=
  ⟨h.stable, fun budget hbudget => h.within budget (hle.trans hbudget)⟩

lemma const {run : Run α} (h : ¬run.TooDeep) : Bounded (fun _ => run) height :=
  ⟨fun _ _ => rfl, fun _ _ => h⟩

lemma ok {run : Run α} {value : α} (h : run.outcome = .ok value) :
    Bounded (fun _ => run) height :=
  const (not_tooDeep_of_ok h)

lemma fail {fault : Fault} (h : fault.isDepth = false) :
    Bounded (fun _ => (Run.fail fault : Run α)) height :=
  const (not_tooDeep_of_shallow rfl h)

lemma bind {visit : Nat → Run α} {next : Nat → α → Run β} (hvisit : Bounded visit height)
    (hnext : ∀ value, Bounded (fun budget => next budget value) height) :
    Bounded (fun budget => visit budget >>= next budget) height where
  stable budget h := by
    have hfirst : ¬(visit budget).TooDeep := fun hdeep => h (hdeep.bind _)
    show visit (budget + 1) >>= next (budget + 1) = visit budget >>= next budget
    rw [hvisit.stable budget hfirst]
    apply bind_congr_of_ok
    intro value hvalue
    apply (hnext value).stable
    rintro ⟨failure, houtcome, hdepth⟩
    exact h ⟨failure, bind_eq_error.2 (.inr ⟨value, hvalue, houtcome⟩), hdepth⟩
  within budget h := by
    rintro ⟨failure, houtcome, hdepth⟩
    obtain hfirst | ⟨value, -, hrest⟩ := bind_eq_error.1 houtcome
    · exact hvisit.within budget h ⟨failure, hfirst, hdepth⟩
    · exact (hnext value).within budget h ⟨failure, hrest, hdepth⟩

lemma noted {visit : Nat → Run α} (h : Bounded visit height) (event : Event) :
    Bounded (fun budget => note event >>= fun _ => visit budget) height :=
  (ok rfl).bind fun _ => h

/-- A step down is where the budget counts. -/
lemma descend {visit : Nat → Run α} {low : Nat} (hvisit : Bounded visit low)
    (hlow : low < height) (segment : Segment) :
    Bounded (fun budget => Run.descend segment budget visit) height where
  stable budget h := by
    cases budget with
    | zero => exact absurd ⟨_, rfl, rfl⟩ h
    | succ budget =>
      have hpart : ¬(visit budget).TooDeep := fun hdeep => h (hdeep.below segment)
      exact congrArg (Run.below segment) (hvisit.stable budget hpart)
  within budget h := by
    rintro ⟨failure, houtcome, hdepth⟩
    obtain ⟨rfl, -⟩ | ⟨left, inner, rfl, hinner, rfl⟩ := descend_eq_error.1 houtcome
    · omega
    · exact hvisit.within left (by omega) ⟨inner, hinner, hdepth⟩

lemma items {visit : Nat → Value → Run Value} {items : List Value}
    (h : ∀ item ∈ items, ∃ low < height, Bounded (fun budget => visit budget item) low)
    (index : Nat) : Bounded (fun budget => Run.items visit budget index items) height := by
  induction items generalizing index with
  | nil => exact ok rfl
  | cons item items ih =>
    obtain ⟨⟨low, hlow, hitem⟩, hitems⟩ := List.forall_mem_cons.1 h
    refine (hitem.descend hlow (.index index)).bind fun first => ?_
    exact (ih hitems (index + 1)).bind fun others => ok rfl

lemma entries {visit : Nat → Value → Run Value} {entries : List (String × Value)}
    (h : ∀ entry ∈ entries, ∃ low < height, Bounded (fun budget => visit budget entry.2) low) :
    Bounded (fun budget => Run.entries visit budget entries) height := by
  induction entries with
  | nil => exact ok rfl
  | cons entry entries ih =>
    obtain ⟨⟨low, hlow, hentry⟩, hentries⟩ := List.forall_mem_cons.1 h
    refine (hentry.descend hlow (.key entry.1)).bind fun first => ?_
    exact (ih hentries).bind fun others => ok rfl

/-- There is a least budget that is not used up, and from it on nothing changes. -/
lemma exists_threshold {visit : Nat → Run α} (h : Bounded visit height) :
    ∃ least ≤ height, (∀ budget < least, (visit budget).TooDeep) ∧
      ∀ budget, least ≤ budget → ¬(visit budget).TooDeep ∧ visit budget = visit least := by
  classical
  have hex : ∃ budget, ¬(visit budget).TooDeep := ⟨height, h.within height le_rfl⟩
  refine ⟨Nat.find hex, Nat.find_le (h.within height le_rfl), ?_, ?_⟩
  · intro budget hbudget
    exact not_not.1 (Nat.find_min hex hbudget)
  · intro budget hbudget
    induction budget, hbudget using Nat.le_induction with
    | base => exact ⟨Nat.find_spec hex, rfl⟩
    | succ budget _ ih =>
      have hstable := h.stable budget ih.1
      rw [hstable]
      exact ih

end Bounded

end Run

open Run

/-! ## Scalars, records, constraints and choices -/

lemma Field.run_bounded {fields : List Field} {input : Map Value} {height : Nat}
    (h : ∀ field ∈ fields, ∀ value, input.get? field.name = some value →
      ∃ low < height, Bounded (fun budget => field.validator.run budget value) low) :
    Bounded (fun budget => Field.run fields budget input) height := by
  induction fields with
  | nil => exact .ok rfl
  | cons field fields ih =>
    obtain ⟨hfirst, hothers⟩ := List.forall_mem_cons.1 h
    obtain ⟨name, validator, optional⟩ := field
    simp only [Field.run]
    cases hget : input.get? name with
    | some value =>
      obtain ⟨low, hlow, hvalue⟩ := hfirst value hget
      refine (hvalue.descend hlow (.key name)).bind fun first => ?_
      exact (ih hothers).bind fun others => .ok rfl
    | none =>
      cases optional with
      | true => exact ih hothers
      | false => exact .const (not_tooDeep_of_shallow rfl rfl)

lemma Extra.run_bounded {extra : Extra} {undeclared : List (String × Value)} {height : Nat}
    (h : ∀ validator, extra = .typed validator → ∀ entry ∈ undeclared,
      ∃ low < height, Bounded (fun budget => validator.run budget entry.2) low) :
    Bounded (fun budget => extra.run budget undeclared) height := by
  cases extra with
  | closed =>
    cases undeclared with
    | nil => exact .ok rfl
    | cons entry undeclared => exact .fail rfl
  | ignored =>
    cases undeclared with
    | nil => exact .ok rfl
    | cons entry undeclared => exact .ok rfl
  | typed validator => exact .entries (h validator rfl)

lemma Kind.not_tooDeep_run (kind : Kind) (raw : Value) : ¬(kind.run raw).TooDeep := by
  rintro ⟨failure, houtcome, hdepth⟩
  obtain ⟨misfit, -, rfl⟩ := run_eq_error.1 houtcome
  have hshallow : (misfit.fault kind).isDepth = false := misfit.isDepth_fault kind
  rw [hshallow] at hdepth
  cases hdepth

lemma Constraint.not_tooDeep_gate (constraints : List Constraint) (value : Value) :
    ¬(gate constraints value).TooDeep := by
  rintro ⟨failure, houtcome, hdepth⟩
  obtain ⟨broken, -, -, rfl⟩ := exists_of_gate_error houtcome
  cases hdepth

namespace Validator

/-- A choice stops at an alternative that uses the budget up, so all those that came before it are
the same with a larger budget. -/
lemma firstOf_bounded {alternatives : List Validator} {raw : Value} {height : Nat}
    (h : ∀ first ∈ alternatives, Bounded (fun budget => first.run budget raw) height)
    (refused : List (Shape × Failure)) :
    Bounded (fun budget => firstOf alternatives refused budget raw) height := by
  induction alternatives generalizing refused with
  | nil => exact .fail rfl
  | cons first others ih =>
    obtain ⟨hfirst, hothers⟩ := List.forall_mem_cons.1 h
    constructor
    · intro budget hshallow
      cases houtcome : (first.run budget raw).outcome with
      | ok value =>
        have hstable := hfirst.stable budget (not_tooDeep_of_ok houtcome)
        have hnext : (first.run (budget + 1) raw).outcome = .ok value := by
          rw [hstable, houtcome]
        rw [firstOf_cons_of_ok houtcome, firstOf_cons_of_ok hnext, hstable]
      | error failure =>
        cases hdepth : failure.fault.isDepth with
        | true =>
          rw [firstOf_cons_of_depth houtcome hdepth] at hshallow
          exact absurd ⟨failure, houtcome, hdepth⟩ hshallow
        | false =>
          have hstable := hfirst.stable budget (not_tooDeep_of_shallow houtcome hdepth)
          have hnext : (first.run (budget + 1) raw).outcome = .error failure := by
            rw [hstable, houtcome]
          rw [firstOf_cons_of_refused houtcome hdepth] at hshallow ⊢
          rw [firstOf_cons_of_refused hnext hdepth, hstable,
            (ih hothers (refused ++ [(first.shape, failure)])).stable budget hshallow]
    · rintro budget hbudget ⟨failure, houtcome, hdepth⟩
      obtain ⟨deep, hdeep, hfails, -⟩ | ⟨_, _, _, rfl⟩ := exists_of_firstOf_error houtcome
      · exact (h deep hdeep).within budget hbudget ⟨failure, hfails, hdepth⟩
      · cases hdepth

/-! ## All validators -/

/-- One step down both the validator and the value are lower. -/
lemma Visits.exists_bounded {validator inner : Validator} {raw part : Value} {segment : Segment}
    (hvisits : validator.Visits segment inner) (hpart : raw.HasPart segment part)
    (hinner : Bounded (fun budget => inner.run budget part) (min inner.height part.height)) :
    ∃ low < min validator.height raw.height, Bounded (fun budget => inner.run budget part) low := by
  have hvalidator := hvisits.height_lt
  have hraw := hpart.height_lt
  exact ⟨min inner.height part.height, by omega, hinner⟩

lemma run_bounded (validator : Validator) (raw : Value) :
    Bounded (fun budget => validator.run budget raw) (min validator.height raw.height) := by
  induction validator generalizing raw with
  | primitive kind =>
    simp only [Validator.run]
    exact (Bounded.const (kind.not_tooDeep_run raw)).noted _
  | record fields extra ihFields ihExtra =>
    simp only [Validator.run]
    apply Bounded.noted
    cases raw with
    | mapping input =>
      have hfields : Bounded (fun budget => Field.run fields budget input)
          (min (record fields extra).height (Value.mapping input).height) := by
        apply Field.run_bounded
        intro field hfield value hget
        exact (Visits.field hfield).exists_bounded (.entry (Map.mem_of_lookup hget))
          (ihFields field hfield value)
      have hextra : Bounded (fun budget => extra.run budget (Field.undeclared fields input))
          (min (record fields extra).height (Value.mapping input).height) := by
        apply Extra.run_bounded
        rintro validator rfl ⟨key, part⟩ hentry
        obtain ⟨hmem, hundeclared⟩ := Field.mem_undeclared.1 hentry
        exact (Visits.extra hundeclared).exists_bounded (.entry hmem) (ihExtra validator rfl part)
      refine hfields.bind fun declared => hextra.bind fun kept => ?_
      exact .ok rfl
    | _ => exact .fail rfl
  | subtype base constraints ih =>
    simp only [Validator.run]
    apply Bounded.noted
    exact (ih raw).bind fun value => .const (Constraint.not_tooDeep_gate constraints value)
  | array element ih =>
    simp only [Validator.run]
    apply Bounded.noted
    cases raw with
    | sequence items =>
      have hitems : Bounded (fun budget => Run.items element.run budget 0 items)
          (min (array element).height (Value.sequence items).height) := by
        apply Bounded.items
        intro item hitem
        obtain ⟨index, hindex⟩ := List.mem_iff_getElem?.1 hitem
        exact (Visits.element index).exists_bounded (.item hindex) (ih item)
      exact hitems.bind fun results => .ok rfl
    | _ => exact .fail rfl
  | choice alternatives ih =>
    simp only [Validator.run]
    apply Bounded.noted
    apply firstOf_bounded
    intro first hfirst
    have hheight := height_alternative_le hfirst
    exact (ih first hfirst raw).mono (by omega)

/-- A run that used its budget up is reported as nested too deep, one step further down than the
budget goes. -/
lemma exists_error_of_tooDeep {validator : Validator} (config : Config) {raw : Value}
    (h : (validator.run config.maxDepth raw).TooDeep) (root : String) :
    ∃ (error : ValidationError) (path : Path),
      validator.validateWith config root raw = .error error ∧ error.kind = .depthExceeded ∧
      error.path = path.textFrom root ∧ path.length = config.maxDepth + 1 := by
  obtain ⟨⟨path, fault⟩, houtcome, hdepth⟩ := h
  cases fault with
  | depthExceeded =>
    have hlength : path.length = config.maxDepth + 1 := (fails_of_run houtcome).length_path
    exact ⟨_, path, validateWith_eq_error.2 ⟨_, houtcome, rfl⟩, rfl, rfl, hlength⟩
  | _ => cases hdepth

/-- Runs that are the same and have not used their budgets up are reported alike. -/
lemma validateWith_congr {validator : Validator} (config other : Config) {raw : Value}
    (hrun : validator.run config.maxDepth raw = validator.run other.maxDepth raw)
    (hshallow : ¬(validator.run other.maxDepth raw).TooDeep)
    (hreporting : config.unionErrors = other.unionErrors) (root : String) :
    validator.validateWith config root raw = validator.validateWith other root raw := by
  rw [validateWith, validateWith, Run.result, Run.result, hrun]
  cases houtcome : (validator.run other.maxDepth raw).outcome with
  | ok value => rfl
  | error failure =>
    have hdepth : failure.fault.isDepth = false := by
      rw [← Bool.not_eq_true]
      exact fun hdeep => hshallow ⟨failure, houtcome, hdeep⟩
    exact congrArg Except.error ((fails_of_run houtcome).report_congr hdepth hreporting root)

/-- **The limit on depth is a threshold.**  Below it every validation fails as nested too deep, at
the first place that lies beyond the limit; from it on all validations are the same. -/
theorem exists_depth_threshold (validator : Validator) (raw : Value) :
    ∃ least, least ≤ raw.height ∧ least ≤ validator.height ∧
      ∀ (root : String) (reporting : UnionErrors),
        (∀ limit < least, ∃ (error : ValidationError) (path : Path),
          validator.validateWith ⟨limit, reporting⟩ root raw = .error error ∧
          error.kind = .depthExceeded ∧ error.path = path.textFrom root ∧
          path.length = limit + 1) ∧
        ∀ limit, least ≤ limit →
          (∀ error, validator.validateWith ⟨limit, reporting⟩ root raw = .error error →
            error.kind ≠ .depthExceeded) ∧
          validator.validateWith ⟨limit, reporting⟩ root raw =
            validator.validateWith ⟨least, reporting⟩ root raw ∧
          (validator.run limit raw).evaluations = (validator.run least raw).evaluations := by
  obtain ⟨least, hleast, hbelow, hfrom⟩ := (run_bounded validator raw).exists_threshold
  refine ⟨least, by omega, by omega, fun root reporting => ⟨?_, ?_⟩⟩
  · intro limit hlimit
    exact exists_error_of_tooDeep ⟨limit, reporting⟩ (hbelow limit hlimit) root
  · intro limit hlimit
    obtain ⟨hshallow, hrun⟩ := hfrom limit hlimit
    refine ⟨?_, ?_, congrArg Run.evaluations hrun⟩
    · intro error herror hkind
      obtain ⟨failure, houtcome, rfl⟩ := validateWith_eq_error.1 herror
      rw [Failure.kind_report, ← Fault.isDepth_iff] at hkind
      exact hshallow ⟨failure, houtcome, hkind⟩
    · exact validateWith_congr ⟨limit, reporting⟩ ⟨least, reporting⟩ hrun (hfrom least le_rfl).1 rfl
        root

end Validator

end Conform
