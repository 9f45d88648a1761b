import Conform.Place
import Conform.Proofs.Reports
import Conform.Proofs.Steps

/-!
# Validation with its place in hand

A run knows neither the root under which its faults are reported nor how much is said about a
refused choice: places are relative, and failures are worded when the run is over.  A caller who
walks down by hand has a place with its root, and words every error where it is found.  A walk
(`Validator.walk`) is validation done in this way.  The text of its place is extended at every step
down, and a choice compares it with the places of the errors that its alternatives came to.

Both are the same.  What a run tells, its constraint tests and its outcome as it is reported below
some root (`Run.told`), goes through every operation that runs are built of, so that a walk is what
the run tells (`Validator.walk_eq`).  So the root and the way of reporting, which a walk has at hand
wherever it decides something, decide nothing (`Validator.validateWith_of_reporting`).
-/

namespace Conform

/-! ## Walks -/

/-- The constraint tests of a walk, in order, and the value or the error that it comes to. -/
structure Walk (α : Type) where
  evaluations : List Evaluation
  outcome : Except ValidationError α

namespace Walk

variable {α β : Type}

/-- The walk without tests that comes to a value. -/
def pure (value : α) : Walk α := ⟨[], .ok value⟩

/-- A walk and then, if it comes to a value, another one. -/
def bind (walk : Walk α) (next : α → Walk β) : Walk β :=
  match walk.outcome with
  | .ok value => ⟨walk.evaluations ++ (next value).evaluations, (next value).outcome⟩
  | .error error => ⟨walk.evaluations, .error error⟩

instance : Monad Walk where
  pure := pure
  bind := bind

/-- Fails with an error. -/
def fail (error : ValidationError) : Walk α := ⟨[], .error error⟩

/-- Goes one step down, if the limit allows it. -/
def enter (config : Config) (place : Place) (segment : Segment) (visit : Place → Walk α) :
    Walk α :=
  match place.enter config segment with
  | .ok inner => visit inner
  | .error error => fail error

/-- Visits items one by one, each one step down, from the given index on. -/
def items (config : Config) (visit : Place → Value → Walk Value) (place : Place) :
    Nat → List Value → Walk (List Value)
  | _, [] => return []
  | index, item :: items => do
    let first ← enter config place (.index index) fun inner => visit inner item
    let others ← Walk.items config visit place (index + 1) items
    return first :: others

/-- Visits entries one by one, each one step down. -/
def entries (config : Config) (visit : Place → Value → Walk Value) (place : Place) :
    List (String × Value) → Walk (List (String × Value))
  | [] => return []
  | (key, value) :: entries => do
    let first ← enter config place (.key key) fun inner => visit inner value
    let others ← Walk.entries config visit place entries
    return (key, first) :: others

end Walk

/-- Lets a value pass that meets all constraints. -/
def Constraint.walk (constraints : List Constraint) (place : Place) (value : Value) : Walk Value :=
  let results := Constraint.test value constraints
  ⟨results.map fun result => ⟨result.1, value, result.2⟩,
    match Constraint.broken? results with
    | some broken => .error (.constraint place.text broken.message)
    | none => .ok value⟩

/-- Coerces a value to a kind. -/
def Kind.walk (kind : Kind) (config : Config) (place : Place) (raw : Value) : Walk Value :=
  match kind.coerce raw with
  | .ok value => return value
  | .error misfit => Walk.fail ((misfit.fault kind).report config place.text)

/-- Why the alternatives of a choice do not fit, numbered from the given index on; an error at
another place than that of the choice is named with its place. -/
def Place.reasons (place : Place) : Nat → List (Shape × ValidationError) → List String
  | _, [] => []
  | index, (shape, error) :: rest =>
    ValidationError.reason index shape (error.path != place.text) error ::
      place.reasons (index + 1) rest

mutual

/-- Puts a validator to the value at a place. -/
def Validator.walk (config : Config) (validator : Validator) (place : Place) (raw : Value) :
    Walk Value :=
  match validator with
  | .primitive kind => kind.walk config place raw
  | .record fields extra =>
    match raw with
    | .mapping input => do
      let declared ← Field.walk config fields place input
      let kept ← Extra.walk config extra place (Field.undeclared fields input)
      return .mapping (.ofList (declared ++ kept))
    | _ => Walk.fail (.typeMismatch place.text "object" raw.tag.name)
  | .subtype base constraints => do
    let value ← Validator.walk config base place raw
    Constraint.walk constraints place value
  | .array element =>
    match raw with
    | .sequence items => do
      let items ← Walk.items config (Validator.walk config element) place 0 items
      return .sequence items
    | _ => Walk.fail (.typeMismatch place.text "array" raw.tag.name)
  | .choice alternatives => Validator.walkFirst config alternatives [] place raw

/-- Puts fields to the mapping at a place, in the order of their declaration. -/
def Field.walk (config : Config) (fields : List Field) (place : Place) (input : Map Value) :
    Walk (List (String × Value)) :=
  match fields with
  | [] => return []
  | ⟨name, validator, optional⟩ :: fields =>
    match input.get? name with
    | some value => do
      let first ← Walk.enter config place (.key name) fun inner =>
        Validator.walk config validator inner value
      let others ← Field.walk config fields place input
      return (name, first) :: others
    | none =>
      if optional then Field.walk config fields place input
      else Walk.fail (.missingField (place.below (.key name)).text name)

/-- Deals with the entries that no field declares, in the order of the input. -/
def Extra.walk (config : Config) (extra : Extra) (place : Place)
    (undeclared : List (String × Value)) : Walk (List (String × Value)) :=
  match extra with
  | .closed =>
    if undeclared.isEmpty then return []
    else Walk.fail (.extraFields place.text (undeclared.map Prod.fst))
  | .ignored => return []
  | .typed validator => Walk.entries config (Validator.walk config validator) place undeclared

/-- Puts alternatives to a value in turn, when those in `refused` have refused it already. -/
def Validator.walkFirst (config : Config) (alternatives : List Validator)
    (refused : List (Shape × ValidationError)) (place : Place) (raw : Value) : Walk Value :=
  match alternatives with
  | [] => Walk.fail <| .unionExhausted place.text <|
    match config.unionErrors with
    | .summary => none
    | .detailed => some (place.reasons 0 refused)
  | first :: others =>
    let attempt := Validator.walk config first place raw
    match attempt.outcome with
    | .ok _ => attempt
    | .error error =>
      if error.kind = .depthExceeded then attempt
      else
        let rest := Validator.walkFirst config others (refused ++ [(first.shape, error)]) place raw
        ⟨attempt.evaluations ++ rest.evaluations, rest.outcome⟩

end

/-! ## What a run tells -/

/-- The constraint tests of a run, and its outcome as it is reported below a root. -/
def Run.told {α : Type} (config : Config) (root : String) (run : Run α) : Walk α :=
  ⟨run.evaluations, run.result config root⟩

namespace Run

variable {α β : Type} {config : Config} {root : String}

lemma told_bind (run : Run α) (next : α → Run β) :
    (run >>= next).told config root =
      run.told config root >>= fun value => (next value).told config root := by
  show (Run.bind run next).told config root = Walk.bind (run.told config root) _
  obtain ⟨steps, outcome⟩ := run
  cases outcome with
  | ok value => simp [told, Run.bind, Walk.bind, evaluations, result, Except.mapError]
  | error failure => rfl

lemma told_below (segment : Segment) (run : Run α) :
    (run.below segment).told config root = run.told config (root ++ segment.text) := by
  obtain ⟨steps, outcome⟩ := run
  have hevaluations := evaluations_below segment ⟨steps, outcome⟩
  cases outcome with
  | ok value => exact congrArg (Walk.mk · (.ok value)) hevaluations
  | error failure =>
    have hreport := failure.report_under config root segment
    exact congrArg₂ Walk.mk hevaluations (congrArg Except.error hreport)

/-- Only tests are told, so other events may be left out. -/
lemma told_noted {event : Event} (h : Step.evaluations ⟨[], event⟩ = []) (run : Run α) :
    (note event >>= fun _ => run).told config root = run.told config root := by
  have hevaluations : (note event >>= fun _ => run).evaluations = run.evaluations := by
    show Step.evaluations ⟨[], event⟩ ++ run.evaluations = run.evaluations
    rw [h, List.nil_append]
  exact congrArg (Walk.mk · (run.result config root)) hevaluations

end Run

/-! ## Steps down -/

namespace Run

variable {α : Type} (config : Config)

/-- A step down is told at the place that is entered, with one step less to go. -/
lemma told_descend (place : Place) (segment : Segment) (visit : Nat → Run α) :
    (descend segment (config.maxDepth - place.depth) visit).told config place.text =
      Walk.enter config place segment fun inner =>
        (visit (config.maxDepth - inner.depth)).told config inner.text := by
  by_cases h : place.depth < config.maxDepth
  · have hleft : config.maxDepth - place.depth =
        config.maxDepth - (place.below segment).depth + 1 := by
      rw [Place.depth_below]
      omega
    rw [Walk.enter, Place.enter, if_pos h, hleft, descend, told_below, ← Place.text_below]
  · have hnone : config.maxDepth - place.depth = 0 := by omega
    rw [Walk.enter, Place.enter, if_neg h, hnone, descend, told_below, ← Place.text_below]
    rfl

/-- What is run with a budget is told, at every place, as what is walked from there. -/
def ToldAs (visit : Nat → Value → Run α) (step : Place → Value → Walk α) : Prop :=
  ∀ (place : Place) (value : Value),
    (visit (config.maxDepth - place.depth) value).told config place.text = step place value

variable {config}

lemma ToldAs.descend {visit : Nat → Value → Run α} {step : Place → Value → Walk α}
    (h : ToldAs config visit step) (place : Place) (segment : Segment) (value : Value) :
    (Run.descend segment (config.maxDepth - place.depth) fun left => visit left value).told config
        place.text =
      Walk.enter config place segment fun inner => step inner value := by
  rw [told_descend]
  exact congrArg (Walk.enter config place segment) (funext fun inner => h inner value)

lemma ToldAs.items {visit : Nat → Value → Run Value} {step : Place → Value → Walk Value}
    (h : ToldAs config visit step) (place : Place) (index : Nat) (items : List Value) :
    (Run.items visit (config.maxDepth - place.depth) index items).told config place.text =
      Walk.items config step place index items := by
  induction items generalizing index with
  | nil => rfl
  | cons item items ih =>
    rw [Run.items, Walk.items, told_bind, h.descend]
    refine congrArg _ (funext fun first => ?_)
    rw [told_bind, ih]
    rfl

lemma ToldAs.entries {visit : Nat → Value → Run Value} {step : Place → Value → Walk Value}
    (h : ToldAs config visit step) (place : Place) (entries : List (String × Value)) :
    (Run.entries visit (config.maxDepth - place.depth) entries).told config place.text =
      Walk.entries config step place entries := by
  induction entries with
  | nil => rfl
  | cons entry entries ih =>
    rw [Run.entries, Walk.entries, told_bind, h.descend]
    refine congrArg _ (funext fun first => ?_)
    rw [told_bind, ih]
    rfl

end Run

open Run

/-! ## Records, constraints and choices -/

lemma Field.told_run {config : Config} {fields : List Field}
    (h : ∀ field ∈ fields,
      ToldAs config field.validator.run (Validator.walk config field.validator))
    (place : Place) (input : Map Value) :
    (Field.run fields (config.maxDepth - place.depth) input).told config place.text =
      Field.walk config fields place input := by
  induction fields with
  | nil => rfl
  | cons field fields ih =>
    obtain ⟨hfield, hfields⟩ := List.forall_mem_cons.1 h
    obtain ⟨name, validator, optional⟩ := field
    rw [Field.run, Field.walk]
    cases input.get? name with
    | some value =>
      dsimp only
      rw [told_bind, hfield.descend]
      refine congrArg _ (funext fun first => ?_)
      rw [told_bind, ih hfields]
      rfl
    | none =>
      cases optional with
      | true => exact ih hfields
      | false =>
        rw [Place.text_below]
        exact told_below (.key name) (Run.fail (.missingField name))

lemma Extra.told_run {config : Config} {extra : Extra}
    (h : ∀ validator, extra = .typed validator →
      ToldAs config validator.run (Validator.walk config validator))
    (place : Place) (undeclared : List (String × Value)) :
    (extra.run (config.maxDepth - place.depth) undeclared).told config place.text =
      Extra.walk config extra place undeclared := by
  cases extra with
  | closed => cases undeclared <;> rfl
  | ignored => cases undeclared <;> rfl
  | typed validator => exact (h validator rfl).entries place undeclared

lemma Kind.told_run (kind : Kind) (config : Config) (place : Place) (raw : Value) :
    (kind.run raw).told config place.text = kind.walk config place raw := by
  rw [Kind.run, Kind.walk]
  cases kind.coerce raw <;> rfl

lemma Constraint.told_gate (constraints : List Constraint) (config : Config) (place : Place)
    (value : Value) :
    (Constraint.gate constraints value).told config place.text =
      Constraint.walk constraints place value := by
  have hnote (results : List (Constraint × Bool)) :
      (note (.tested value results)).told config place.text =
        ⟨results.map fun result => ⟨result.1, value, result.2⟩, .ok ()⟩ :=
    congrArg (Walk.mk · (.ok ())) (List.append_nil _)
  rw [Constraint.gate, Constraint.walk, told_bind, hnote]
  cases Constraint.broken? (Constraint.test value constraints) with
  | none => exact congrArg (Walk.mk · _) (List.append_nil _)
  | some broken => exact congrArg (Walk.mk · _) (List.append_nil _)

lemma Place.reasons_report (config : Config) (place : Place) (index : Nat)
    (refused : List (Shape × Failure)) :
    place.reasons index
        (refused.map fun refusal => (refusal.1, refusal.2.report config place.text)) =
      Conform.reasons config place.text index refused := by
  induction refused generalizing index with
  | nil => rfl
  | cons refusal refused ih =>
    obtain ⟨shape, failure⟩ := refusal
    have hbelow : ((failure.report config place.text).path != place.text) =
        !failure.path.isEmpty := by
      rw [Failure.path_report, Bool.eq_iff_iff, bne_iff_ne, Ne, Path.textFrom_eq_self_iff]
      simp
    rw [List.map_cons, Place.reasons, Conform.reasons, hbelow, ih]

namespace Validator

lemma told_firstOf {config : Config} {alternatives : List Validator}
    (h : ∀ first ∈ alternatives, ToldAs config first.run (walk config first))
    (refused : List (Shape × Failure)) (place : Place) (raw : Value) :
    (firstOf alternatives refused (config.maxDepth - place.depth) raw).told config place.text =
      walkFirst config alternatives
        (refused.map fun refusal => (refusal.1, refusal.2.report config place.text)) place raw := by
  induction alternatives generalizing refused with
  | nil =>
    rw [walkFirst, Place.reasons_report]
    rfl
  | cons first others ih =>
    obtain ⟨hfirst, hothers⟩ := List.forall_mem_cons.1 h
    rw [walkFirst, ← hfirst place raw]
    cases houtcome : (first.run (config.maxDepth - place.depth) raw).outcome with
    | ok value =>
      rw [firstOf_cons_of_ok houtcome]
      simp only [told, result, houtcome, Except.mapError]
    | error failure =>
      have hkind : (failure.report config place.text).kind = .depthExceeded ↔
          failure.fault.isDepth = true := by
        rw [Failure.kind_report, Fault.isDepth_iff]
      have herror : ((first.run (config.maxDepth - place.depth) raw).told config
          place.text).outcome = .error (failure.report config place.text) := by
        rw [told, result, houtcome]
        rfl
      rw [herror]
      dsimp only
      cases hdepth : failure.fault.isDepth with
      | true =>
        rw [firstOf_cons_of_depth houtcome hdepth, if_pos (hkind.2 hdepth)]
      | false =>
        rw [firstOf_cons_of_refused houtcome hdepth, if_neg (by rw [hkind, hdepth]; decide)]
        -- The refusal is a step of the run, but no test, and nothing is told of it.
        have hrest := ih hothers (refused ++ [(first.shape, failure)])
        rw [List.map_append, List.map_singleton] at hrest
        rw [← hrest]
        exact congrArg (Walk.mk · _) List.flatMap_append

/-! ## All validators -/

/-- **A walk is what a run tells.**  The limit leaves as many steps down as the place has not used
up yet. -/
theorem walk_eq (config : Config) (validator : Validator) (place : Place) (raw : Value) :
    walk config validator place raw =
      (validator.run (config.maxDepth - place.depth) raw).told config place.text := by
  -- One step down there is another place with another budget, so the induction is for all places.
  suffices ToldAs config validator.run (walk config validator) from (this place raw).symm
  induction validator with
  | primitive kind =>
    intro place raw
    rw [Validator.run, told_noted rfl, walk]
    exact kind.told_run config place raw
  | record fields extra ihFields ihExtra =>
    intro place raw
    cases raw with
    | mapping input =>
      rw [Validator.run, told_noted rfl, walk, told_bind, Field.told_run ihFields]
      refine congrArg _ (funext fun declared => ?_)
      rw [told_bind, Extra.told_run ihExtra]
      rfl
    | _ => rfl
  | subtype base constraints ih =>
    intro place raw
    rw [Validator.run, told_noted rfl, walk, told_bind, ih place raw]
    exact congrArg _ (funext fun value => Constraint.told_gate constraints config place value)
  | array element ih =>
    intro place raw
    cases raw with
    | sequence items =>
      rw [Validator.run, told_noted rfl, walk, told_bind, ih.items]
      rfl
    | _ => rfl
  | choice alternatives ih =>
    intro place raw
    rw [Validator.run, told_noted rfl, walk]
    exact told_firstOf ih [] place raw

/-- From its root on a walk comes to what a caller gets. -/
lemma walk_start (config : Config) (validator : Validator) (root : String) (raw : Value) :
    walk config validator (.start root) raw =
      ⟨(validator.run config.maxDepth raw).evaluations, validator.validateWith config root raw⟩ :=
  walk_eq config validator (.start root) raw

/-- **Reporting decides nothing.**  Whatever the root and the way of reporting, the same constraints
are tested on the same values in the same order, and the outcome is the same value, or the same
kind of error at the same place below the root.  The messages are the same, too, unless they give
the reasons of a choice. -/
theorem validateWith_of_reporting (validator : Validator) (raw : Value) (limit : Nat)
    (root elsewhere : String) (reporting other : UnionErrors) :
    (walk ⟨limit, reporting⟩ validator (.start root) raw).evaluations =
      (walk ⟨limit, other⟩ validator (.start elsewhere) raw).evaluations ∧
    ((∃ value, validator.validateWith ⟨limit, reporting⟩ root raw = .ok value ∧
        validator.validateWith ⟨limit, other⟩ elsewhere raw = .ok value) ∨
      ∃ (error fault : ValidationError) (suffix : String),
        validator.validateWith ⟨limit, reporting⟩ root raw = .error error ∧
        validator.validateWith ⟨limit, other⟩ elsewhere raw = .error fault ∧
        error.kind = fault.kind ∧ error.path = root ++ suffix ∧ fault.path = elsewhere ++ suffix ∧
        (error.kind ≠ .unionExhausted ∨ (reporting = .summary ∧ other = .summary) →
          error.message = fault.message)) := by
  constructor
  · rw [walk_start, walk_start]
  · cases houtcome : (validator.run limit raw).outcome with
    | ok value => exact .inl ⟨value, validateWith_eq_ok.2 houtcome, validateWith_eq_ok.2 houtcome⟩
    | error failure =>
      refine .inr ⟨failure.report ⟨limit, reporting⟩ root, failure.report ⟨limit, other⟩ elsewhere,
        failure.path.textFrom "", validateWith_eq_error.2 ⟨failure, houtcome, rfl⟩,
        validateWith_eq_error.2 ⟨failure, houtcome, rfl⟩, ?_, ?_, ?_, ?_⟩
      · rw [Failure.kind_report, Failure.kind_report]
      · rw [Failure.path_report, Path.textFrom_eq_append]
      · rw [Failure.path_report, Path.textFrom_eq_append]
      · rw [Failure.kind_report, Failure.report_eq, Failure.report_eq]
        intro h
        exact Fault.message_report ⟨limit, reporting⟩ ⟨limit, other⟩ rfl h _ _

/-- The reasons of a choice name places, and so the root. -/
example : (choice [array (primitive .integer)]).validateWith {} "$" (.sequence [.null]) =
    .error ⟨"$",
      "no union variant matched (variant 0 (array): at '$[0]': expected integer, got null)",
      .unionExhausted⟩ := rfl

end Validator

end Conform
