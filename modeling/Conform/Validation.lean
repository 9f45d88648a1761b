import Conform.Run

/-!
# Validation

How a validator meets a value.  A run goes through the validator and the value together and stops at
the first fault; only a choice goes on after one, to its next alternative.  It never changes its
input: what it comes to is built anew.

Every step down into a mapping or a sequence is paid from a budget.  Running out of it is a property
of the value and not of the alternative that noticed it, so this fault alone ends a choice.
-/

namespace Conform

/-! ## Constraints -/

/-- Tests constraints in order, up to the first that does not hold. -/
def Constraint.test (value : Value) : List Constraint → List (Constraint × Bool)
  | [] => []
  | first :: others =>
    if first.holds value then (first, true) :: Constraint.test value others else [(first, false)]

/-- The constraint that does not hold, if there is one among the results. -/
def Constraint.broken? (results : List (Constraint × Bool)) : Option Constraint :=
  (results.find? fun result => !result.2).map Prod.fst

/-- Lets a value pass that meets all constraints. -/
def Constraint.gate (constraints : List Constraint) (value : Value) : Run Value := do
  let results := Constraint.test value constraints
  Run.note (.tested value results)
  match Constraint.broken? results with
  | some broken => Run.fail (.constraint broken.message)
  | none => return value

/-! ## Scalars -/

/-- The fault of a value that a kind does not take. -/
def Misfit.fault (kind : Kind) : Misfit → Fault
  | tag actual => .typeMismatch kind.name actual
  | text input => .coercion input kind

/-- Coerces a value to a kind. -/
def Kind.run (kind : Kind) (raw : Value) : Run Value :=
  match kind.coerce raw with
  | .ok value => return value
  | .error misfit => Run.fail (misfit.fault kind)

/-! ## Containers -/

/-- Visits items one by one, each one step down, from the given index on. -/
def Run.items (visit : Nat → Value → Run Value) (budget : Nat) :
    Nat → List Value → Run (List Value)
  | _, [] => return []
  | index, item :: items => do
    let first ← Run.descend (.index index) budget fun left => visit left item
    let others ← Run.items visit budget (index + 1) items
    return first :: others

/-- Visits entries one by one, each one step down. -/
def Run.entries (visit : Nat → Value → Run Value) (budget : Nat) :
    List (String × Value) → Run (List (String × Value))
  | [] => return []
  | (key, value) :: entries => do
    let first ← Run.descend (.key key) budget fun left => visit left value
    let others ← Run.entries visit budget entries
    return (key, first) :: others

/-- The entries whose keys no field declares. -/
def Field.undeclared (fields : List Field) (input : Map Value) : List (String × Value) :=
  input.entries.filter fun entry => !(fields.map Field.name).contains entry.1

/-! ## All validators -/

mutual

/-- Puts a validator to a value, with a budget of steps down. -/
def Validator.run (validator : Validator) (budget : Nat) (raw : Value) : Run Value := do
  Run.note (.entered validator.shape)
  match validator with
  | .primitive kind => kind.run raw
  | .record fields extra =>
    match raw with
    | .mapping input => do
      let declared ← Field.run fields budget input
      let kept ← extra.run budget (Field.undeclared fields input)
      return .mapping (.ofList (declared ++ kept))
    | _ => Run.fail (.typeMismatch "object" raw.tag)
  | .subtype base constraints => do
    let value ← base.run budget raw
    Constraint.gate constraints value
  | .array element =>
    match raw with
    | .sequence items => do
      let items ← Run.items element.run budget 0 items
      return .sequence items
    | _ => Run.fail (.typeMismatch "array" raw.tag)
  | .choice alternatives => Validator.firstOf alternatives [] budget raw

/-- Puts fields to a mapping, in the order of their declaration. -/
def Field.run (fields : List Field) (budget : Nat) (input : Map Value) :
    Run (List (String × Value)) :=
  match fields with
  | [] => return []
  | ⟨name, validator, optional⟩ :: fields =>
    match input.get? name with
    | some value => do
      let first ← Run.descend (.key name) budget fun left => validator.run left value
      let others ← Field.run fields budget input
      return (name, first) :: others
    | none =>
      if optional then Field.run fields budget input
      else Run.below (.key name) (Run.fail (.missingField name))

/-- Deals with the entries that no field declares, in the order of the input. -/
def Extra.run (extra : Extra) (budget : Nat) (undeclared : List (String × Value)) :
    Run (List (String × Value)) :=
  match extra with
  | .closed =>
    if undeclared.isEmpty then return []
    else Run.fail (.extraFields (undeclared.map Prod.fst))
  | .ignored => do
    unless undeclared.isEmpty do
      Run.note (.dropped undeclared.length)
    return []
  | .typed validator => Run.entries validator.run budget undeclared

/-- Puts alternatives to a value in turn, when those in `refused` have refused it already. -/
def Validator.firstOf (alternatives : List Validator) (refused : List (Shape × Failure))
    (budget : Nat) (raw : Value) : Run Value :=
  match alternatives with
  | [] => Run.fail (.unionExhausted refused)
  | first :: others =>
    let attempt := first.run budget raw
    match attempt.outcome with
    | .ok _ => attempt
    | .error failure =>
      if failure.fault.isDepth then attempt
      else
        let rejection : Step := ⟨[], .rejected refused.length first.shape failure⟩
        let rest := Validator.firstOf others (refused ++ [(first.shape, failure)]) budget raw
        ⟨attempt.steps ++ rejection :: rest.steps, rest.outcome⟩

end

end Conform
