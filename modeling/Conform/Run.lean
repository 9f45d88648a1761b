import Conform.Path
import Conform.Validator

/-!
# Runs

What a validation comes to: the steps it took, in order, and a value or a failure at the end.

Places are kept relative to where the run started, so a run knows nothing of the root under which
its caller reports it; a run on a part becomes a part of a run on the whole by `Run.below`, which
puts a step in front of every place.  Failures are kept as causes, a refused choice with the
failures of all its alternatives, and are worded only when they are reported.
-/

namespace Conform

mutual

/-- A fault and the place where it was found. -/
structure Failure where
  path : Path
  fault : Fault

/-- Why a value is not accepted. -/
inductive Fault where
  /-- The value has another tag than the one expected. -/
  | typeMismatch (expected : String) (actual : Tag)
  /-- The value is a string that spells out nothing of the kind. -/
  | coercion (input : String) (target : Kind)
  /-- A required field is absent. -/
  | missingField (name : String)
  /-- Keys are present that a closed record does not declare. -/
  | extraFields (names : List String)
  /-- A constraint does not hold. -/
  | constraint (message : String)
  /-- No alternative of a choice accepts the value; each with its own failure. -/
  | unionExhausted (rejections : List (Shape × Failure))
  /-- The value nests deeper than is allowed. -/
  | depthExceeded

end

instance : Inhabited Fault := ⟨.depthExceeded⟩

instance : Inhabited Failure := ⟨⟨[], .depthExceeded⟩⟩

/-- Whether a fault is that the value nests too deep. -/
def Fault.isDepth : Fault → Bool
  | depthExceeded => true
  | _ => false

/-- Something that happens in a run. -/
inductive Event where
  /-- A validator of this shape is put to the value. -/
  | entered (shape : Shape)
  /-- Constraints are tested on a value, in order, up to the first that fails. -/
  | tested (value : Value) (results : List (Constraint × Bool))
  /-- An alternative refuses the value. -/
  | rejected (index : Nat) (shape : Shape) (failure : Failure)
  /-- Undeclared keys are left out. -/
  | dropped (count : Nat)

/-- An event and the place where it happens. -/
structure Step where
  path : Path
  event : Event

/-- The steps of a validation and what it comes to. -/
structure Run (α : Type) where
  steps : List Step
  outcome : Except Failure α

namespace Run

variable {α β : Type}

/-- The run without steps that comes to a value. -/
def pure (value : α) : Run α := ⟨[], .ok value⟩

/-- A run and then, if it comes to a value, another one. -/
def bind (run : Run α) (next : α → Run β) : Run β :=
  match run.outcome with
  | .ok value => ⟨run.steps ++ (next value).steps, (next value).outcome⟩
  | .error failure => ⟨run.steps, .error failure⟩

instance : Monad Run where
  pure := pure
  bind := bind

instance : Inhabited (Run α) := ⟨⟨[], .error default⟩⟩

/-- Fails at the present place. -/
def fail (fault : Fault) : Run α := ⟨[], .error ⟨[], fault⟩⟩

/-- Notes an event at the present place. -/
def note (event : Event) : Run Unit := ⟨[⟨[], event⟩], .ok ()⟩

/-- A run on a part, seen from the whole. -/
def below (segment : Segment) (run : Run α) : Run α where
  steps := run.steps.map fun step => { step with path := segment :: step.path }
  outcome := run.outcome.mapError fun failure => { failure with path := segment :: failure.path }

/-- Goes down to a part, if the budget of such steps is not used up. -/
def descend (segment : Segment) (budget : Nat) (visit : Nat → Run α) : Run α :=
  match budget with
  | 0 => below segment (fail .depthExceeded)
  | budget + 1 => below segment (visit budget)

end Run

end Conform
