import Conform.Config
import Conform.Validation

/-!
# Reports

What a caller gets to read: the value a validation comes to, or one error with its kind, its place
and its message, and the log of what happened.  All of it is worked out from a run, given the text
of the root and the settings; neither has a part in the run itself, except for the depth.
-/

namespace Conform

/-! ## Kinds of errors -/

/-- What sort of thing is wrong with a value. -/
inductive ErrorKind where
  | typeMismatch
  | coercion
  | missingField
  | extraField
  | constraint
  | unionExhausted
  | depthExceeded
deriving DecidableEq, Repr

namespace ErrorKind

/-- All kinds of errors, in the order in which they are listed to readers. -/
def all : List ErrorKind :=
  [typeMismatch, coercion, missingField, extraField, constraint, unionExhausted, depthExceeded]

/-- The name of a kind in JSON. -/
def name : ErrorKind → String
  | typeMismatch => "type_mismatch"
  | coercion => "coercion"
  | missingField => "missing_field"
  | extraField => "extra_field"
  | constraint => "constraint"
  | unionExhausted => "union_exhausted"
  | depthExceeded => "depth_exceeded"

/-- The kind of a name in JSON. -/
def ofName? (name : String) : Option ErrorKind := all.find? fun kind => kind.name = name

/-- The name of a kind in the log. -/
def label : ErrorKind → String
  | typeMismatch => "type mismatch"
  | coercion => "coercion failure"
  | missingField => "missing field"
  | extraField => "extra field"
  | constraint => "constraint failure"
  | unionExhausted => "union exhausted"
  | depthExceeded => "depth exceeded"

end ErrorKind

/-! ## Validation errors -/

/-- What is wrong with a value, and where. -/
structure ValidationError where
  path : String
  message : String
  kind : ErrorKind
deriving DecidableEq, Repr

namespace ValidationError

/-- The text of an error; the empty path is the root. -/
def text (error : ValidationError) : String :=
  let place := if error.path.isEmpty then "<root>" else error.path
  "Validation error at '" ++ place ++ "': " ++ error.message

/-- A value with another tag than expected. -/
def typeMismatch (path expected actual : String) : ValidationError :=
  ⟨path, "expected " ++ expected ++ ", got " ++ actual, .typeMismatch⟩

/-- A string that does not spell out what is wanted. -/
def coercion (path input target : String) : ValidationError :=
  ⟨path, "cannot coerce " ++ Text.quoted input ++ " to " ++ target, .coercion⟩

/-- A required field that is absent. -/
def missingField (path name : String) : ValidationError :=
  ⟨path, "required field '" ++ name ++ "' is missing", .missingField⟩

/-- Keys that a closed record does not declare, all of them named. -/
def extraFields (path : String) (names : List String) : ValidationError :=
  let noun := if names.length = 1 then "field" else "fields"
  let listed := ", ".intercalate (names.map fun name => "'" ++ name ++ "'")
  ⟨path, "unexpected " ++ noun ++ " " ++ listed, .extraField⟩

/-- A constraint that does not hold. -/
def constraint (path message : String) : ValidationError := ⟨path, message, .constraint⟩

/-- A value that nests deeper than the limit. -/
def depthExceeded (path : String) (limit : Nat) : ValidationError :=
  ⟨path, "maximum validation depth of " ++ toString limit ++ " exceeded", .depthExceeded⟩

/-- The sentence of a choice that no alternative fits. -/
def noMatch : String := "no union variant matched"

/-- A choice that no alternative fits, with the reasons if there are any to give. -/
def unionExhausted (path : String) (reasons : Option (List String)) : ValidationError :=
  ⟨path,
    match reasons with
    | some reasons => noMatch ++ " (" ++ "; ".intercalate reasons ++ ")"
    | none => noMatch,
    .unionExhausted⟩

/-- Why one alternative of a choice does not fit; its place is named when it is not the place of the
choice itself. -/
def reason (index : Nat) (shape : Shape) (below : Bool) (error : ValidationError) : String :=
  let place := if below then "at '" ++ error.path ++ "': " else ""
  "variant " ++ toString index ++ " (" ++ shape.name ++ "): " ++ place ++ error.message

end ValidationError

/-! ## Wording a failure -/

mutual

/-- Words a fault at a place whose text is given. -/
def Fault.report (config : Config) (place : String) : Fault → ValidationError
  | .typeMismatch expected actual => .typeMismatch place expected actual.name
  | .coercion input target => .coercion place input target.name
  | .missingField name => .missingField place name
  | .extraFields names => .extraFields place names
  | .constraint message => .constraint place message
  | .unionExhausted rejections =>
    .unionExhausted place <|
      match config.unionErrors with
      | .summary => none
      | .detailed => some (reasons config place 0 rejections)
  | .depthExceeded => .depthExceeded place config.maxDepth

/-- Words a failure below a root whose text is given. -/
def Failure.report (config : Config) (root : String) : Failure → ValidationError
  | ⟨path, fault⟩ => fault.report config (path.textFrom root)

/-- Words the failures of the alternatives of a choice, numbered from the given index on. -/
def reasons (config : Config) (place : String) (index : Nat) :
    List (Shape × Failure) → List String
  | [] => []
  | (shape, failure) :: rest =>
    ValidationError.reason index shape (!failure.path.isEmpty) (failure.report config place) ::
      reasons config place (index + 1) rest

end

/-! ## The log -/

/-- How much a log record matters. -/
inductive Level where
  | trace | debug | warn | error
deriving DecidableEq, Repr

/-- The name of a level. -/
def Level.name : Level → String
  | trace => "trace"
  | debug => "debug"
  | warn => "warn"
  | error => "error"

/-- A line of the log. -/
structure LogRecord where
  level : Level
  text : String
deriving DecidableEq, Repr

/-- The record of a step, if it leaves one. -/
def Step.record? (config : Config) (root : String) (step : Step) : Option LogRecord :=
  let place := step.path.textFrom root
  match step.event with
  | .entered shape => some ⟨.trace, "Validating " ++ shape.name ++ " at '" ++ place ++ "'"⟩
  | .tested _ _ => none
  | .rejected index shape failure =>
    some ⟨.debug, "Union variant " ++ toString index ++ " (" ++ shape.name ++
      ") rejected value at '" ++ place ++ "': " ++ (failure.report config place).message⟩
  | .dropped count =>
    some ⟨.trace, "Dropping " ++ toString count ++ " undeclared field(s) at '" ++ place ++ "'"⟩

/-- The record of a failed validation. -/
def ValidationError.record (error : ValidationError) : LogRecord :=
  ⟨.debug, "Validation failed (" ++ error.kind.label ++ ") at '" ++ error.path ++ "': " ++
    error.message⟩

/-- The records of building a record with these fields: one for each field that is left out because
its name has come before. -/
def Field.log (fields : List Field) : List LogRecord :=
  (Field.repeats fields).map fun name => ⟨.warn, "Duplicate schema field '" ++ name ++ "' ignored"⟩

/-! ## What a caller gets -/

/-- A constraint as it is shown to a programmer: its message, and no more of the test. -/
def Constraint.text (constraint : Constraint) : String :=
  "Constraint \x7b message: " ++ Text.quoted constraint.message ++ ", .. \x7d"

/-- A constraint and what it was found to say. -/
structure Evaluation where
  constraint : Constraint
  value : Value
  holds : Bool

/-- The constraint evaluations of a step. -/
def Step.evaluations (step : Step) : List Evaluation :=
  match step.event with
  | .tested value results => results.map fun result => ⟨result.1, value, result.2⟩
  | _ => []

namespace Run

/-- All constraint evaluations of a run, in order. -/
def evaluations {α : Type} (run : Run α) : List Evaluation := run.steps.flatMap Step.evaluations

/-- What a run comes to, reported below a root. -/
def result {α : Type} (config : Config) (root : String) (run : Run α) : Except ValidationError α :=
  run.outcome.mapError (Failure.report config root)

/-- The log of a run, reported below a root. -/
def log {α : Type} (config : Config) (root : String) (run : Run α) : List LogRecord :=
  run.steps.filterMap (Step.record? config root) ++
    match run.result config root with
    | .ok _ => []
    | .error error => [error.record]

end Run

/-- Validates a value under the given settings; the text of the root stands in front of every
place. -/
def Validator.validateWith (validator : Validator) (config : Config) (root : String) (raw : Value) :
    Except ValidationError Value :=
  (validator.run config.maxDepth raw).result config root

/-- Validates a value under the default settings. -/
def Validator.validate (validator : Validator) (root : String) (raw : Value) :
    Except ValidationError Value :=
  validator.validateWith {} root raw

end Conform
