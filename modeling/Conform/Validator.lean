import Conform.Coercion
import Conform.Misconfiguration

/-!
# Validators

A validator is a tree that says which values are wanted: scalars of a kind, records with named
fields, values that also meet constraints, sequences of one sort of item, or a choice.

The constructors of the type build any tree.  `Validator.schema`, `Validator.trySchema` and
`Validator.union` are for callers: they keep the names of a record distinct and refuse an empty
choice.
-/

namespace Conform

/-- A named test on values; the name is what is reported when it fails. -/
structure Constraint where
  message : String
  holds : Value → Bool

mutual

/-- A rule that says which values are wanted. -/
inductive Validator where
  /-- A scalar of a kind. -/
  | primitive (kind : Kind)
  /-- A mapping with these fields, and what may stand beside them. -/
  | record (fields : List Field) (extra : Extra)
  /-- What the base accepts, if it also meets the constraints. -/
  | subtype (base : Validator) (constraints : List Constraint)
  /-- A sequence whose items are all accepted by one validator. -/
  | array (element : Validator)
  /-- What the first of the alternatives that accepts a value makes of it. -/
  | choice (alternatives : List Validator)

/-- A field of a record. -/
structure Field where
  name : String
  validator : Validator
  optional : Bool

/-- What becomes of the keys that a record does not declare. -/
inductive Extra where
  /-- They are refused. -/
  | closed
  /-- They are left out. -/
  | ignored
  /-- They are kept when their values are accepted. -/
  | typed (validator : Validator)

end

instance : Inhabited Validator := ⟨.primitive .any⟩

/-- What sort of validator a tree is at its root. -/
inductive Shape where
  | primitive (kind : Kind)
  | schema
  | subtype
  | array
  | union
deriving DecidableEq, Repr

/-- The name of a shape in messages. -/
def Shape.name : Shape → String
  | primitive kind => kind.name
  | schema => "schema"
  | subtype => "subtype"
  | array => "array"
  | union => "union"

/-- The shape of a validator. -/
def Validator.shape : Validator → Shape
  | primitive kind => .primitive kind
  | record _ _ => .schema
  | subtype _ _ => .subtype
  | array _ => .array
  | choice _ => .union

/-! ## Field lists -/

namespace Field

/-- The first field of each name, in order. -/
def firsts : List Field → List Field
  | [] => []
  | field :: fields => field :: (firsts fields).filter fun other => other.name ≠ field.name

/-- The names of the fields that are not the first of their name, in order, once for each such
field, when the names in `seen` have come before. -/
def repeatsAfter (seen : List String) : List Field → List String
  | [] => []
  | field :: fields =>
    if field.name ∈ seen then field.name :: repeatsAfter seen fields
    else repeatsAfter (field.name :: seen) fields

/-- The names of the fields that are not the first of their name. -/
def repeats (fields : List Field) : List String := repeatsAfter [] fields

end Field

/-! ## Building validators -/

namespace Validator

/-- A record with the first field of each name. -/
def schema (fields : List Field) (extra : Extra) : Validator := record (Field.firsts fields) extra

/-- A record, if no name comes twice. -/
def trySchema (fields : List Field) (extra : Extra) : Except Misconfiguration Validator :=
  match Field.repeats fields with
  | [] => .ok (record fields extra)
  | name :: _ => .error (.duplicateField name)

/-- A choice of at least one alternative. -/
def union : List Validator → Except Misconfiguration Validator
  | [] => .error .emptyUnion
  | alternatives => .ok (choice alternatives)

end Validator

end Conform
