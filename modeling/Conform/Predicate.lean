import Conform.Validator

/-!
# Predicates

Tests on values that can be written down, for constraints that come from outside the program.  A
predicate that asks for what its value does not have, such as the number of a string, does not hold.
-/

namespace Conform

/-! ## Comparisons -/

/-- The six ways to compare. -/
inductive Comparison where
  | lt | le | eq | ne | ge | gt
deriving DecidableEq, Repr

namespace Comparison

/-- The comparison of a name; a name that is none of the other five stands for the last. -/
def ofName : String → Comparison
  | "lt" => lt
  | "le" => le
  | "eq" => eq
  | "ne" => ne
  | "ge" => ge
  | _ => gt

/-- A comparison by the three relations that decide it.  None of them need follow from the others:
what is not a number is neither below, equal to, nor above anything. -/
def holds {α : Type} (below atMost equal : α → α → Bool) (a b : α) : Comparison → Bool
  | lt => below a b
  | le => atMost a b
  | eq => equal a b
  | ne => !equal a b
  | ge => atMost b a
  | gt => below b a

/-- Compares integers. -/
def integers (comparison : Comparison) (a b : Int) : Bool :=
  comparison.holds (fun a b => decide (a < b)) (fun a b => decide (a ≤ b)) (· == ·) a b

/-- Compares counts. -/
def counts (comparison : Comparison) (a b : Nat) : Bool :=
  comparison.integers a b

/-- Compares floats as numbers. -/
def floats (comparison : Comparison) (a b : Float) : Bool :=
  comparison.holds (fun a b => decide (a < b)) (fun a b => decide (a ≤ b)) (· == ·) a b

/-- Compares texts by their first different character. -/
def texts (comparison : Comparison) (a b : String) : Bool :=
  comparison.holds (fun a b => decide (a < b)) (fun a b => decide (a ≤ b)) (· == ·) a b

end Comparison

/-! ## Predicates -/

/-- A test on values. -/
inductive Predicate where
  | const (truth : Bool)
  | typeName (name : String)
  | null
  | integer (comparison : Comparison) (bound : Int)
  | remainder (modulus rest : Int)
  | number (comparison : Comparison) (bound : Float)
  | boolean (truth : Bool)
  | string (comparison : Comparison) (bound : String)
  | startsWith (start : String)
  | characters (comparison : Comparison) (bound : Nat)
  | items (comparison : Comparison) (bound : Nat)
  | keys (comparison : Comparison) (bound : Nat)
  | has (key : String)
  | get (key : String) (inner : Predicate)
  | every (inner : Predicate)
  | year (comparison : Comparison) (bound : Int)
  | offset (seconds : Option Int)
  | equal (value : Value)
  | not (inner : Predicate)
  | and (parts : List Predicate)
  | or (parts : List Predicate)

namespace Predicate

mutual

/-- Whether a predicate holds of a value. -/
def holds : Predicate → Value → Bool
  | const truth, _ => truth
  | typeName name, value => value.tag.name == name
  | null, value => value.isNull
  | integer comparison bound, value =>
    value.integer?.any fun number => comparison.integers number.toInt bound
  | remainder modulus rest, value =>
    value.integer?.any fun number => number.toInt.tmod modulus == rest
  | number comparison bound, value =>
    value.number?.any fun number => comparison.floats number bound
  | boolean truth, value => value.boolean?.any (· == truth)
  | string comparison bound, value => value.string?.any fun text => comparison.texts text bound
  | startsWith start, value =>
    value.string?.any fun text => start.toList.isPrefixOf text.toList
  | characters comparison bound, value =>
    value.string?.any fun text => comparison.counts text.length bound
  | items comparison bound, value =>
    value.sequence?.any fun items => comparison.counts items.length bound
  | keys comparison bound, value =>
    value.mapping?.any fun map => comparison.counts map.size bound
  | has key, value => value.mapping?.any (·.contains key)
  | get key inner, value => (value.get? key).any inner.holds
  | every inner, value => value.sequence?.any (·.all inner.holds)
  | year comparison bound, value =>
    value.timestamp?.any fun stamp => comparison.integers stamp.wall.date.year bound
  | offset seconds, value =>
    value.timestamp?.any fun stamp => stamp.offset.map Offset.seconds == seconds
  | equal other, value => value.beq other
  | not inner, value => !inner.holds value
  | and parts, value => holdsAll parts value
  | or parts, value => holdsAny parts value

/-- Whether all predicates hold of a value. -/
def holdsAll : List Predicate → Value → Bool
  | [], _ => true
  | part :: parts, value => part.holds value && holdsAll parts value

/-- Whether one of the predicates holds of a value. -/
def holdsAny : List Predicate → Value → Bool
  | [], _ => false
  | part :: parts, value => part.holds value || holdsAny parts value

end

/-- The constraint that tests a predicate. -/
def constraint (message : String) (predicate : Predicate) : Constraint :=
  ⟨message, predicate.holds⟩

end Predicate

end Conform
