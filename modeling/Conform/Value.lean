import Conform.Map
import Conform.Timestamp

/-!
# Values

The data that come in with an unknown shape and go out in a known one.  A value is a tree of
scalars, sequences and mappings.  Its mappings come from readers and from this library with
distinct keys at every level, which `Value.WellFormed` says.

Equality (`Value.beq`) is keyed: two mappings are equal when they have the same keys with equal
values, in whatever order.  Floats compare as numbers do, so nothing that holds a NaN equals itself
and the two zeros are equal; values of different tags are never equal.
-/

namespace Conform

/-- Any datum. -/
inductive Value where
  | string (text : String)
  | integer (number : Int64)
  | float (number : Float)
  | boolean (truth : Bool)
  | null
  | sequence (items : List Value)
  | mapping (map : Map Value)
  | timestamp (stamp : Timestamp)

/-- What sort of datum a value is. -/
inductive Tag where
  | string | integer | float | boolean | null | array | object | datetime
deriving DecidableEq, Repr

/-- The name of a tag in messages. -/
def Tag.name : Tag → String
  | .string => "string"
  | .integer => "integer"
  | .float => "float"
  | .boolean => "boolean"
  | .null => "null"
  | .array => "array"
  | .object => "object"
  | .datetime => "datetime"

namespace Value

instance : Inhabited Value := ⟨null⟩

/-- The tag of a value. -/
def tag : Value → Tag
  | string _ => .string
  | integer _ => .integer
  | float _ => .float
  | boolean _ => .boolean
  | null => .null
  | sequence _ => .array
  | mapping _ => .object
  | timestamp _ => .datetime

/-! ## Views -/

/-- The text of a string. -/
def string? : Value → Option String
  | string text => some text
  | _ => none

/-- The number of an integer. -/
def integer? : Value → Option Int64
  | integer number => some number
  | _ => none

/-- The float nearest to an integer, ties to even. -/
def widen (number : Int64) : Float := Float.ofInt number.toInt

/-- The number of an integer or a float, as a float. -/
def number? : Value → Option Float
  | integer number => some (widen number)
  | float number => some number
  | _ => none

/-- The truth of a boolean. -/
def boolean? : Value → Option Bool
  | boolean truth => some truth
  | _ => none

/-- The items of a sequence. -/
def sequence? : Value → Option (List Value)
  | sequence items => some items
  | _ => none

/-- The entries of a mapping. -/
def mapping? : Value → Option (Map Value)
  | mapping map => some map
  | _ => none

/-- The timestamp of a date and time. -/
def timestamp? : Value → Option Timestamp
  | timestamp stamp => some stamp
  | _ => none

/-- Whether a value is null. -/
def isNull : Value → Bool
  | null => true
  | _ => false

/-- The value under a key of a mapping. -/
def get? (value : Value) (key : String) : Option Value := value.mapping?.bind (·.get? key)

/-! ## Equality -/

mutual

/-- Keyed equality. -/
def beq : Value → Value → Bool
  | string a, string b => a == b
  | integer a, integer b => a == b
  | float a, float b => a == b
  | boolean a, boolean b => a == b
  | null, null => true
  | sequence as, sequence bs => beqItems as bs
  | mapping ⟨as⟩, mapping ⟨bs⟩ => as.length == bs.length && beqEntries as bs
  | timestamp a, timestamp b => a == b
  | _, _ => false

/-- Equality item by item. -/
def beqItems : List Value → List Value → Bool
  | [], [] => true
  | a :: as, b :: bs => beq a b && beqItems as bs
  | _, _ => false

/-- Whether every entry on the left has its key on the right with an equal value. -/
def beqEntries : List (String × Value) → List (String × Value) → Bool
  | [], _ => true
  | (key, a) :: as, bs =>
    (match Map.lookup key bs with
      | some b => beq a b
      | none => false) && beqEntries as bs

end

instance : BEq Value := ⟨beq⟩

/-! ## Distinct keys at every level -/

mutual

/-- Every mapping in the value has distinct keys. -/
def WellFormed : Value → Prop
  | sequence items => WellFormedItems items
  | mapping ⟨entries⟩ => (entries.map Prod.fst).Nodup ∧ WellFormedEntries entries
  | _ => True

/-- All items are well formed. -/
def WellFormedItems : List Value → Prop
  | [] => True
  | item :: items => item.WellFormed ∧ WellFormedItems items

/-- All values of the entries are well formed. -/
def WellFormedEntries : List (String × Value) → Prop
  | [] => True
  | (_, value) :: entries => value.WellFormed ∧ WellFormedEntries entries

end

theorem wellFormedItems_iff (items : List Value) :
    WellFormedItems items ↔ ∀ item ∈ items, item.WellFormed := by
  induction items with
  | nil => simp [WellFormedItems]
  | cons item items ih => simp [WellFormedItems, ih]

theorem wellFormedEntries_iff (entries : List (String × Value)) :
    WellFormedEntries entries ↔ ∀ entry ∈ entries, entry.2.WellFormed := by
  induction entries with
  | nil => simp [WellFormedEntries]
  | cons entry entries ih => simp [WellFormedEntries, ih]

end Value

end Conform
