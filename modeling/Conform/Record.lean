import Conform.Map

/-!
# Records of fixed fields

Settings and errors are kept in files as small records: fields of known names that hold a text, a
count, or one of a few words.  A layout says which; a reader of a file format takes a layout and
answers the fields it found.
-/

namespace Conform

/-- What a field of a record may hold. -/
inductive Slot where
  | text
  | count
  | word (options : List String)
deriving DecidableEq, Repr

/-- What a field of a record holds. -/
inductive Entry where
  | text (text : String)
  | count (number : Nat)
deriving DecidableEq, Repr

namespace Entry

/-- The text or word of an entry. -/
def text? : Entry → Option String
  | .text content => some content
  | .count _ => none

/-- The count of an entry. -/
def count? : Entry → Option Nat
  | .text _ => none
  | .count number => some number

end Entry

/-- The fields of a record, in order, and whether all of them must be there. -/
structure Layout where
  name : String
  fields : List (String × Slot)
  required : Bool
deriving Repr

namespace Layout

/-- What a field of the record may hold. -/
def slot? (layout : Layout) (name : String) : Option Slot := Map.lookup name layout.fields

/-- The first field, in the order of the layout, that must be there and is not. -/
def missing? (layout : Layout) (found : Map Entry) : Option String :=
  if layout.required then
    (layout.fields.map Prod.fst).find? fun name => !found.contains name
  else none

end Layout

end Conform
