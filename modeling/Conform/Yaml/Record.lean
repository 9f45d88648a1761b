import Conform.Record
import Conform.Yaml.Document
import Conform.Yaml.Resolution

/-!
# Reading a record from YAML

A record stands in a YAML text as a mapping of its fields, in any order and among others that are
passed over.  A text that holds nothing, or an empty plain scalar, is a record without fields.
-/

namespace Conform.Yaml

namespace Document

/-- The node that a node is or repeats. -/
def resolved? (document : Document) : Node → Option Node
  | .reference number => document.anchor? number
  | node => some node

/-! ## Fields -/

/-- The text of a scalar. -/
def text? (document : Document) (node : Node) : Option String := do
  match ← document.resolved? node with
  | .scalar _ _ content => return content
  | _ => none

/-- The count that a scalar spells, which is plain, or literal and said to be an integer. -/
def count? (document : Document) (node : Node) : Option Nat := do
  match ← document.resolved? node with
  | .scalar properties style content =>
    if style = .plain || style = .literal && properties.type = some .integer then
      match content.toList, Whole.ofChars content.toList with
      | '-' :: _, _ => none
      | _, .fits (.ofNat count) => return count
      | _, _ => none
    else none
  | _ => none

/-- The word of a node: the text of a scalar, or the tag of the document's own that stands before a
null. -/
def word? (document : Document) (node : Node) : Option String := do
  match ← document.resolved? node with
  | .scalar properties style content =>
    match properties.type with
    | some (.own name) =>
      if style = .plain && (content = "" || isNullWord content) then return name else none
    | _ => return content
  | _ => none

/-- Reads what a field may hold. -/
def entry? (document : Document) : Slot → Node → Option Entry
  | .text, node => (document.text? node).map .text
  | .count, node => (document.count? node).map .count
  | .word options, node =>
    ((document.word? node).filter options.contains).map .text

/-! ## Records -/

/-- Reads the fields of a record in a mapping.  No field may be given twice. -/
def members? (document : Document) (layout : Layout) (members : List (Node × Node)) :
    Option (Map Entry) :=
  members.foldlM (fun found (key, value) => do
    let name ← document.text? key
    match layout.slot? name with
    | none => return found
    | some slot =>
      if found.contains name then none
      else return found.insert name (← document.entry? slot value)) .empty

/-- Reads the fields of a record that is a node. -/
def record? (document : Document) (layout : Layout) (node : Node) : Option (Map Entry) := do
  match ← document.resolved? node with
  | .mapping _ members => document.members? layout members
  | .scalar _ style content => if style = .plain && content = "" then return .empty else none
  | .sequence .. | .reference _ => none

end Document

/-- Reads the record that a text describes, with all the fields that it must have. -/
def parseRecord? (layout : Layout) (text : String) : Option (Map Entry) := do
  let found ←
    match ← Document.parse? text with
    | none => some .empty
    | some document => document.record? layout document.root
  if (layout.missing? found).isNone then return found else none

end Conform.Yaml
