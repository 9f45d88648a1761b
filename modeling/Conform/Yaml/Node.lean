/-!
# Tags, tokens and nodes

What a YAML text is read into, in the order of reading: the tokens that its letters come to, and the
nodes that the tokens are put together to.  Both carry tags, which name types.
-/

namespace Conform.Yaml

/-! ## Tags

A tag names the type of a node.  The types of YAML itself have names under a stem of their own; a
name that starts with an exclamation mark belongs to the document, and means something only to
whoever asked for it.  A zero byte ends a name, whatever follows it. -/

/-- The name of a type, as bytes, because its escapes may spell any bytes. -/
structure Tag where
  bytes : List UInt8
deriving DecidableEq, Repr

/-- The type that a tag names. -/
inductive TypeName where
  | boolean
  | integer
  | float
  | null
  /-- A type of the document, by its name without the exclamation mark. -/
  | own (name : String)
  /-- Any other type; of a scalar it makes a string. -/
  | foreign
deriving DecidableEq, Repr

namespace Tag

/-- The tag that a text spells. -/
def ofString (text : String) : Tag := ⟨text.toUTF8.toList⟩

/-- The tag of some bytes, up to the first that is zero. -/
def ofBytes (bytes : List UInt8) : Tag := ⟨bytes.takeWhile (· ≠ 0)⟩

/-- A tag continued by another. -/
def append (stem suffix : Tag) : Tag := ⟨stem.bytes ++ suffix.bytes⟩

/-- The exclamation mark alone, which names the type of the document that has no name. -/
def bare : Tag := ofString "!"

/-- The stem of the types of YAML itself. -/
def core : Tag := ofString "tag:yaml.org,2002:"

/-- The text that bytes spell, if they spell one. -/
def text? (bytes : List UInt8) : Option String := String.fromUTF8? ⟨bytes.toArray⟩

/-- The type that a tag names; a tag of the document that spells no text names none. -/
def typeName? (tag : Tag) : Option TypeName :=
  if tag.bytes.head? = some '!'.toUInt8 then (text? tag.bytes.tail).map .own
  else if tag = core.append (ofString "bool") then some .boolean
  else if tag = core.append (ofString "int") then some .integer
  else if tag = core.append (ofString "float") then some .float
  else if tag = core.append (ofString "null") then some .null
  else some .foreign

end Tag

/-! ## The tokens of a YAML text

What the letters of a text come to before they are put together to nodes.  Collections in block
style have no closing mark in the text; their ends, and the starts of mappings and their keys, are
tokens that the indentation and the colons stand for. -/

/-- How a scalar is written. -/
inductive Style where
  | plain
  | quoted
  | literal
  | folded
deriving DecidableEq, Repr

/-- A token. -/
inductive Token where
  /-- A directive that says which version of YAML the document is written in. -/
  | version (major minor : Nat)
  /-- A directive that says what the handle of a tag is short for. -/
  | shorthand (handle : String) (stem : Tag)
  | documentStart
  | documentEnd
  | blockSequence
  | blockMapping
  | blockEnd
  | flowSequence
  | flowSequenceEnd
  | flowMapping
  | flowMappingEnd
  /-- The mark of an item in block style. -/
  | entry
  | comma
  | key
  | value
  /-- The anchor of the node that follows, by the number of its name. -/
  | anchor (number : Nat)
  /-- A node that repeats the one with an anchor. -/
  | reference (number : Nat)
  /-- A tag: the handle, which is empty when the tag is written out, and the rest of it. -/
  | tag (handle : String) (suffix : Tag)
  | scalar (style : Style) (content : String)
deriving DecidableEq, Repr

/-! ## Nodes

What a YAML text describes before the types of its scalars are decided: a tree in which a node may
carry an anchor and be repeated elsewhere by an alias. -/

/-- What may be said of a node in front of it. -/
structure Properties where
  /-- The number of its anchor. -/
  anchor : Option Nat := none
  type : Option TypeName := none
deriving DecidableEq, Repr

/-- A node. -/
inductive Node where
  /-- The node that has the anchor of this number. -/
  | reference (number : Nat)
  | scalar (properties : Properties) (style : Style) (content : String)
  | sequence (properties : Properties) (items : List Node)
  | mapping (properties : Properties) (members : List (Node × Node))

namespace Node

/-- What stands where nothing was written. -/
def empty : Node := scalar {} .plain ""

instance : Inhabited Node := ⟨empty⟩

/-! ### Size -/

mutual

/-- The size of a node: one for each alias and scalar in it, and two for each collection. -/
def size : Node → Nat
  | reference _ | scalar .. => 1
  | sequence _ items => 2 + sizeItems items
  | mapping _ members => 2 + sizeMembers members

/-- The size of all items. -/
def sizeItems : List Node → Nat
  | [] => 0
  | item :: items => item.size + sizeItems items

/-- The size of all keys and values. -/
def sizeMembers : List (Node × Node) → Nat
  | [] => 0
  | (key, value) :: members => key.size + value.size + sizeMembers members

end

/-! ### Anchors -/

/-- Notes the anchor of a node, if it has one. -/
def note : Option Nat → Node → List (Nat × Node) → List (Nat × Node)
  | none, _, found => found
  | some number, node, found => (number, node) :: found

mutual

/-- The nodes that have anchors, in the order in which they start, behind those found before. -/
def anchored : Node → List (Nat × Node) → List (Nat × Node)
  | reference _, found => found
  | scalar properties style content, found =>
    note properties.anchor (scalar properties style content) found
  | sequence properties items, found =>
    anchoredItems items (note properties.anchor (sequence properties items) found)
  | mapping properties members, found =>
    anchoredMembers members (note properties.anchor (mapping properties members) found)

/-- The nodes with anchors among items. -/
def anchoredItems : List Node → List (Nat × Node) → List (Nat × Node)
  | [], found => found
  | item :: items, found => anchoredItems items (item.anchored found)

/-- The nodes with anchors among keys and values. -/
def anchoredMembers : List (Node × Node) → List (Nat × Node) → List (Nat × Node)
  | [], found => found
  | (key, value) :: members, found =>
    anchoredMembers members (value.anchored (key.anchored found))

end

end Node

end Conform.Yaml
