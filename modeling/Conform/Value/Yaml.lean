import Conform.Error
import Conform.Value.Json
import Conform.Yaml.Document
import Conform.Yaml.Resolution

/-!
# Values from YAML

A YAML text is read as the value of its JSON tree.  In that tree aliases are followed, scalars have
taken their types, and the keys of mappings are the texts of scalars.  A key that comes again takes
the later value and keeps its first place.  A tag of the document's own means nothing here and is
refused.

An alias repeats a node, so a small document may describe a large tree.  Two limits hold: how deep
collections nest, which also stops an alias inside the node that it repeats, and how many aliases
are followed on the whole, which is in proportion to the size of the document.
-/

namespace Conform.Yaml

/-- How deep collections may nest. -/
def depthLimit : Nat := 128

/-- How many aliases may be followed for each unit of the size of a document. -/
def aliasesPerSize : Nat := 100

/-- A reading of a part of a document, with the number of aliases that may still be followed. -/
abbrev Part := StateT Nat Option

/-- Follows an alias; every other node is itself. -/
def Document.follow (document : Document) : Node → Part Node
  | .reference number => do
    match ← get with
    | 0 => failure
    | remaining + 1 =>
      set remaining
      document.anchor? number
  | node => return node

/-- The text of a node that is a key. -/
def Document.key (document : Document) (node : Node) : Part String := do
  match ← document.follow node with
  | .scalar _ _ content => return content
  | _ => failure

/-- Refuses a tag of the document's own. -/
def refuseOwn (properties : Properties) : Part Unit :=
  match properties.type with
  | some (.own _) => failure
  | _ => return ()

/-- The JSON tree of a node, whose collections may nest to a depth. -/
def Document.tree (document : Document) (depth : Nat) (node : Node) : Part Json := do
  match ← document.follow node with
  | .reference _ => failure
  | .scalar properties style content => scalar? properties.type style content
  | .sequence properties items =>
    refuseOwn properties
    match depth with
    | 0 => failure
    | depth + 1 => return .array (← items.mapM (document.tree depth))
  | .mapping properties members =>
    refuseOwn properties
    match depth with
    | 0 => failure
    | depth + 1 =>
      let members ← members.mapM fun (key, value) =>
        return (← document.key key, ← document.tree depth value)
      return .object (.ofList members)

/-- The JSON tree of a document. -/
def Document.toJson? (document : Document) : Option Json :=
  (document.tree depthLimit document.root).run' (aliasesPerSize * document.root.size)

/-- The JSON tree that a text describes; a text that holds nothing is null. -/
def parse? (text : String) : Option Json := do
  match ← Document.parse? text with
  | none => return .null
  | some document => document.toJson?

end Conform.Yaml

namespace Conform.Value

/-- Reads the value that a YAML text describes. -/
def parseYaml (text : String) : Except Error Value :=
  match Yaml.parse? text with
  | some json => .ok (ofJson json)
  | none => .error .yaml

end Conform.Value
