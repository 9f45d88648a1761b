import Conform.Error
import Conform.Json.Record
import Conform.Yaml.Record

/-!
# Settings in files

Settings are kept in files as a record, in which a field that is absent leaves its default.  A file
holds it in YAML when its name ends in `.yaml` or `.yml`, and in JSON otherwise.  Variables of the
environment override what the file says.
-/

namespace Conform.Config

/-! ## Settings as a record -/

/-- The fields of settings. -/
def layout : Layout where
  name := "ValidationConfig"
  fields := [("max_depth", .count), ("union_errors", .word (UnionErrors.all.map UnionErrors.name))]
  required := false

/-- The settings a record holds. -/
def ofRecord (found : Map Entry) : Config :=
  let depth := (found.get? "max_depth").bind Entry.count?
  let reporting := ((found.get? "union_errors").bind Entry.text?).bind UnionErrors.ofName?
  let default : Config := {}
  ⟨depth.getD default.maxDepth, reporting.getD default.unionErrors⟩

/-- The JSON tree of settings. -/
def toJson (config : Config) : Json :=
  .object ⟨[("max_depth", .integer config.maxDepth),
    ("union_errors", .string config.unionErrors.name)]⟩

/-! ## Reading settings -/

/-- What follows the last point of a file name; a point at its very start does not count. -/
def extension? (name : String) : Option String :=
  let reversed := name.toList.reverse
  match reversed.span (· ≠ '.') with
  | (ending, _ :: _ :: _) => some (String.ofList ending.reverse)
  | _ => none

/-- Whether a file name announces YAML. -/
def isYamlName (name : String) : Bool :=
  extension? name = some "yaml" || extension? name = some "yml"

/-- Reads the settings in a text. -/
def parse (yaml : Bool) (text : String) : Except Error Config :=
  if yaml then
    match Yaml.parseRecord? layout text with
    | some found => .ok (ofRecord found)
    | none => .error .yaml
  else ((Json.parseRecord layout text).mapError .json).map ofRecord

/-- Reads the settings in a file, given its name and its bytes if there is such a file. -/
def ofFile (name : String) (content : Option ByteArray) : Except Error Config :=
  match content with
  | none => .error (.io "no such file")
  | some bytes =>
    match String.fromUTF8? bytes with
    | some text => parse (isYamlName name) text
    | none => .error (.io "stream did not contain valid UTF-8")

/-- The defaults with the variables applied. -/
def fromEnvironment (lookup : String → Option String) : Except Error Config :=
  (overriddenBy lookup {}).mapError .configuration

/-- The settings of a file with the variables applied. -/
def load (name : String) (content : Option ByteArray) (lookup : String → Option String) :
    Except Error Config := do
  let config ← ofFile name content
  (overriddenBy lookup config).mapError .configuration

end Conform.Config
