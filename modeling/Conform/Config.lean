import Conform.Misconfiguration
import Conform.Text

/-!
# Settings

How deep a value may nest, and how much a refused choice says about its alternatives.  Settings
start from defaults and may be overridden by variables of the environment.  An override is applied
variable by variable; one that makes no sense is reported, and those before it stay applied.
-/

namespace Conform

/-- How a choice reports that no alternative accepts a value. -/
inductive UnionErrors where
  /-- One sentence. -/
  | summary
  /-- The sentence and the failure of every alternative. -/
  | detailed
deriving DecidableEq, Repr

namespace UnionErrors

/-- The word for a way of reporting. -/
def name : UnionErrors → String
  | summary => "summary"
  | detailed => "detailed"

/-- All ways of reporting. -/
def all : List UnionErrors := [summary, detailed]

/-- The way of reporting that a word names. -/
def ofName? (word : String) : Option UnionErrors := all.find? fun reporting => reporting.name = word

/-- The way of reporting that a text names, in either case and with white space around it. -/
def parse (text : String) : Except Misconfiguration UnionErrors :=
  let word := String.ofList ((Text.trim text.toList).map Char.toLower)
  match ofName? word with
  | some reporting => .ok reporting
  | none => .error (.unknownReporting word)

end UnionErrors

/-- The settings of a validation. -/
structure Config where
  /-- How many steps down a value may be followed. -/
  maxDepth : Nat := 128
  unionErrors : UnionErrors := .detailed
deriving DecidableEq, Repr

instance : Inhabited Config := ⟨{}⟩

/-- Counts are kept below this bound. -/
def countBound : Nat := UInt64.size

/-- A count with one more digit, which must keep it in bounds. -/
def appendDigit (count : Nat) (c : Char) : Except CountFault Nat :=
  if c.isDigit then
    let longer := count * 10 + (c.toNat - '0'.toNat)
    if longer < countBound then .ok longer else .error .tooLarge
  else .error .invalidDigit

/-- Reads a count: digits, with a plus before them or not, whose value is in bounds.  The first
fault from the left is reported. -/
def parseCount (text : List Char) : Except CountFault Nat :=
  let digits := match text with
    | '+' :: digits => digits
    | digits => digits
  if text.isEmpty then .error .empty
  else if digits.isEmpty then .error .invalidDigit
  else digits.foldlM appendDigit 0

namespace Config

/-- The variable that overrides the depth. -/
def depthVariable : String := "SPECADO_COERCE_MAX_DEPTH"

/-- The variable that overrides the reporting. -/
def reportingVariable : String := "SPECADO_COERCE_UNION_ERRORS"

/-- A change of settings that may be refused half way. -/
abbrev Change := ExceptT Misconfiguration (StateM Config)

/-- Sets the depth to what a text says. -/
def setDepth (text : String) : Change Unit :=
  match parseCount (Text.trim text.toList) with
  | .ok depth => modify fun config => { config with maxDepth := depth }
  | .error fault => throw (.malformedCount depthVariable text fault)

/-- Sets the reporting to what a text says. -/
def setReporting (text : String) : Change Unit :=
  match UnionErrors.parse text with
  | .ok reporting => modify fun config => { config with unionErrors := reporting }
  | .error fault => throw fault

/-- Applies what the variables say, the depth before the reporting. -/
def override (lookup : String → Option String) : Change Unit := do
  if let some text := lookup depthVariable then setDepth text
  if let some text := lookup reportingVariable then setReporting text

/-- Settings with the variables applied, if all of them make sense. -/
def overriddenBy (lookup : String → Option String) (config : Config) :
    Except Misconfiguration Config :=
  match (override lookup).run config with
  | (.ok (), changed) => .ok changed
  | (.error fault, _) => .error fault

end Config

end Conform
