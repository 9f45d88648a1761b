/-!
# Wrong settings and malformed validators

What can be wrong before any value is looked at.
-/

namespace Conform

/-- Why a text is no count. -/
inductive CountFault where
  | empty
  | invalidDigit
  | tooLarge
deriving DecidableEq, Repr

/-- The wording of a count fault. -/
def CountFault.message : CountFault → String
  | empty => "cannot parse integer from empty string"
  | invalidDigit => "invalid digit found in string"
  | tooLarge => "number too large to fit in target type"

/-- A validator that cannot be built, or a setting that makes no sense. -/
inductive Misconfiguration where
  | emptyUnion
  | duplicateField (name : String)
  | malformedCount (setting text : String) (fault : CountFault)
  | unknownReporting (word : String)
  /-- A fault that a caller words itself. -/
  | other (message : String)
deriving DecidableEq, Repr

namespace Misconfiguration

/-- The wording of a misconfiguration. -/
def message : Misconfiguration → String
  | emptyUnion => "union requires at least one alternative"
  | duplicateField name => "duplicate schema field '" ++ name ++ "'"
  | malformedCount setting text _ => "invalid " ++ setting ++ " value '" ++ text ++ "'"
  | unknownReporting word =>
    "unknown union error reporting '" ++ word ++ "', expected 'summary' or 'detailed'"
  | other message => message

/-- The fault underneath a misconfiguration, if there is one. -/
def source? : Misconfiguration → Option CountFault
  | malformedCount _ _ fault => some fault
  | _ => none

end Misconfiguration

end Conform
