import Conform.Json
import Conform.Text
import Conform.Yaml.Node

/-!
# The types of scalars

A plain scalar without a tag means null, a truth value, a number, or else a string, as its text
decides; a scalar written in another way is a string.  A tag of one of the types of YAML makes the
text of a scalar, however written, be read as that type or be refused.
-/

namespace Conform.Yaml

/-! ## Null and truth values -/

/-- Whether a text is a word for null. -/
def isNullWord (text : String) : Bool := ["null", "Null", "NULL", "~"].contains text

/-- The truth value a text stands for. -/
def truth? (text : String) : Option Bool :=
  if ["true", "True", "TRUE"].contains text then some true
  else if ["false", "False", "FALSE"].contains text then some false
  else none

/-! ## Integers -/

/-- Whether a text starts with a sign. -/
def isSigned (text : List Char) : Bool := text.head?.any fun c => c = '+' || c = '-'

/-- The text without a plus at its front. -/
def withoutPlus : List Char → List Char
  | '+' :: text => text
  | text => text

/-- The digits of a number in a base: at least one, and each less than the base. -/
def digits? (base : Nat) (text : List Char) : Option Nat :=
  if text.isEmpty then none
  else text.foldlM (fun number c =>
    ((Text.hexDigit? c).filter (· < base)).map (number * base + ·)) 0

/-- The base that letters at the front of a number announce, and the digits after them. -/
def based? : List Char → Option (Nat × List Char)
  | '0' :: 'x' :: digits => some (16, digits)
  | '0' :: 'o' :: digits => some (8, digits)
  | '0' :: 'b' :: digits => some (2, digits)
  | _ => none

/-- The number that a text without a sign spells, in the base it announces or in base ten. -/
def natural? (text : List Char) : Option Nat :=
  match based? text with
  | some (base, digits) => digits? base digits
  | none => digits? 10 text

/-- Whether a text is digits after a zero, with a sign or not; such a text is no number. -/
def isZeroPadded (text : List Char) : Bool :=
  let digits := if isSigned text then text.tail else text
  digits.length > 1 && digits.head? = some '0' && digits.all Char.isDigit

/-- The integer that a text spells, of whatever size. -/
def integer? (text : List Char) : Option Int :=
  if isZeroPadded text then none
  else
    match text with
    | '-' :: text => (natural? text).map fun number => -(number : Int)
    | text => (natural? (withoutPlus text)).map Int.ofNat

/-- What a text that may be an integer comes to. -/
inductive Whole where
  /-- A number of at most 64 bits, signed or not. -/
  | fits (number : Int)
  /-- A number of at most 128 bits, which is refused. -/
  | refused
  /-- No number, or one too large to be taken for an integer. -/
  | other
deriving DecidableEq, Repr

/-- Sorts an integer by its size. -/
def Whole.ofInt (number : Int) : Whole :=
  let wide : Nat := UInt64.size * UInt64.size
  if Word.fits number ∨ (0 ≤ number ∧ number < UInt64.size) then .fits number
  else if -wide ≤ 2 * number ∧ number < wide then .refused
  else .other

/-- Reads a text as an integer. -/
def Whole.ofChars (text : List Char) : Whole := (integer? text).elim .other .ofInt

/-! ## Floats -/

/-- Whether a text is a word for an infinity or for no number. -/
def isEndless (text : List Char) : Bool :=
  let signless := if isSigned text then text.tail else text
  [".inf", ".Inf", ".INF"].contains (String.ofList signless) ||
    [".nan", ".NaN", ".NAN"].contains (String.ofList text)

/-- The float a text stands for; what is not finite is null. -/
def float? (text : List Char) : Option Json :=
  if isEndless text then some .null
  else if text.head? = some '+' && isSigned text.tail then none
  else (Decimal.Literal.ofChars? text).bind fun literal =>
    if literal.toFloat.isFinite then some (.float literal.toFloat) else none

/-! ## Scalars -/

/-- What a plain scalar without a tag stands for. -/
def resolve? (content : String) : Option Json :=
  if content = "" || isNullWord content then some .null
  else
    match truth? content with
    | some truth => some (.boolean truth)
    | none =>
      match Whole.ofChars content.toList with
      | .fits number => some (.integer number)
      | .refused => none
      | .other =>
        if isZeroPadded content.toList then some (.string content)
        else some ((float? content.toList).getD (.string content))

/-- What a scalar stands for. -/
def scalar? (type : Option TypeName) (style : Style) (content : String) : Option Json :=
  match type with
  | none => if style = .plain then resolve? content else some (.string content)
  | some .boolean => (truth? content).map .boolean
  | some .integer =>
    match Whole.ofChars content.toList with
    | .fits number => some (.integer number)
    | _ => none
  | some .float => float? content.toList
  | some .null => if isNullWord content then some .null else none
  | some .foreign => some (.string content)
  | some (.own _) => none

end Conform.Yaml
