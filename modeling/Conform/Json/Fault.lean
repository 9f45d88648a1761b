/-!
# What can be wrong with a JSON text

A fault is a cause and a place.  The place is kept as what was still to be read when the fault was
found, and how many bytes beyond its start the fault lies; line and column are worked out from the
whole text when the fault is reported.
-/

namespace Conform.Json

/-- Why a text is not the JSON that was asked for. -/
inductive Cause where
  | endInList
  | endInObject
  | endInString
  | endInValue
  | colonExpected
  | commaOrBracketExpected
  | commaOrBraceExpected
  | wordExpected
  | valueExpected
  | invalidEscape
  | invalidNumber
  | numberOutOfRange
  | controlCharacter
  | keyExpected
  | loneSurrogate
  | surrogatePairCut
  | trailingComma
  | trailingCharacters
  | tooDeep
  /-- The text is JSON, but not of the shape that was asked for. -/
  | shape (message : String)
deriving DecidableEq, Repr

/-- The wording of a cause. -/
def Cause.message : Cause → String
  | endInList => "EOF while parsing a list"
  | endInObject => "EOF while parsing an object"
  | endInString => "EOF while parsing a string"
  | endInValue => "EOF while parsing a value"
  | colonExpected => "expected `:`"
  | commaOrBracketExpected => "expected `,` or `]`"
  | commaOrBraceExpected => "expected `,` or `\x7d`"
  | wordExpected => "expected ident"
  | valueExpected => "expected value"
  | invalidEscape => "invalid escape"
  | invalidNumber => "invalid number"
  | numberOutOfRange => "number out of range"
  | controlCharacter => "control character (\\u0000-\\u001F) found while parsing a string"
  | keyExpected => "key must be a string"
  | loneSurrogate => "lone leading surrogate in hex escape"
  | surrogatePairCut => "unexpected end of hex escape"
  | trailingComma => "trailing comma"
  | trailingCharacters => "trailing characters"
  | tooDeep => "recursion limit exceeded"
  | shape message => message

/-- A cause, what was still to be read, and the bytes of it that lie before the fault. -/
structure Fault where
  cause : Cause
  rest : List Char
  beyond : Nat
deriving DecidableEq, Repr

/-! ## Lines and columns -/

/-- A place in a text: lines count from one, columns count the bytes of the line up to it. -/
structure Position where
  line : Nat
  column : Nat
deriving DecidableEq, Repr

namespace Position

/-- The place after one more byte. -/
def step (place : Position) (byte : UInt8) : Position :=
  if byte = 10 then ⟨place.line + 1, 0⟩ else ⟨place.line, place.column + 1⟩

/-- The place after so many bytes of a text. -/
def after (text : String) (bytes : Nat) : Position :=
  (text.toUTF8.data.toList.take bytes).foldl step ⟨1, 0⟩

end Position

/-- The bytes that characters take. -/
def byteCount (text : List Char) : Nat := text.foldr (fun c count => c.utf8Size + count) 0

/-- A cause at its place in the text that was read. -/
structure Error where
  cause : Cause
  position : Position
deriving DecidableEq, Repr

namespace Error

/-- Finds the place of a fault in the whole text. -/
def ofFault (text : String) (fault : Fault) : Error :=
  ⟨fault.cause, .after text (text.utf8ByteSize - byteCount fault.rest + fault.beyond)⟩

/-- The wording of an error, with its place. -/
def message (error : Error) : String :=
  error.cause.message ++ " at line " ++ toString error.position.line ++ " column " ++
    toString error.position.column

end Error

end Conform.Json
