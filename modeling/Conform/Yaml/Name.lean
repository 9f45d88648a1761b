import Conform.Text
import Conform.Yaml.Letter
import Conform.Yaml.Node

/-!
# Names in a YAML text

The names of nodes, the tags that name their types, and the directives, which say what tags are
short for.  All are runs of letters of some class, and none of them holds a gap.
-/

namespace Conform.Yaml

/-! ## Runs -/

/-- Reads all letters of a class at the front of a text, of which there must be one. -/
def lettersOf (p : Char → Bool) : (text : List Letter) → Option (Read (List Char) text)
  | [] => none
  | letter :: text =>
    if p letter.char then
      some ⟨letter.char :: chars (text.takeWhile (p ·.char)), text.dropWhile (p ·.char),
        Nat.lt_succ_of_le (length_dropWhile_le _ _)⟩
    else none

/-- Reads one given character. -/
def mark (c : Char) : (text : List Letter) → Option (Read Unit text)
  | [] => none
  | letter :: text => if letter.char = c then some ⟨(), text, tail_shorter _ _⟩ else none

/-- The text after the blanks at its front. -/
def skipBlanks (text : List Letter) : List Letter := text.dropWhile Letter.isBlank

theorem length_skipBlanks_le (text : List Letter) : (skipBlanks text).length ≤ text.length :=
  length_dropWhile_le _ _

/-! ## Names of nodes -/

/-- Whether a name may end before this letter. -/
def isAfterName (c : Char) : Bool :=
  c = '?' || c = ':' || c = ',' || c = ']' || c = '}' || c = '%' || c = '@' || c = '\x60'

/-- Reads the name of a node. -/
def nodeName (text : List Letter) : Option (Read String text) := do
  let name ← lettersOf isNaming text
  if wordEnds name.rest || (name.rest.head?.any fun letter => isAfterName letter.char) then
    return name.map String.ofList
  else none

/-! ## Tags -/

/-- Whether a character may stand in a tag wherever the tag stands. -/
def isTagChar (c : Char) : Bool :=
  isNaming c || c = ';' || c = '/' || c = '?' || c = ':' || c = '@' || c = '&' || c = '=' ||
    c = '+' || c = '$' || c = '.' || c = '%' || c = '!' || c = '~' || c = '*' || c = '\'' ||
    c = '(' || c = ')'

/-- Whether a character may stand in a tag whose end is marked. -/
def isEnclosedTagChar (c : Char) : Bool := isTagChar c || c = ',' || c = '[' || c = ']'

/-- How many bytes of a character are still to come after a byte of it, when some number was to come
before. -/
def bytesAfter? : (pending byte : Nat) → Option Nat
  | 0, byte =>
    if byte < 0x80 then some 0
    else if byte < 0xc0 then none
    else if byte < 0xe0 then some 1
    else if byte < 0xf0 then some 2
    else if byte < 0xf8 then some 3
    else none
  | pending + 1, byte => if 0x80 ≤ byte ∧ byte < 0xc0 then some pending else none

/-- The bytes of a tag, in which a percent sign and two hexadecimal digits stand for a byte.  Bytes
written so must follow each other as those of a character in UTF-8 do. -/
def decode? : (pending : Nat) → List Char → Option (List UInt8)
  | 0, [] => some []
  | _ + 1, [] => none
  | pending, '%' :: high :: low :: text => do
    let high ← Text.hexDigit? high
    let low ← Text.hexDigit? low
    let byte := high * 16 + low
    let pending ← bytesAfter? pending byte
    return byte.toUInt8 :: (← decode? pending text)
  | 0, c :: text =>
    if c = '%' then none else (decode? 0 text).map (c.toNat.toUInt8 :: ·)
  | _ + 1, _ :: _ => none

/-- Reads the letters of a tag, of which there must be one. -/
def tagText (p : Char → Bool) (text : List Letter) : Option (Read Tag text) := do
  let letters ← lettersOf p text
  let bytes ← decode? 0 letters.value
  return letters.map fun _ => .ofBytes bytes

/-- The handle at the front of a text, given without the exclamation mark before it: a name and
another exclamation mark, or that alone. -/
def handle (text : List Letter) : Option (Read String text) :=
  match lettersOf isNaming text with
  | none => (mark '!' text).map (·.map fun _ => "!!")
  | some name => do
    let closing ← mark '!' name.rest
    return (closing.map fun _ => String.ofList ('!' :: name.value ++ ['!'])).within
      (Nat.le_of_lt name.shorter)

/-- The tag of a document's own that has a name, or the mark alone, for which no handle stands. -/
def ownTag (name : Tag) : Token :=
  if name.bytes = [] then .tag "" .bare else .tag "!" name

/-- Reads a tag whose exclamation mark has been read, given that letter: one written out in angle
brackets, one with a handle, one of the document itself, or the mark alone. -/
def tagAfter (first : Letter) (text : List Letter) : Option (Read Token (first :: text)) :=
  match mark '<' text with
  | some opened => do
    let tag ← tagText isEnclosedTagChar opened.rest
    let closed ← mark '>' tag.rest
    have := opened.shorter
    have := tag.shorter
    have := closed.shorter
    return ⟨.tag "" tag.value, closed.rest, by simp only [List.length_cons]; omega⟩
  | none =>
    match handle text with
    | some handle => do
      let suffix ← tagText isTagChar handle.rest
      have := handle.shorter
      return (suffix.map (.tag handle.value)).within (by simp only [List.length_cons]; omega)
    | none =>
      if text.head?.any fun letter => isTagChar letter.char then
        (tagText isTagChar text).map fun name => (name.map ownTag).after first
      else some ⟨ownTag ⟨[]⟩, text, tail_shorter _ _⟩

/-- Reads a tag, which must be followed by a gap or, in a flow collection, by a comma. -/
def tag (inFlow : Bool) (first : Letter) (text : List Letter) :
    Option (Read Token (first :: text)) := do
  let read ← tagAfter first text
  if wordEnds read.rest || inFlow && (read.rest.head?.any fun letter => letter.char = ',') then
    return read
  else none

/-! ## Directives -/

/-- Reads a number of at most nine digits. -/
def smallNumber (text : List Letter) : Option (Read Nat text) := do
  let digits ← lettersOf Char.isDigit text
  if digits.value.length ≤ 9 then return digits.map fun digits => Nat.ofDigitChars 10 digits 0
  else none

/-- Reads what follows the name of a version directive. -/
def version (text : List Letter) : Option (Read Token text) := do
  let major ← smallNumber (skipBlanks text)
  let point ← mark '.' major.rest
  let minor ← smallNumber point.rest
  have := length_skipBlanks_le text
  have := major.shorter
  have := point.shorter
  have := minor.shorter
  return ⟨.version major.value minor.value, minor.rest, by omega⟩

/-- Reads the handle of a directive: one of a tag, or the exclamation mark alone. -/
def ownHandle (text : List Letter) : Option (Read String text) := do
  let first ← mark '!' text
  match handle first.rest with
  | some handle => return handle.within (Nat.le_of_lt first.shorter)
  | none =>
    if first.rest.head?.any fun letter => isNaming letter.char then none
    else return first.map fun _ => "!"

/-- Reads what follows the name of a directive about tags. -/
def shorthand (text : List Letter) : Option (Read Token text) := do
  let handle ← ownHandle (skipBlanks text)
  if handle.rest.head?.any Letter.isBlank then
    let stem ← tagText isEnclosedTagChar (skipBlanks handle.rest)
    if wordEnds stem.rest then
      have := length_skipBlanks_le text
      have := handle.shorter
      have := length_skipBlanks_le handle.rest
      have := stem.shorter
      return ⟨.shorthand handle.value stem.value, stem.rest, by omega⟩
    else none
  else none

/-- Reads a directive whose percent sign has been read, up to the end of its line. -/
def directive (text : List Letter) : Option (Read Token text) := do
  let name ← lettersOf isNaming text
  if wordEnds name.rest then
    let token ←
      if name.value = ['Y', 'A', 'M', 'L'] then version name.rest
      else if name.value = ['T', 'A', 'G'] then shorthand name.rest
      else none
    let below ← skipLine? token.rest
    have := name.shorter
    have := token.shorter
    have := below.property
    return ⟨token.value, below.val, by omega⟩
  else none

end Conform.Yaml
