import Conform.Read

/-!
# The letters of a YAML text

In YAML the meaning of a character depends on where it stands, so a text is read as a list of
letters, each a character that knows its line and its column.  Both count from zero.  A column
counts characters; how far apart two letters of a line stand can also be measured in bytes.

The ways to end a line are made one when the letters are placed: a carriage return, the pair of it
and a line feed, and the next-line control all become a line feed.  The two Unicode separators end
a line as well, but keep their identity.
-/

namespace Conform.Yaml

/-! ## Classes of characters -/

/-- Whether a character may stand in a text at all. -/
def isAdmitted (c : Char) : Bool :=
  c = '\t' || c = '\n' || c = '\r' || (' ' ≤ c && c ≤ '~') || c = '\u0085' ||
    ('\u00a0' ≤ c && c ≤ '\ufffd') || 0x10000 ≤ c.toNat

/-- Whether a character separates words. -/
def isBlank (c : Char) : Bool := c = ' ' || c = '\t'

/-- Whether a placed character ends its line. -/
def isBreak (c : Char) : Bool := c = '\n' || c = '\u2028' || c = '\u2029'

/-- Whether a character stands between words: a blank or a line break. -/
def isGap (c : Char) : Bool := isBlank c || isBreak c

/-- Whether a character may stand in a name. -/
def isNaming (c : Char) : Bool := c.isAlphanum || c = '_' || c = '-'

/-- The mark that may stand at the start of a line and says nothing. -/
def orderMark : Char := '\ufeff'

/-! ## Placing -/

/-- A character and where it stands. -/
structure Letter where
  char : Char
  line : Nat
  column : Nat
  /-- How many bytes of the line stand before the letter. -/
  offset : Nat
deriving DecidableEq, Repr

/-- Places the characters of a text that starts at a line, a column and an offset. -/
def place : (line column offset : Nat) → List Char → List Letter
  | _, _, _, [] => []
  | line, column, offset, '\r' :: '\n' :: text =>
    ⟨'\n', line, column, offset⟩ :: place (line + 1) 0 0 text
  | line, column, offset, c :: text =>
    if c = '\r' ∨ c = '\u0085' then ⟨'\n', line, column, offset⟩ :: place (line + 1) 0 0 text
    else if isBreak c then ⟨c, line, column, offset⟩ :: place (line + 1) 0 0 text
    else ⟨c, line, column, offset⟩ :: place line (column + 1) (offset + c.utf8Size) text

/-- The letters of a text, if all of its characters are admitted. -/
def letters? (text : List Char) : Option (List Letter) :=
  if text.all isAdmitted then some (place 0 0 0 text) else none

/-! ## Looking ahead -/

namespace Letter

/-- Whether a letter is a blank or a line break. -/
def isGap (letter : Letter) : Bool := Yaml.isGap letter.char

/-- Whether a letter ends its line. -/
def isBreak (letter : Letter) : Bool := Yaml.isBreak letter.char

/-- Whether a letter is a blank. -/
def isBlank (letter : Letter) : Bool := Yaml.isBlank letter.char

/-- Whether a letter is an order mark at the start of its line. -/
def isOrderMark (letter : Letter) : Bool := letter.char = orderMark && letter.column = 0

end Letter

/-- Whether a word ends here: at a blank, at a line break, or at the end of the text. -/
def wordEnds : List Letter → Bool
  | [] => true
  | letter :: _ => letter.isGap

/-- Whether a line ends here. -/
def lineEnds : List Letter → Bool
  | [] => true
  | letter :: _ => letter.isBreak

/-- Whether a mark stands here three times as a word of its own at the start of a line. -/
def isMarker (mark : Char) : List Letter → Bool
  | a :: b :: c :: text =>
    a.column = 0 && a.char = mark && b.char = mark && c.char = mark && wordEnds text
  | _ => false

/-- Whether a document starts or ends here. -/
def atMarker (text : List Letter) : Bool := isMarker '-' text || isMarker '.' text

/-- The text after a comment, if one starts here. -/
def skipComment : List Letter → List Letter
  | [] => []
  | letter :: text =>
    if letter.char = '#' then text.dropWhile fun letter => !letter.isBreak else letter :: text

theorem length_skipComment_le (text : List Letter) : (skipComment text).length ≤ text.length := by
  cases text with
  | nil => exact Nat.le_refl _
  | cons letter text =>
    simp only [skipComment]
    split
    · exact Nat.le_succ_of_le (length_dropWhile_le _ _)
    · exact Nat.le_refl _

/-- The text after blanks, a comment and the end of its line, if nothing else stands there. -/
def skipLine? (text : List Letter) : Option { rest : List Letter // rest.length ≤ text.length } :=
  have hblank := length_dropWhile_le Letter.isBlank text
  have hcomment := length_skipComment_le (text.dropWhile Letter.isBlank)
  match h : skipComment (text.dropWhile Letter.isBlank) with
  | [] => some ⟨[], Nat.zero_le _⟩
  | letter :: rest =>
    if letter.isBreak then
      some ⟨rest, by rw [h, List.length_cons] at hcomment; omega⟩
    else none

/-! ## Gaps between words

What stands between two words of a scalar is its gap: blanks and line breaks.  A gap on one line is
kept as it is.  A gap that holds a line break is *folded*: blanks go, a single break becomes a
space, and where more breaks follow the first is dropped in favour of them.  Only a line feed is
folded so; a separator that ends the first line is kept in front of the breaks that follow. -/

/-- What the breaks of a gap come to: the first, and those that follow it. -/
def foldBreaks (first : Char) (further : List Char) : List Char :=
  if first = '\n' then
    match further with
    | [] => [' ']
    | further => further
  else first :: further

/-- What a gap comes to. -/
def foldGap (gap : List Char) : List Char :=
  match gap.filter isBreak with
  | [] => gap
  | first :: further => foldBreaks first further

/-- The characters of letters. -/
def chars (letters : List Letter) : List Char := letters.map Letter.char

/-- The gap at the front of a text. -/
def gap (text : List Letter) : List Letter := text.takeWhile Letter.isGap

/-- The text after the gap at its front. -/
def skipGap (text : List Letter) : List Letter := text.dropWhile Letter.isGap

theorem length_skipGap_le (text : List Letter) : (skipGap text).length ≤ text.length :=
  length_dropWhile_le _ _

end Conform.Yaml
