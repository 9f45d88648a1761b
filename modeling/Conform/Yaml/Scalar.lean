import Conform.Text
import Conform.Yaml.Letter

/-!
# Scalars of a YAML text

A scalar is written in one of three ways: as it is, between quotes, or as a block of lines below its
mark.  Each way has its own end, and its own rule for the line breaks inside.
-/

namespace Conform.Yaml

/-! ## Plain scalars

A plain scalar has no marks around it.  It ends where something starts that it cannot hold: a colon
before a gap, a comment, a document, a flow mark when it stands inside a flow collection, or, when
it does not, a line that is not indented far enough.  Gaps inside it are folded. -/

/-- Where a plain scalar stands: inside a flow collection or not, and the least column at which a
further line of it may start. -/
structure Surroundings where
  inFlow : Bool
  margin : Nat

/-- A plain scalar that was read. -/
structure Plain where
  content : List Char
  /-- Whether a line ended between the scalar and what follows it. -/
  endsLine : Bool

/-- The marks of flow collections. -/
def isFlowMark (c : Char) : Bool := c = ',' || c = '[' || c = ']' || c = '{' || c = '}'

/-- Whether a letter and the text after it end the scalar before them. -/
def endsPlain (around : Surroundings) (letter : Letter) (rest : List Letter) : Bool :=
  letter.char = ':' && wordEnds rest || around.inFlow && isFlowMark letter.char

/-- Whether a scalar that came to a gap does not go on with this letter after it. -/
def endsAtGap (around : Surroundings) (letter : Letter) (rest : List Letter) : Bool :=
  !around.inFlow && letter.column < around.margin || atMarker (letter :: rest) ||
    letter.char = '#'

/-- A colon inside a flow collection must not touch a mark after it. -/
def isStrayColon (around : Surroundings) (letter : Letter) : List Letter → Bool
  | [] => false
  | next :: _ =>
    around.inFlow && letter.char = ':' && (isFlowMark next.char || next.char = '?')

/-- A tab must not stand before the margin of a further line. -/
def isTabbed (around : Surroundings) (gap : List Letter) : Bool :=
  (gap.dropWhile Letter.isBlank).any fun letter =>
    letter.char = '\t' && letter.column < around.margin

/-- Reads a plain scalar whose first letter is known to belong to it. -/
def plain (around : Surroundings) (first : Letter) (rest : List Letter) :
    Option (Read Plain (first :: rest)) :=
  let between := gap rest
  have hskip := length_skipGap_le rest
  if isTabbed around between then none
  else
    let ending : Plain := ⟨[first.char], between.any Letter.isBreak⟩
    match h : skipGap rest with
    | [] => some ⟨ending, [], by simp⟩
    | letter :: after =>
      have hafter : after.length < rest.length := by
        rw [h] at hskip
        exact hskip
      if !between.isEmpty && endsAtGap around letter after then
        some ⟨ending, letter :: after, Nat.lt_succ_of_le hafter⟩
      else if isStrayColon around letter after then none
      else if endsPlain around letter after then
        some ⟨ending, letter :: after, Nat.lt_succ_of_le hafter⟩
      else
        (plain around letter after).map fun read =>
          (read.map fun further =>
            { further with
              content := first.char :: (foldGap (chars between) ++ further.content) }).within
            (Nat.le_succ_of_le hafter)
termination_by rest.length

/-! ## Quoted scalars

A scalar between single quotes says what it holds, a quote being written twice.  Between double
quotes a backslash starts an escape, and one at the end of a line joins it to the next.  Gaps are
folded in both.  No quoted scalar reaches over the start or the end of a document. -/

/-! ### Escapes -/

/-- The number that hexadecimal digits spell. -/
def hexNumber? (digits : List Letter) : Option Nat :=
  digits.foldlM (fun number digit => (Text.hexDigit? digit.char).map (number * 16 + ·)) 0

/-- The character of a code point. -/
def ofCodePoint? (code : Nat) : Option Char :=
  if code.isValidChar then some (Char.ofNat code) else none

/-- What one letter after a backslash stands for. -/
def shortEscape? : Char → Option Char
  | '0' => some '\x00'
  | 'a' => some '\x07'
  | 'b' => some '\x08'
  | 't' => some '\t'
  | '\t' => some '\t'
  | 'n' => some '\n'
  | 'v' => some '\x0b'
  | 'f' => some '\x0c'
  | 'r' => some '\r'
  | 'e' => some '\x1b'
  | ' ' => some ' '
  | '"' => some '"'
  | '/' => some '/'
  | '\\' => some '\\'
  | 'N' => some '\u0085'
  | '_' => some '\u00a0'
  | 'L' => some '\u2028'
  | 'P' => some '\u2029'
  | _ => none

/-- How many hexadecimal digits follow a letter after a backslash. -/
def escapeWidth? : Char → Option Nat
  | 'x' => some 2
  | 'u' => some 4
  | 'U' => some 8
  | _ => none

/-- Reads the character that what follows a backslash stands for. -/
def escaped : (text : List Letter) → Option (Read Char text)
  | [] => none
  | letter :: text =>
    match shortEscape? letter.char with
    | some c => some ⟨c, text, tail_shorter _ _⟩
    | none => do
      let width ← escapeWidth? letter.char
      let digits := text.take width
      if digits.length = width then
        let c ← (hexNumber? digits).bind ofCodePoint?
        return ⟨c, text.drop width, drop_shorter width letter text⟩
      else none

/-! ### Scalars -/

/-- Reads the rest of a scalar between single quotes. -/
def singleQuoted (text : List Letter) : Option (Read (List Char) text) :=
  if atMarker text then none
  else
    match text with
    | [] => none
    | letter :: rest =>
      if letter.isGap then
        (singleQuoted (skipGap rest)).map fun read =>
          (read.map (foldGap (letter.char :: chars (gap rest)) ++ ·)).within
            (Nat.le_succ_of_le (length_skipGap_le rest))
      else if letter.char = '\'' then
        match rest with
        | next :: after =>
          if next.char = '\'' then
            (singleQuoted after).map fun read =>
              (read.map ('\'' :: ·)).within (by simp only [List.length_cons]; omega)
          else some ⟨[], next :: after, by simp⟩
        | [] => some ⟨[], [], tail_shorter _ _⟩
      else (singleQuoted rest).map fun read => (read.map (letter.char :: ·)).after letter
termination_by text.length
decreasing_by
  · exact Nat.lt_succ_of_le (length_skipGap_le rest)
  · simp only [List.length_cons]; omega
  · simp

/-- Reads the rest of a scalar between double quotes. -/
def doubleQuoted (text : List Letter) : Option (Read (List Char) text) :=
  if atMarker text then none
  else
    match text with
    | [] => none
    | letter :: rest =>
      if letter.isGap then
        (doubleQuoted (skipGap rest)).map fun read =>
          (read.map (foldGap (letter.char :: chars (gap rest)) ++ ·)).within
            (Nat.le_succ_of_le (length_skipGap_le rest))
      else if letter.char = '"' then some ⟨[], rest, tail_shorter _ _⟩
      else if letter.char = '\\' then
        if lineEnds rest then
          (doubleQuoted (skipGap rest)).map fun read =>
            (read.map (((chars (gap rest)).filter isBreak).drop 1 ++ ·)).within
              (Nat.le_succ_of_le (length_skipGap_le rest))
        else do
          let c ← escaped rest
          have := c.shorter
          let read ← doubleQuoted c.rest
          return (read.map (c.value :: ·)).within (by simp only [List.length_cons]; omega)
      else (doubleQuoted rest).map fun read => (read.map (letter.char :: ·)).after letter
termination_by text.length
decreasing_by
  · exact Nat.lt_succ_of_le (length_skipGap_le rest)
  · exact Nat.lt_succ_of_le (length_skipGap_le rest)
  · simp only [List.length_cons]; omega
  · simp

/-! ## Block scalars

A block scalar holds the lines below its mark that are indented as far as its first line, or as far
as its header says.  A literal one keeps its line breaks.  In a folded one two lines that both start
with a word are joined by a space, or by the breaks of the empty lines between them.  What the
breaks at its end come to is chosen in the header as well. -/

/-! ### The header -/

/-- What the breaks at the end of a block scalar come to. -/
inductive Chomping where
  /-- Nothing. -/
  | strip
  /-- The break of the last line. -/
  | clip
  /-- That break and those of the empty lines after it. -/
  | keep
deriving DecidableEq, Repr

/-- The choice of chomping at the front of a text, and what follows it. -/
def chompingMark : List Letter → Option Chomping × List Letter
  | [] => (none, [])
  | letter :: text =>
    if letter.char = '+' then (some .keep, text)
    else if letter.char = '-' then (some .strip, text)
    else (none, letter :: text)

/-- The digit at the front of a text, and what follows it. -/
def indentMark : List Letter → Option Nat × List Letter
  | [] => (none, [])
  | letter :: text =>
    if letter.char.isDigit then (some (letter.char.toNat - '0'.toNat), text)
    else (none, letter :: text)

theorem length_chompingMark_le (text : List Letter) :
    (chompingMark text).2.length ≤ text.length := by
  cases text with
  | nil => exact Nat.le_refl _
  | cons letter text =>
    simp only [chompingMark]
    split
    · simp
    · split <;> simp

theorem length_indentMark_le (text : List Letter) : (indentMark text).2.length ≤ text.length := by
  cases text with
  | nil => exact Nat.le_refl _
  | cons letter text => simp only [indentMark]; split <;> simp

/-- The two choices at the front of a text, in either order, and what follows them.  The digit says
how much further than its surroundings the scalar is indented. -/
def headerMarks (text : List Letter) : Option Chomping × Option Nat × List Letter :=
  match chompingMark text with
  | (some chomping, text) => (some chomping, indentMark text)
  | (none, text) =>
    match indentMark text with
    | (deeper, text) => ((chompingMark text).1, deeper, (chompingMark text).2)

theorem length_headerMarks_le (text : List Letter) :
    (headerMarks text).2.2.length ≤ text.length := by
  have h := length_chompingMark_le text
  simp only [headerMarks]
  split
  · next heq =>
    rw [heq] at h
    exact Nat.le_trans (length_indentMark_le _) h
  · next heq =>
    rw [heq] at h
    exact Nat.le_trans (length_chompingMark_le _) (Nat.le_trans (length_indentMark_le _) h)

/-! ### The lines -/

/-- The empty lines at the front of a text, and the indentation of the line after them. -/
structure Margin (text : List Letter) where
  breaks : List Char
  /-- The greatest indentation among these lines. -/
  widest : Nat
  rest : List Letter
  noLonger : rest.length ≤ text.length

/-- Whether a column is left of a margin; before the margin is known every column is. -/
def isLeftOf (margin : Option Nat) (column : Nat) : Bool :=
  match margin with
  | none => true
  | some margin => column < margin

/-- Passes over the empty lines at the front of a text and over the indentation of the line after
them.  A tab does not indent. -/
def emptyLines (margin : Option Nat) (text : List Letter) : Option (Margin text) :=
  let indented (letter : Letter) := letter.char = ' ' && isLeftOf margin letter.column
  have hdrop := length_dropWhile_le indented text
  match h : text.dropWhile indented with
  | [] => some ⟨[], 0, [], Nat.zero_le _⟩
  | letter :: rest =>
    have hrest : rest.length < text.length := by
      rw [h] at hdrop
      exact hdrop
    if letter.char = '\t' && isLeftOf margin letter.column then none
    else if letter.isBreak then
      (emptyLines margin rest).map fun more =>
        ⟨letter.char :: more.breaks, max letter.column more.widest, more.rest,
          Nat.le_trans more.noLonger (Nat.le_of_lt hrest)⟩
    else some ⟨[], letter.column, letter :: rest, hrest⟩
termination_by text.length

/-- What the breaks between two lines come to; `words` says that both start with a word. -/
def joinLines (folded words : Bool) (first : Char) (further : List Char) : List Char :=
  if folded && words then foldBreaks first further else first :: further

/-- What the breaks after the last line come to. -/
def Chomping.ending : Chomping → Option Char → List Char → List Char
  | strip, _, _ => []
  | clip, last, _ => last.toList
  | keep, last, further => last.toList ++ further

/-- What is the same for all lines of a block scalar. -/
structure Frame where
  folded : Bool
  margin : Nat
  chomping : Chomping

/-- Reads the lines of a block scalar from the first letter of one of them. -/
def blockLines (frame : Frame) (first : Letter) (rest : List Letter) :
    Option (Read (List Char) (first :: rest)) :=
  let line := first.char :: chars (rest.takeWhile fun letter => !letter.isBreak)
  have hline := length_dropWhile_le (fun letter : Letter => !letter.isBreak) rest
  match h : rest.dropWhile fun letter => !letter.isBreak with
  | [] => some ⟨line ++ frame.chomping.ending none [], [], by simp⟩
  | last :: below => do
    let gap ← emptyLines (some frame.margin) below
    have hgap : gap.rest.length < rest.length := by
      rw [h] at hline
      exact Nat.lt_of_le_of_lt gap.noLonger hline
    let ending := line ++ frame.chomping.ending (some last.char) gap.breaks
    match hrest : gap.rest with
    | [] => return ⟨ending, [], by simp⟩
    | next :: after =>
      have hafter : after.length + 1 < rest.length := by
        rw [hrest] at hgap
        exact hgap
      if next.column = frame.margin then
        let further ← blockLines frame next after
        let between := joinLines frame.folded (!first.isBlank && !next.isBlank) last.char gap.breaks
        return (further.map fun below => line ++ (between ++ below)).within
          (by simp only [List.length_cons]; omega)
      else return ⟨ending, next :: after, by simp only [List.length_cons]; omega⟩
termination_by rest.length
decreasing_by omega

/-- Reads what follows the mark of a block scalar inside a collection of some indentation, if it
stands in one.  Lines that are not said to be indented by some number are indented as far as the
first of them, or as the widest empty line before it, and further than the collection. -/
def block (folded : Bool) (indent : Option Nat) (mark : Letter) (text : List Letter) :
    Option (Read (List Char) (mark :: text)) := do
  have hmarks := length_headerMarks_le text
  let chomping := (headerMarks text).1.getD .clip
  let deeper := (headerMarks text).2.1
  let below ← skipLine? (headerMarks text).2.2
  if deeper = some 0 then none
  else
    let said := deeper.map (indent.getD 0 + ·)
    let gap ← emptyLines said below.val
    let margin := said.getD (max gap.widest (indent.elim 1 (· + 1)))
    have hgap := Nat.le_trans gap.noLonger (Nat.le_trans below.property hmarks)
    match h : gap.rest with
    | [] => return ⟨chomping.ending none gap.breaks, [], by simp⟩
    | first :: rest =>
      have hrest : rest.length + 1 ≤ text.length := by
        rw [h] at hgap
        exact hgap
      if first.column = margin then
        let read ← blockLines ⟨folded, margin, chomping⟩ first rest
        return (read.map (gap.breaks ++ ·)).within (Nat.le_succ_of_le hrest)
      else return ⟨chomping.ending none gap.breaks, first :: rest, Nat.lt_succ_of_le hrest⟩

end Conform.Yaml
