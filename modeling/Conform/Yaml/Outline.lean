import Conform.Map
import Conform.Yaml.Name
import Conform.Yaml.Scalar

/-!
# From letters to tokens

Tokens are found from the front of a text to its end.  Two things about them are not said where they
stand.  Where a block collection ends follows from the indentation of what comes after it.  And
whether a node is a key shows only at the colon behind it, so a node that may be one is remembered
together with the number of tokens before it, and the tokens that announce a key and its mapping go
in there once the colon has come.  A key must stand on one line with its colon and within
`keyReach` bytes of it.

The outline of a text is what has been found of it: the tokens, the collections that are open, and
the node that may be a key.
-/

namespace Conform.Yaml

/-- A node that may turn out to be a key. -/
structure PossibleKey where
  /-- How many tokens come before it. -/
  index : Nat
  /-- Whether nothing but a key can stand where it stands. -/
  required : Bool
  /-- The letter that it starts at. -/
  start : Letter
deriving DecidableEq, Repr

/-- How many bytes a key may start before its colon. -/
def keyReach : Nat := 1024

/-- What has been found of a text. -/
structure Outline where
  tokens : Array Token := #[]
  /-- The columns of the block collections that are open, the innermost first. -/
  indents : List Nat := []
  /-- Whether a node that comes next may be a key. -/
  keyAllowed : Bool := true
  /-- The last node of the innermost collection, if it may be a key. -/
  key : Option PossibleKey := none
  /-- The same for the collections around the flow collections that are open. -/
  outer : List (Option PossibleKey) := []
  /-- The numbers that the names of anchors stand for. -/
  anchors : Map Nat := .empty

namespace Outline

/-! ## Collections -/

/-- Whether a flow collection is open. -/
def inFlow (outline : Outline) : Bool := !outline.outer.isEmpty

/-- Adds a token. -/
def push (outline : Outline) (token : Token) : Outline :=
  { outline with tokens := outline.tokens.push token }

/-- Adds a token in front of those after the first `index`. -/
def insert (outline : Outline) (index : Nat) (token : Token) : Outline :=
  { outline with tokens := outline.tokens.insertIdxIfInBounds index token }

/-- Opens a block collection at a column, after the first `index` tokens, unless one is open there
or further to the right, or a flow collection is open. -/
def openBlock (outline : Outline) (column index : Nat) (token : Token) : Outline :=
  if outline.inFlow || (outline.indents.head?.any fun indent => column ≤ indent) then outline
  else { outline.insert index token with indents := column :: outline.indents }

/-- Closes the block collections whose column is refused, as far as they are innermost. -/
def closeBlocks (outline : Outline) (refused : Nat → Bool) : Outline :=
  if outline.inFlow then outline
  else
    let closed := outline.indents.takeWhile refused
    { outline with
      indents := outline.indents.dropWhile refused
      tokens := outline.tokens ++ closed.map fun _ => Token.blockEnd }

/-- Closes the block collections to the right of a letter. -/
def closeBefore (outline : Outline) (letter : Letter) : Outline :=
  outline.closeBlocks fun indent => letter.column < indent

/-- Closes all block collections. -/
def closeAll (outline : Outline) : Outline := outline.closeBlocks fun _ => true

/-! ## Keys -/

/-- Lets it be that the last node is no key, unless it has to be one. -/
def dropKey (outline : Outline) : Option Outline :=
  if outline.key.any PossibleKey.required then none else some { outline with key := none }

/-- Drops a key that the next letter is too far from. -/
def expireKey (outline : Outline) (letter : Letter) : Option Outline :=
  let expired := outline.key.any fun key =>
    key.start.line < letter.line || key.start.offset + keyReach < letter.offset
  if expired then outline.dropKey else some outline

/-- Remembers that the node which starts at a letter may be a key, if a key is allowed. -/
def noteKey (outline : Outline) (letter : Letter) : Option Outline :=
  if outline.keyAllowed then
    let required := !outline.inFlow && outline.indents.head? = some letter.column
    outline.dropKey.map fun outline =>
      { outline with key := some ⟨outline.tokens.size, required, letter⟩ }
  else some outline

/-- Says whether a key is allowed next. -/
def allowKey (outline : Outline) (allowed : Bool) : Outline :=
  { outline with keyAllowed := allowed }

/-! ## Marks -/

/-- The end of a document, or the start of one, closes all that is open in block style. -/
def boundary (outline : Outline) (token : Token) : Option Outline :=
  outline.closeAll.dropKey.map fun outline => (outline.push token).allowKey false

/-- A flow collection starts. -/
def openFlow (outline : Outline) (letter : Letter) (token : Token) : Option Outline :=
  (outline.noteKey letter).map fun outline =>
    { outline.push token with
      keyAllowed := true
      key := none
      outer := outline.key :: outline.outer }

/-- A flow collection ends. -/
def closeFlow (outline : Outline) (token : Token) : Option Outline :=
  outline.dropKey.map fun outline =>
    let key := outline.outer.head?.getD outline.key
    { outline.push token with
      keyAllowed := false
      key := key
      outer := outline.outer.tail }

/-- A comma. -/
def comma (outline : Outline) : Option Outline :=
  outline.dropKey.map fun outline => (outline.push .comma).allowKey true

/-- Opens a block collection at a mark of one of its parts, which stands where a key may stand; in a
flow collection the mark opens none. -/
def openAt (outline : Outline) (letter : Letter) (token : Token) : Option Outline :=
  if outline.inFlow then some outline
  else if outline.keyAllowed then
    some (outline.openBlock letter.column outline.tokens.size token)
  else none

/-- The mark of an item in block style. -/
def entry (outline : Outline) (letter : Letter) : Option Outline := do
  let outline ← (← outline.openAt letter .blockSequence).dropKey
  return (outline.push .entry).allowKey true

/-- The mark of a key. -/
def explicitKey (outline : Outline) (letter : Letter) : Option Outline := do
  let outline ← (← outline.openAt letter .blockMapping).dropKey
  return (outline.push .key).allowKey (!outline.inFlow)

/-- A colon: the last node is a key if it may be one, and a value follows. -/
def colon (outline : Outline) (letter : Letter) : Option Outline :=
  match outline.key with
  | some key =>
    let announced := outline.insert key.index .key
    let opened := announced.openBlock key.start.column key.index .blockMapping
    some ({ opened with key := none }.push .value |>.allowKey false)
  | none => do
    let outline ← outline.openAt letter .blockMapping
    return (outline.push .value).allowKey (!outline.inFlow)

/-! ## Nodes -/

variable {letter : Letter} {text : List Letter}

/-- Adds the token that was read for a node, or for a property of it, which started at a letter. -/
def node (outline : Outline) (read : Option (Read Token (letter :: text))) :
    Option (Read Outline (letter :: text)) := do
  let outline ← outline.noteKey letter
  return (← read).map fun token => (outline.push token).allowKey false

/-- Adds an anchor.  Its name takes as its number how many names are known, itself included if it
was given before; from here on it stands for that number alone. -/
def anchor (outline : Outline) (letter : Letter) (text : List Letter) :
    Option (Read Outline (letter :: text)) := do
  let name ← nodeName text
  let number := outline.anchors.size
  let read ← outline.node (some ((name.map fun _ => .anchor number).after letter))
  return read.map fun outline =>
    { outline with anchors := outline.anchors.insert name.value number }

/-- Adds a node that repeats the one with an anchor, whose name must be known. -/
def reference (outline : Outline) (letter : Letter) (text : List Letter) :
    Option (Read Outline (letter :: text)) := do
  let name ← nodeName text
  let number ← outline.anchors.get? name.value
  outline.node (some ((name.map fun _ => .reference number).after letter))

/-- Adds a block scalar. -/
def blockScalar (outline : Outline) (style : Style) (letter : Letter) (text : List Letter) :
    Option (Read Outline (letter :: text)) := do
  let outline ← outline.dropKey
  let read ← block (style = .folded) outline.indents.head? letter text
  return read.map fun content =>
    (outline.push (.scalar style (String.ofList content))).allowKey true

/-- Adds a plain scalar.  After one that ends its line a key is allowed. -/
def plainScalar (outline : Outline) (letter : Letter) (text : List Letter) :
    Option (Read Outline (letter :: text)) := do
  let outline ← outline.noteKey letter
  let read ← plain ⟨outline.inFlow, outline.indents.head?.elim 0 (· + 1)⟩ letter text
  return read.map fun plain =>
    (outline.push (.scalar .plain (String.ofList plain.content))).allowKey plain.endsLine

/-- Whether a character is kept for other uses and starts no plain scalar. -/
def isReserved (c : Char) : Bool :=
  isGap c || c = '#' || c = '|' || c = '>' || c = '%' || c = '@' || c = '\x60'

/-- Takes in the node, or the property of a node, that starts at a letter. -/
def takeNode (outline : Outline) (letter : Letter) (text : List Letter) :
    Option (Read Outline (letter :: text)) :=
  let c := letter.char
  if c = '*' then outline.reference letter text
  else if c = '&' then outline.anchor letter text
  else if c = '!' then outline.node (tag outline.inFlow letter text)
  else if c = '|' && !outline.inFlow then outline.blockScalar .literal letter text
  else if c = '>' && !outline.inFlow then outline.blockScalar .folded letter text
  else if c = '\'' then
    outline.node ((singleQuoted text).map fun read =>
      (read.map fun content => .scalar .quoted (String.ofList content)).after letter)
  else if c = '"' then
    outline.node ((doubleQuoted text).map fun read =>
      (read.map fun content => .scalar .quoted (String.ofList content)).after letter)
  else if isReserved c then none
  else outline.plainScalar letter text

/-- Takes in what starts at a letter that stands neither in a gap nor in a comment. -/
def take (outline : Outline) (letter : Letter) (text : List Letter) :
    Option (Read Outline (letter :: text)) :=
  let c := letter.char
  let one (outline : Option Outline) : Option (Read Outline (letter :: text)) :=
    outline.map fun outline => ⟨outline, text, tail_shorter _ _⟩
  let three (outline : Option Outline) : Option (Read Outline (letter :: text)) :=
    outline.map fun outline => ⟨outline, text.drop 2, drop_shorter 2 letter text⟩
  if letter.column = 0 ∧ c = '%' then do
    let outline ← outline.closeAll.dropKey
    return ((← directive text).map fun token => (outline.push token).allowKey false).after letter
  else if isMarker '-' (letter :: text) then three (outline.boundary .documentStart)
  else if isMarker '.' (letter :: text) then three (outline.boundary .documentEnd)
  else if c = '[' then one (outline.openFlow letter .flowSequence)
  else if c = '{' then one (outline.openFlow letter .flowMapping)
  else if c = ']' then one (outline.closeFlow .flowSequenceEnd)
  else if c = '}' then one (outline.closeFlow .flowMappingEnd)
  else if c = ',' then one outline.comma
  else if c = '-' && wordEnds text then one (outline.entry letter)
  else if c = '?' && (outline.inFlow || wordEnds text) then one (outline.explicitKey letter)
  else if c = ':' && (outline.inFlow || wordEnds text) then one (outline.colon letter)
  else outline.takeNode letter text

/-! ## The whole text -/

/-- Passes over blanks, breaks, comments and order marks, and says whether a key is allowed after
them: it is after a break in block style.  A tab does not indent, so it is no blank where a key may
come. -/
def skipBetween (inFlow : Bool) : (comment allowed : Bool) → List Letter → Bool × List Letter
  | _, allowed, [] => (allowed, [])
  | comment, allowed, letter :: text =>
    if letter.isBreak then skipBetween inFlow false (allowed || !inFlow) text
    else if comment || letter.isOrderMark || letter.char = ' ' ||
        letter.char = '\t' && (inFlow || !allowed) then
      skipBetween inFlow comment allowed text
    else if letter.char = '#' then skipBetween inFlow true allowed text
    else (allowed, letter :: text)

theorem length_skipBetween_le (inFlow comment allowed : Bool) (text : List Letter) :
    (skipBetween inFlow comment allowed text).2.length ≤ text.length := by
  fun_induction skipBetween inFlow comment allowed text with
  | case1 => exact Nat.le_refl _
  | case2 _ _ _ _ _ ih => exact Nat.le_succ_of_le ih
  | case3 _ _ _ _ _ _ ih => exact Nat.le_succ_of_le ih
  | case4 _ _ _ _ _ _ _ ih => exact Nat.le_succ_of_le ih
  | case5 => exact Nat.le_refl _

/-- The tokens of a text of which an outline has been found already, up to the text given. -/
def complete (outline : Outline) (text : List Letter) : Option (List Token) :=
  match h : skipBetween outline.inFlow false outline.keyAllowed text with
  | (_, []) => outline.closeAll.dropKey.map fun outline => outline.tokens.toList
  | (allowed, letter :: rest) => do
    have : rest.length < text.length := by
      have := length_skipBetween_le outline.inFlow false outline.keyAllowed text
      rw [h] at this
      exact this
    let ready ← (outline.allowKey allowed).expireKey letter
    let read ← (ready.closeBefore letter).take letter rest
    have := Nat.le_of_lt_succ read.shorter
    complete read.value read.rest
termination_by text.length

end Outline

/-- The tokens of a text. -/
def tokens? (text : List Char) : Option (List Token) := do
  let letters ← letters? text
  ({} : Outline).complete letters

end Conform.Yaml
