import Conform.Read
import Conform.Yaml.Outline

/-!
# From tokens to a document

A text holds one document, or nothing.  The nodes of a document are put together from the front of
its tokens.  Where a node may stand and none does, the empty scalar is meant.
-/

namespace Conform.Yaml

/-! ## Properties -/

/-- What the handles of tags are short for. -/
abbrev Handles := List (String × Tag)

/-- The handles that need no directive. -/
def defaultHandles : Handles := [("!", .bare), ("!!", .core)]

/-- The tag that a handle and a suffix stand for. -/
def Handles.tag? (handles : Handles) (handle : String) (suffix : Tag) : Option Tag :=
  if handle = "" then some suffix
  else ((handles ++ defaultHandles).lookup handle).map fun stem => stem.append suffix

/-- An anchor and a tag in front of a node. -/
structure Opening where
  anchor : Option Nat
  tag : Option Tag

/-- What an opening says of its node. -/
def Opening.properties (start : Opening) : Properties :=
  ⟨start.anchor, start.tag.bind Tag.typeName?⟩

/-- Reads the opening of a node, in either order; the inner answer is none where there is none. -/
def opening? (handles : Handles) : (tokens : List Token) → Option (Option (Read Opening tokens))
  | .anchor number :: .tag handle suffix :: rest => do
    let tag ← handles.tag? handle suffix
    return some ⟨⟨some number, some tag⟩, rest, by simp only [List.length_cons]; omega⟩
  | .tag handle suffix :: .anchor number :: rest => do
    let tag ← handles.tag? handle suffix
    return some ⟨⟨some number, some tag⟩, rest, by simp only [List.length_cons]; omega⟩
  | .anchor number :: rest => some (some ⟨⟨some number, none⟩, rest, tail_shorter _ _⟩)
  | .tag handle suffix :: rest => do
    let tag ← handles.tag? handle suffix
    return some ⟨⟨none, some tag⟩, rest, tail_shorter _ _⟩
  | _ => some none

/-! ## Sites of nodes -/

/-- Where a node stands; this decides which collections may start there. -/
inductive Site where
  /-- Inside a flow collection. -/
  | flow
  /-- At the root of a document or as an item in block style. -/
  | block
  /-- As a key or value in block style, where the items of a sequence need no indentation. -/
  | member
deriving DecidableEq, Repr

/-- Whether a node other than an alias starts at a token. -/
def Site.starts (site : Site) : Token → Bool
  | .scalar .. | .flowSequence | .flowMapping => true
  | .blockSequence | .blockMapping => site ≠ .flow
  | .entry => site = .member
  | _ => false

/-- Whether a token shows that an item in block style is empty. -/
def endsItem : Token → Bool
  | .entry | .blockEnd => true
  | _ => false

/-- Whether a token shows that a key or value in block style is empty. -/
def endsMember : Token → Bool
  | .key | .value | .blockEnd => true
  | _ => false

/-- Whether a token shows that an item is empty whose sequence is not indented. -/
def endsLooseItem (token : Token) : Bool := endsItem token || endsMember token

/-- Whether a token shows that a key is empty in a flow collection that a given token closes. -/
def endsFlowKey (close token : Token) : Bool := token = .value || token = .comma || token = close

/-- Whether a token shows that a value is empty in a flow collection that a given token closes. -/
def endsFlowValue (close token : Token) : Bool := token = .comma || token = close

/-! ## Nodes

Behind the mark of an item, a key or a value there may be nothing, so the functions that read there
answer what is left with the mark counted in: their answer is shorter than that. -/

mutual

/-- Reads a node. -/
def node (handles : Handles) (site : Site) (tokens : List Token) : Option (Read Node tokens) :=
  match tokens with
  | .reference number :: rest => some ⟨.reference number, rest, tail_shorter _ _⟩
  | tokens =>
    match opening? handles tokens with
    | none => none
    | some none => content handles site ⟨none, none⟩ tokens
    | some (some start) =>
      have := start.shorter
      if start.rest.head?.any site.starts then
        (content handles site start.value start.rest).map (·.within (Nat.le_of_lt start.shorter))
      else some ⟨.scalar start.value.properties .plain "", start.rest, start.shorter⟩
termination_by (tokens.length, 1)

/-- Reads a node whose opening has been read. -/
def content (handles : Handles) (site : Site) (start : Opening) (tokens : List Token) :
    Option (Read Node tokens) :=
  match tokens with
  | .scalar style text :: rest =>
    some ⟨.scalar start.properties style text, rest, tail_shorter _ _⟩
  | .flowSequence :: rest =>
    (flowItems handles rest).map fun read => (read.map (.sequence start.properties)).after _
  | .flowMapping :: rest =>
    (flowMembers handles rest).map fun read => (read.map (.mapping start.properties)).after _
  | .blockSequence :: rest =>
    if site = .flow then none
    else (blockItems handles rest).map fun read => (read.map (.sequence start.properties)).after _
  | .blockMapping :: rest =>
    if site = .flow then none
    else (blockMembers handles rest).map fun read => (read.map (.mapping start.properties)).after _
  | .entry :: rest =>
    if site = .member then
      (looseItems handles rest).map fun read => read.map (.sequence start.properties)
    else none
  | _ => none
termination_by (tokens.length, 0)

/-- Reads the node behind a mark, which is empty where a token shows it. -/
def behind (handles : Handles) (site : Site) (ends : Token → Bool) (mark : Token)
    (tokens : List Token) : Option (Read Node (mark :: tokens)) :=
  if tokens.head?.any ends then some ⟨.empty, tokens, tail_shorter _ _⟩
  else (node handles site tokens).map (·.after mark)
termination_by (tokens.length, 2)

/-- Reads the value of a key, which is empty where the mark of the value is missing. -/
def valueOf (handles : Handles) (site : Site) (ends : Token → Bool) (tokens : List Token) :
    Option (Read Node (.value :: tokens)) :=
  match tokens with
  | .value :: rest => (behind handles site ends .value rest).map (·.after .value)
  | tokens => some ⟨.empty, tokens, tail_shorter _ _⟩
termination_by (tokens.length, 0)

-- Block style

/-- Reads the items of a sequence in block style and its end. -/
def blockItems (handles : Handles) (tokens : List Token) : Option (Read (List Node) tokens) :=
  match tokens with
  | .entry :: rest => do
    let item ← behind handles .block endsItem .entry rest
    have := item.shorter
    let more ← blockItems handles item.rest
    return (more.map (item.value :: ·)).within (Nat.le_of_lt item.shorter)
  | .blockEnd :: rest => some ⟨[], rest, tail_shorter _ _⟩
  | _ => none
termination_by (tokens.length, 0)

/-- Reads the items of a sequence that is not indented, behind the mark of the first. -/
def looseItems (handles : Handles) (tokens : List Token) :
    Option (Read (List Node) (.entry :: tokens)) := do
  let item ← behind handles .block endsLooseItem .entry tokens
  have := Nat.le_of_lt_succ item.shorter
  match h : item.rest with
  | .entry :: rest =>
    have hrest : rest.length + 1 ≤ tokens.length := by
      rw [h] at this
      exact this
    let more ← looseItems handles rest
    return (more.map (item.value :: ·)).within (Nat.le_succ_of_le hrest)
  | _ => return item.map fun item => [item]
termination_by (tokens.length, 3)

/-- Reads the keys and values of a mapping in block style and its end. -/
def blockMembers (handles : Handles) (tokens : List Token) :
    Option (Read (List (Node × Node)) tokens) :=
  match tokens with
  | .key :: rest => do
    let key ← behind handles .member endsMember .key rest
    have hkey := Nat.le_of_lt_succ key.shorter
    let value ← valueOf handles .member endsMember key.rest
    have hvalue := Nat.le_trans (Nat.le_of_lt_succ value.shorter) hkey
    let more ← blockMembers handles value.rest
    return (more.map ((key.value, value.value) :: ·)).within (Nat.le_succ_of_le hvalue)
  | .blockEnd :: rest => some ⟨[], rest, tail_shorter _ _⟩
  | _ => none
termination_by (tokens.length, 0)

-- Flow style

/-- Reads the items of a sequence in flow style, from where an item or its end may stand. -/
def flowItems (handles : Handles) (tokens : List Token) : Option (Read (List Node) tokens) :=
  match tokens with
  | .flowSequenceEnd :: rest => some ⟨[], rest, tail_shorter _ _⟩
  | .key :: rest => do
    let key ← pairKey handles rest
    have hkey := Nat.le_of_lt_succ key.shorter
    let value ← valueOf handles .flow (endsFlowValue .flowSequenceEnd) key.rest
    have hvalue := Nat.le_trans (Nat.le_of_lt_succ value.shorter) hkey
    let more ← moreFlowItems handles value.rest
    return (more.map (.mapping {} [(key.value, value.value)] :: ·)).within
      (Nat.le_succ_of_le hvalue)
  | tokens => do
    let item ← node handles .flow tokens
    have := item.shorter
    let more ← moreFlowItems handles item.rest
    return (more.map (item.value :: ·)).within (Nat.le_of_lt item.shorter)
termination_by (tokens.length, 3)

/-- Reads the items behind an item in flow style. -/
def moreFlowItems (handles : Handles) (tokens : List Token) : Option (Read (List Node) tokens) :=
  match tokens with
  | .comma :: rest => (flowItems handles rest).map (·.after .comma)
  | .flowSequenceEnd :: rest => some ⟨[], rest, tail_shorter _ _⟩
  | _ => none
termination_by (tokens.length, 0)

/-- Reads the key of a pair that is an item in flow style, behind its mark.  An empty key takes the
token along that shows it to be empty. -/
def pairKey (handles : Handles) (tokens : List Token) : Option (Read Node (.key :: tokens)) :=
  match tokens with
  | [] => none
  | token :: rest =>
    if endsFlowKey .flowSequenceEnd token then
      some ⟨.empty, rest, by simp only [List.length_cons]; omega⟩
    else (node handles .flow (token :: rest)).map (·.after .key)
termination_by (tokens.length, 2)

/-- Reads the keys and values of a mapping in flow style, from where a key or its end may stand. -/
def flowMembers (handles : Handles) (tokens : List Token) :
    Option (Read (List (Node × Node)) tokens) :=
  match tokens with
  | .flowMappingEnd :: rest => some ⟨[], rest, tail_shorter _ _⟩
  | .key :: rest => do
    let key ← behind handles .flow (endsFlowKey .flowMappingEnd) .key rest
    have hkey := Nat.le_of_lt_succ key.shorter
    let value ← valueOf handles .flow (endsFlowValue .flowMappingEnd) key.rest
    have hvalue := Nat.le_trans (Nat.le_of_lt_succ value.shorter) hkey
    let more ← moreFlowMembers handles value.rest
    return (more.map ((key.value, value.value) :: ·)).within (Nat.le_succ_of_le hvalue)
  | tokens => do
    let key ← node handles .flow tokens
    have := key.shorter
    let more ← moreFlowMembers handles key.rest
    return (more.map ((key.value, .empty) :: ·)).within (Nat.le_of_lt key.shorter)
termination_by (tokens.length, 3)

/-- Reads the keys and values behind those of one member in flow style. -/
def moreFlowMembers (handles : Handles) (tokens : List Token) :
    Option (Read (List (Node × Node)) tokens) :=
  match tokens with
  | .comma :: rest => (flowMembers handles rest).map (·.after .comma)
  | .flowMappingEnd :: rest => some ⟨[], rest, tail_shorter _ _⟩
  | _ => none
termination_by (tokens.length, 0)

end

/-! ## Directives -/

/-- Whether a document may be written in a version. -/
def isKnownVersion (major minor : Nat) : Bool := major = 1 && (minor = 1 || minor = 2)

/-- Reads the directives at the front of the tokens and answers the handles they define.  Neither a
version nor a handle may be given twice. -/
def directives : (versioned : Bool) → Handles → List Token → Option (Handles × List Token)
  | versioned, handles, .version major minor :: rest =>
    if versioned || !isKnownVersion major minor then none else directives true handles rest
  | versioned, handles, .shorthand handle stem :: rest =>
    if (handles.lookup handle).isSome then none
    else directives versioned ((handle, stem) :: handles) rest
  | _, handles, rest => some (handles, rest)

/-! ## Documents -/

/-- Reads the root of a document that was started by its mark; it may be left out. -/
def markedRoot (handles : Handles) (tokens : List Token) : Option (Node × List Token) :=
  match tokens with
  | [] | .documentEnd :: _ => some (.empty, tokens)
  | _ => (node handles .block tokens).map fun root => (root.value, root.rest)

/-- Reads the root of a document.  Directives need the mark that starts a document after them. -/
def documentRoot (tokens : List Token) : Option (Node × List Token) :=
  match directives false [] tokens with
  | some (handles, .documentStart :: rest) => markedRoot handles rest
  | some (handles, rest) =>
    if rest.length = tokens.length then
      (node handles .block rest).map fun root => (root.value, root.rest)
    else none
  | none => none

/-- A document: a node, and what its aliases repeat. -/
structure Document where
  root : Node
  /-- The nodes with anchors, the last first; a number belongs to the node that took it last. -/
  anchors : List (Nat × Node)

namespace Document

/-- The document of a root. -/
def ofRoot (root : Node) : Document := ⟨root, root.anchored []⟩

/-- The node that has the anchor of a number. -/
def anchor? (document : Document) (number : Nat) : Option Node := document.anchors.lookup number

/-- What the tokens of a text come to: one document, which may end with marks, or nothing. -/
def ofTokens? : List Token → Option (Option Document)
  | [] => some none
  | tokens => do
    let (root, rest) ← documentRoot tokens
    if rest.all (· = .documentEnd) then return some (.ofRoot root) else none

/-- The document in a text; the inner answer is none when the text holds nothing. -/
def parse? (text : String) : Option (Option Document) := (tokens? text.toList).bind ofTokens?

end Document

end Conform.Yaml
