import Rendezvous.Yaml.Block
import Rendezvous.Yaml.Scalar
import Rendezvous.Yaml.Tag

/-!
# From a text to its tokens

Outside brackets and braces, the column of a token tells to which block it belongs: a token further
to the right than its block may open a block, and one further to the left closes blocks. That what
was read is the key of a mapping shows only at the colon after it. Until then it is remembered where
such a key begins, since the token for it, and the one for the block that it opens, belong there.

A key without a mark of its own has to be on one line and within 1024 characters. Where a block
makes a key necessary, a text without the colon is malformed.
-/

namespace Rendezvous.Yaml

/-- The beginning of what may be a key. -/
structure PossibleKey where
  /-- How many tokens come before it. -/
  position : Nat
  /-- Where it begins. -/
  start : Cursor
  /-- Whether nothing else can stand there. -/
  isRequired : Bool
deriving Repr, Inhabited

/-- What is known at a place of a text. -/
structure Layout where
  /-- The place. -/
  cursor : Cursor
  /-- The tokens before it. -/
  tokens : Array Token := #[]
  /-- The columns of the open blocks, the innermost first. -/
  blocks : List Nat := []
  /-- The possible key of the innermost collection. -/
  key : Option PossibleKey := none
  /-- For each open bracket or brace, the possible key around it. -/
  outerKeys : List (Option PossibleKey) := []
  /-- Whether a key may begin here. -/
  isKeyAllowed : Bool := true
deriving Repr, Inhabited

namespace Layout

/-- Whether a bracket or brace is open. -/
def inFlow (s : Layout) : Bool := !s.outerKeys.isEmpty

/-- The least column of what is inside the innermost block. -/
def floor (s : Layout) : Nat := (s.blocks.head?.map (· + 1)).getD 0

/-- Add a token. -/
def push (s : Layout) (t : Token) : Layout :=
  { s with tokens := s.tokens.push t }

/-- Add a token that ends at `c`. -/
def pushTo (s : Layout) (t : Token) (c : Cursor) : Layout :=
  { s.push t with cursor := c }

/-! ## Blocks -/

/-- Open a block at a column, unless it is open, with its token in front of the token `position`. -/
def openBlock (s : Layout) (t : Token) (column position : Nat) : Layout :=
  if s.inFlow || column < s.floor then s
  else
    { s with
      blocks := column :: s.blocks
      tokens := s.tokens.insertIdxIfInBounds position t }

/-- Open a block at this place. -/
def openBlockHere (s : Layout) (t : Token) : Layout :=
  s.openBlock t s.cursor.column s.tokens.size

/-- Close the innermost blocks, as long as they have ended. -/
def closeBlocks (s : Layout) (hasEnded : Nat → Bool) : Layout :=
  if s.inFlow then s
  else
    let gone := (s.blocks.takeWhile hasEnded).length
    { s with
      blocks := s.blocks.drop gone
      tokens := s.tokens ++ Array.replicate gone .blockEnd }

/-! ## Keys -/

/-- Give up the possible key, unless a key is required. -/
def dropKey? (s : Layout) : Option Layout :=
  if s.key.any (·.isRequired) then none else some { s with key := none }

/-- Remember that a key may begin here. -/
def markKey? (s : Layout) : Option Layout :=
  if s.isKeyAllowed then
    s.dropKey?.map fun s =>
      { s with
        key := some
          { position := s.tokens.size
            start := s.cursor
            isRequired := !s.inFlow && s.blocks.head? == some s.cursor.column } }
  else some s

/-- Whether a possible key is on another line by now, or too long. -/
def hasExpired (s : Layout) (k : PossibleKey) : Bool :=
  k.start.line < s.cursor.line || k.start.index + 1024 < s.cursor.index

/-- Give up the possible keys that cannot be keys any more, unless one of them is required. -/
def expireKeys? (s : Layout) : Option Layout :=
  if (s.key :: s.outerKeys).any (·.any fun k => s.hasExpired k && k.isRequired) then none
  else
    some { s with
      key := s.key.filter (!s.hasExpired ·)
      outerKeys := s.outerKeys.map (·.filter (!s.hasExpired ·)) }

/-! ## Between tokens -/

/-- Skip blanks, comments and line breaks. Outside brackets and braces a new line may begin with a
key, and a tab may not stand in front of one. -/
def skipGap : Nat → Layout → Layout
  | 0, s => s
  | fuel + 1, s =>
    let c := s.cursor
    let c := if c.column = 0 ∧ c.isAt byteOrderMark then c.skip 1 else c
    let mayTab := s.inFlow || !s.isKeyAllowed
    let c := (c.dropWhile fun x => x == ' ' || (mayTab && x == '\t')).skipComment
    if c.head?.any isBreak then
      skipGap fuel { s with cursor := c.skipBreak, isKeyAllowed := s.isKeyAllowed || !s.inFlow }
    else { s with cursor := c }

/-! ## Tokens -/

/-- Close all blocks before a directive or a mark between documents. -/
def leaveDocument? (s : Layout) : Option Layout :=
  (s.closeBlocks fun _ => true).dropKey?.map ({ · with isKeyAllowed := false })

/-- Read a directive. -/
def readDirective? (s : Layout) : Option Layout := do
  let s ← s.leaveDocument?
  let (t, c) ← directive? s.cursor
  return s.pushTo t c

/-- Read a mark between documents. -/
def readMarker? (s : Layout) (t : Token) : Option Layout :=
  s.leaveDocument?.map fun s => s.pushTo t (s.cursor.skip 3)

/-- Read an opening bracket or brace. -/
def readOpening? (s : Layout) (t : Token) : Option Layout :=
  s.markKey?.map fun s =>
    { s.pushTo t (s.cursor.skip 1) with
      key := none, outerKeys := s.key :: s.outerKeys, isKeyAllowed := true }

/-- Read a closing bracket or brace. -/
def readClosing? (s : Layout) (t : Token) : Option Layout :=
  s.dropKey?.map fun s =>
    { s.pushTo t (s.cursor.skip 1) with
      key := s.outerKeys.head?.join, outerKeys := s.outerKeys.tail, isKeyAllowed := false }

/-- Read a comma. -/
def readComma? (s : Layout) : Option Layout :=
  s.dropKey?.map fun s => { s.pushTo .comma (s.cursor.skip 1) with isKeyAllowed := true }

/-- Read the dash before an item. -/
def readItem? (s : Layout) : Option Layout :=
  if s.inFlow || s.isKeyAllowed then
    (s.openBlockHere .blockListStart).dropKey?.map fun s =>
      { s.pushTo .item (s.cursor.skip 1) with isKeyAllowed := true }
  else none

/-- Read the mark before a key. -/
def readKeyMark? (s : Layout) : Option Layout :=
  if s.inFlow || s.isKeyAllowed then
    (s.openBlockHere .blockMapStart).dropKey?.map fun s =>
      { s.pushTo .key (s.cursor.skip 1) with isKeyAllowed := !s.inFlow }
  else none

/-- Read the colon before a value. What may be a key up to here is one. -/
def readValueMark? (s : Layout) : Option Layout :=
  match s.key with
  | some k =>
    let s := { s with tokens := s.tokens.insertIdxIfInBounds k.position .key }
    let s := s.openBlock .blockMapStart k.start.column k.position
    some { s.pushTo .value (s.cursor.skip 1) with key := none, isKeyAllowed := false }
  | none =>
    if s.inFlow || s.isKeyAllowed then
      let s := s.openBlockHere .blockMapStart
      some { s.pushTo .value (s.cursor.skip 1) with isKeyAllowed := !s.inFlow }
    else none

/-- Read what may be a key or the start of one. -/
def readNode? (s : Layout) (read? : Cursor → Option (Token × Cursor)) : Option Layout := do
  let s ← s.markKey?
  let (t, c) ← read? s.cursor
  return { s.pushTo t c with isKeyAllowed := false }

/-- Read a block scalar. -/
def readBlock? (s : Layout) : Option Layout := do
  let s ← s.dropKey?
  let (text, c) ← block? s.blocks.head? s.cursor
  let style : ScalarStyle := if s.cursor.isAt '>' then .folded else .literal
  return { s.pushTo (.scalar text style) c with isKeyAllowed := true }

/-- Read a scalar without quotes. If it ends on a new line, a key may follow. -/
def readPlain? (s : Layout) : Option Layout := do
  let s ← s.markKey?
  let (text, isOnNewLine, c) ← plain? s.inFlow s.floor s.cursor
  return { s.pushTo (.scalar text .plain) c with isKeyAllowed := isOnNewLine }

/-- Read the token in front. -/
def readToken? (s : Layout) : Option Layout :=
  let c := s.cursor
  let isWordHere := isGapOrEnd (c.ahead? 1)
  if c.column = 0 ∧ c.isAt '%' then s.readDirective?
  else if c.startsWithThree '-' then s.readMarker? .documentStart
  else if c.startsWithThree '.' then s.readMarker? .documentEnd
  else
    match c.head? with
    | none => none
    | some x =>
      if x = '[' then s.readOpening? .listStart
      else if x = '\x7b' then s.readOpening? .mapStart
      else if x = ']' then s.readClosing? .listEnd
      else if x = '\x7d' then s.readClosing? .mapEnd
      else if x = ',' then s.readComma?
      else if x = '-' ∧ isWordHere then s.readItem?
      else if x = '?' ∧ (s.inFlow ∨ isWordHere) then s.readKeyMark?
      else if x = ':' ∧ (s.inFlow ∨ isWordHere) then s.readValueMark?
      else if x = '*' then
        s.readNode? fun c => (anchor? (c.skip 1)).map fun r => (.alias r.1, r.2)
      else if x = '&' then
        s.readNode? fun c => (anchor? (c.skip 1)).map fun r => (.anchor r.1, r.2)
      else if x = '!' then s.readNode? (tag? s.inFlow)
      else if (x = '|' ∨ x = '>') ∧ !s.inFlow then s.readBlock?
      else if x = '\'' ∨ x = '"' then
        s.readNode? fun c => (quoted? c).map fun r => (.scalar r.1 .quoted, r.2)
      else if canStartPlain s.inFlow c then s.readPlain?
      else none

/-! ## Texts -/

/-- Read all tokens from a place on. -/
def readAll? : Nat → Layout → Option (List Token)
  | 0, _ => none
  | fuel + 1, s => do
    let s ← (s.skipGap s.cursor.span).expireKeys?
    let s := s.closeBlocks (s.cursor.column < ·)
    if s.cursor.rest.isEmpty then (s.leaveDocument?).map (·.tokens.toList)
    else readAll? fuel (← s.readToken?)

end Layout

/-- The tokens of a text. -/
def tokens? (text : String) : Option (List Token) :=
  if text.toList.all isAllowed then
    let c : Cursor := { rest := text.toList }
    Layout.readAll? c.span { cursor := c }
  else none

end Rendezvous.Yaml
