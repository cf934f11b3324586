import Rendezvous.Text.Digits
import Rendezvous.Yaml.Cursor
import Rendezvous.Yaml.Token

/-!
# Tags, anchors and directives

The names that a node can be given: an anchor, by which other places refer to it, and a tag, which
tells its type. Tags are written in full between angle brackets, or after a handle that stands for
their start. Directives before a document give its version and such handles.
-/

namespace Rendezvous.Yaml

/-- The bytes of characters. -/
def bytesOf (cs : List Char) : List UInt8 :=
  cs.flatMap String.utf8EncodeChar

namespace Tag

/-- The tag that only tells that a node has no type of its own. -/
def nonSpecific : Tag := bytesOf ['!']

/-- The start of the tags of the language itself. -/
def core : Tag := bytesOf "tag:yaml.org,2002:".toList

/-- The tag of values that are absent. -/
def null : Tag := core ++ bytesOf "null".toList

/-- The tag of truth values. -/
def bool : Tag := core ++ bytesOf "bool".toList

/-- The name that a tag gives locally, after its exclamation mark. A lone mark is a name itself. -/
def localName? (t : Tag) : Option String :=
  match t with
  | [] => none
  | mark :: name =>
    if mark = '!'.toUInt8 then
      String.fromUTF8? (ByteArray.mk (if name.isEmpty then t else name).toArray)
    else none

end Tag

/-! ## Tags -/

/-- Whether a character may stand in a tag. Commas and brackets may only where they end nothing. -/
def isTagChar (isEnclosed : Bool) (x : Char) : Bool :=
  isWord x || ";/?:@&=+$.!~*'()".toList.contains x ||
    (isEnclosed && (x == ',' || x == '[' || x == ']'))

/-- Read an escaped byte. -/
def takeByte? (c : Cursor) : Option (UInt8 × Cursor) :=
  match c.rest with
  | '%' :: a :: b :: _ => (Text.hexValue? [a, b]).map fun n => (n.toUInt8, c.skip 3)
  | _ => none

/-- How many bytes follow the first byte of a character. -/
def bytesAfter? (first : UInt8) : Option Nat :=
  if first < 0x80 then some 0
  else if 0xC0 ≤ first && first < 0xE0 then some 1
  else if 0xE0 ≤ first && first < 0xF0 then some 2
  else if 0xF0 ≤ first && first < 0xF8 then some 3
  else none

/-- Read `n` escaped bytes that continue a character. -/
def takeBytes? : Nat → Cursor → Option (List UInt8 × Cursor)
  | 0, c => some ([], c)
  | n + 1, c => do
    let (b, c) ← takeByte? c
    if 0x80 ≤ b && b < 0xC0 then
      let (bs, c) ← takeBytes? n c
      return (b :: bs, c)
    else none

/-- Read the escaped bytes of a character. -/
def takeEscape? (c : Cursor) : Option (List UInt8 × Cursor) := do
  let (b, c) ← takeByte? c
  let n ← bytesAfter? b
  let (bs, c) ← takeBytes? n c
  return (b :: bs, c)

/-- Read the characters of a tag. -/
def takeTagChars? (isEnclosed : Bool) : Nat → Cursor → Option (Tag × Cursor)
  | 0, _ => none
  | fuel + 1, c =>
    match c.head? with
    | none => some ([], c)
    | some x =>
      if x == '%' then do
        let (bytes, c) ← takeEscape? c
        let (more, c) ← takeTagChars? isEnclosed fuel c
        return (bytes ++ more, c)
      else if isTagChar isEnclosed x then
        (takeTagChars? isEnclosed fuel (c.skip 1)).map fun r => (bytesOf [x] ++ r.1, r.2)
      else some ([], c)

/-- Read the characters of a tag, at least one. -/
def takeTagText? (isEnclosed : Bool) (c : Cursor) : Option (Tag × Cursor) :=
  (takeTagChars? isEnclosed c.span c).filter (!·.1.isEmpty)

/-- Read an exclamation mark, a word, and another mark if it stands there. -/
def takeHandle? (c : Cursor) : Option (List Char × Cursor) :=
  if c.isAt '!' then
    let (word, after) := (c.skip 1).takeWhile isWord
    if after.isAt '!' then some ('!' :: word ++ ['!'], after.skip 1) else some ('!' :: word, after)
  else none

/-- Whether characters are a handle between two marks. -/
def isNamedHandle (handle : List Char) : Bool :=
  1 < handle.length && handle.getLast? == some '!'

/-- Read a tag up to the character after it, from its exclamation mark on. -/
def takeTag? (c : Cursor) : Option (Token × Cursor) := do
  if c.ahead? 1 = some '<' then
    let (tail, c) ← takeTagText? true (c.skip 2)
    if c.isAt '>' then some (.tag "" tail, c.skip 1) else none
  else
    let (handle, c) ← takeHandle? c
    if isNamedHandle handle then
      let (tail, c) ← takeTagText? false c
      return (.tag (String.ofList handle) tail, c)
    else
      let (tail, c) ← takeTagChars? false c.span c
      let tail := bytesOf (handle.drop 1) ++ tail
      if tail.isEmpty then return (.tag "" Tag.nonSpecific, c) else return (.tag "!" tail, c)

/-- Read a tag. A blank follows it, or a comma between brackets or braces. -/
def tag? (inFlow : Bool) (c : Cursor) : Option (Token × Cursor) :=
  (takeTag? c).filter fun r => isGapOrEnd r.2.head? || (inFlow && r.2.isAt ',')

/-! ## Anchors -/

/-- Whether an anchor may end before a character. -/
def mayFollowAnchor (x : Char) : Bool :=
  isGap x || "?:,]\x7d%@\x60".toList.contains x

/-- Read the name of an anchor, after its indicator. -/
def anchor? (c : Cursor) : Option (String × Cursor) :=
  let (name, c) := c.takeWhile isWord
  if !name.isEmpty && c.head?.all mayFollowAnchor then some (String.ofList name, c) else none

/-! ## Directives -/

/-- Read a number of at most nine digits. -/
def takeNumber? (c : Cursor) : Option (Nat × Cursor) :=
  let (digits, c) := c.takeWhile Char.isDigit
  if digits.isEmpty || 9 < digits.length then none
  else some (digits.foldl (fun n x => 10 * n + (x.toNat - '0'.toNat)) 0, c)

/-- Read the version that a directive gives. -/
def takeVersion? (c : Cursor) : Option (Token × Cursor) := do
  let (major, c) ← takeNumber? (c.dropWhile isBlank)
  if c.isAt '.' then
    let (minor, c) ← takeNumber? (c.skip 1)
    return (.version major minor, c)
  else none

/-- Read the handle that a directive gives, and what it stands for. -/
def takeHandleMeaning? (c : Cursor) : Option (Token × Cursor) := do
  let (handle, c) ← takeHandle? (c.dropWhile isBlank)
  if (handle = ['!'] ∨ isNamedHandle handle) ∧ c.head?.any isBlank then
    let (start, c) ← takeTagText? true (c.dropWhile isBlank)
    if isGapOrEnd c.head? then some (.handle (String.ofList handle) start, c) else none
  else none

/-- Read a directive, from its percent sign on, with the rest of its line. -/
def directive? (c : Cursor) : Option (Token × Cursor) := do
  let (name, c) := (c.skip 1).takeWhile isWord
  let (t, c) ←
    if !isGapOrEnd c.head? then none
    else if name = "YAML".toList then takeVersion? c
    else if name = "TAG".toList then takeHandleMeaning? c
    else none
  let c ← c.endLine?
  return (t, c)

end Rendezvous.Yaml
