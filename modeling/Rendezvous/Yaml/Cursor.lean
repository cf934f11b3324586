/-!
# Places in a YAML text

What stands where decides how a YAML text is read, so a reader carries the rest of the text together
with its place: how many characters and lines came before, and the column. The kinds of characters
are here as well: blanks, line breaks, and the characters that a text may hold at all.
-/

namespace Rendezvous.Yaml

/-! ## Kinds of characters -/

/-- Whether a character is a space or a tab. -/
def isBlank (c : Char) : Bool :=
  c == ' ' || c == '\t'

/-- Whether a character ends a line: carriage return, line feed, next line, and the separators of
lines and of paragraphs. -/
def isBreak (c : Char) : Bool :=
  c == '\r' || c == '\n' || c == '\x85' || c == '\u2028' || c == '\u2029'

/-- Whether a character separates words. -/
def isGap (c : Char) : Bool :=
  isBlank c || isBreak c

/-- Whether a line ends here. -/
def isBreakOrEnd (c : Option Char) : Bool :=
  c.all isBreak

/-- Whether a word ends here. -/
def isGapOrEnd (c : Option Char) : Bool :=
  c.all isGap

/-- Whether a character may stand in a name: an ASCII letter or digit, a dash or an underscore. -/
def isWord (c : Char) : Bool :=
  c.isAlphanum || c == '-' || c == '_'

/-- Whether a character opens or closes a collection or separates its entries. -/
def isFlowIndicator (c : Char) : Bool :=
  c == ',' || c == '[' || c == ']' || c == '\x7b' || c == '\x7d'

/-- Whether a text may hold a character: the visible ones, tabs and line breaks. -/
def isAllowed (c : Char) : Bool :=
  let n := c.toNat
  n == 0x09 || n == 0x0A || n == 0x0D || (0x20 ≤ n && n ≤ 0x7E) || n == 0x85 ||
    (0xA0 ≤ n && n ≤ 0xD7FF) || (0xE000 ≤ n && n ≤ 0xFFFD) || 0x10000 ≤ n

/-- The character that may stand at the start of a line to tell the order of bytes. -/
def byteOrderMark : Char := '\uFEFF'

/-! ## Cursors -/

/-- A place in a text, and what follows it. -/
structure Cursor where
  /-- The characters that follow. -/
  rest : List Char
  /-- How many characters came before. -/
  index : Nat := 0
  /-- How many lines came before. -/
  line : Nat := 0
  /-- How many characters of this line came before. -/
  column : Nat := 0
deriving Repr, Inhabited

namespace Cursor

/-- The character in front. -/
def head? (c : Cursor) : Option Char := c.rest.head?

/-- The character after the next `n` ones. -/
def ahead? (c : Cursor) (n : Nat) : Option Char := c.rest[n]?

/-- Whether a character stands in front. -/
def isAt (c : Cursor) (x : Char) : Bool := c.head? == some x

/-- A bound on the steps of any reader that takes a character with each step. -/
def span (c : Cursor) : Nat := c.rest.length + 1

/-- The place `n` characters further on this line. -/
def skip (c : Cursor) (n : Nat) : Cursor :=
  { c with rest := c.rest.drop n, index := c.index + n, column := c.column + n }

/-- The characters in front that pass a test, none of which is a line break, and the place after
them. -/
def takeWhile (c : Cursor) (p : Char → Bool) : List Char × Cursor :=
  let taken := c.rest.takeWhile p
  (taken, c.skip taken.length)

/-- The place after the characters in front that pass a test, none of which is a line break. -/
def dropWhile (c : Cursor) (p : Char → Bool) : Cursor :=
  (c.takeWhile p).2

/-- The line break in front, as a scalar holds it, and the place after it. A carriage return, a line
feed, both together and a next line are held as one line feed; the separators stay as they are. -/
def takeBreak (c : Cursor) : List Char × Cursor :=
  match c.rest with
  | '\r' :: '\n' :: rest => (['\n'], ⟨rest, c.index + 2, c.line + 1, 0⟩)
  | x :: rest =>
    if isBreak x then
      let text := if x = '\u2028' ∨ x = '\u2029' then x else '\n'
      ([text], ⟨rest, c.index + 1, c.line + 1, 0⟩)
    else ([], c)
  | [] => ([], c)

/-- The place after the line break in front. -/
def skipBreak (c : Cursor) : Cursor := c.takeBreak.2

/-- The place after a comment, if one stands in front. -/
def skipComment (c : Cursor) : Cursor :=
  if c.isAt '#' then c.dropWhile (!isBreak ·) else c

/-- The place after the rest of this line, which may hold blanks and a comment, but nothing else. -/
def endLine? (c : Cursor) : Option Cursor :=
  let c := (c.dropWhile isBlank).skipComment
  if isBreakOrEnd c.head? then some c.skipBreak else none

/-- Whether three times the character `x`, as a word of its own, starts this line. -/
def startsWithThree (c : Cursor) (x : Char) : Bool :=
  c.column == 0 && [x, x, x].isPrefixOf c.rest && isGapOrEnd (c.ahead? 3)

/-- Whether this line starts or ends a document. -/
def isAtMarker (c : Cursor) : Bool :=
  c.startsWithThree '-' || c.startsWithThree '.'

end Cursor

end Rendezvous.Yaml
