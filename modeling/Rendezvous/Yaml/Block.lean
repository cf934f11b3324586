import Rendezvous.Yaml.Cursor

/-!
# Block scalars

A scalar that is written as lines of its own, indented more than what it belongs to. A header tells
whether its lines are kept or joined, how many columns of indentation do not belong to it, and what
becomes of the line breaks at its end.
-/

namespace Rendezvous.Yaml

/-- What becomes of the line breaks at the end. -/
inductive Ending where
  /-- All are dropped. -/
  | strip
  /-- One is kept. -/
  | clip
  /-- All are kept. -/
  | keep
deriving DecidableEq, Repr, Inhabited

/-- The ending that a sign asks for. -/
def Ending.ofSign? (x : Char) : Option Ending :=
  if x = '-' then some .strip else if x = '+' then some .keep else none

/-- What a header asks for. -/
structure BlockHeader where
  /-- What becomes of the line breaks at the end. -/
  ending : Ending := .clip
  /-- How far the scalar is indented, if the header says so. -/
  indentation : Option Nat := none
deriving DecidableEq, Repr, Inhabited

namespace BlockHeader

/-- Read a sign and a digit, each of which may be missing, in either order. No digit is zero. -/
def read? (c : Cursor) : Option (BlockHeader × Cursor) :=
  let x := (c.head?).getD ' '
  let y := (c.ahead? 1).getD ' '
  match Ending.ofSign? x with
  | some ending =>
    if y = '0' then none
    else if y.isDigit then some (⟨ending, some (y.toNat - '0'.toNat)⟩, c.skip 2)
    else some ({ ending }, c.skip 1)
  | none =>
    if x = '0' then none
    else if x.isDigit then
      let indentation := some (x.toNat - '0'.toNat)
      match Ending.ofSign? y with
      | some ending => some (⟨ending, indentation⟩, c.skip 2)
      | none => some ({ indentation }, c.skip 1)
    else some ({}, c)

end BlockHeader

/-- The place after the spaces in front, but not beyond the column of the scalar, if it is known. -/
def skipIndentation (level : Option Nat) (c : Cursor) : Cursor :=
  let spaces := (c.rest.takeWhile (· == ' ')).length
  match level with
  | some level => c.skip (min spaces (level - c.column))
  | none => c.skip spaces

/-- Read blank lines and the indentation of the line after them. Returns the line breaks and the
widest column that was reached. -/
def takeBlankLines? (level : Option Nat) (widest : Nat) :
    Nat → Cursor → Option (List Char × Nat × Cursor)
  | 0, _ => none
  | fuel + 1, c =>
    let c := skipIndentation level c
    let widest := max widest c.column
    if c.isAt '\t' && level.all (c.column < ·) then none
    else if c.head?.any isBreak then
      (takeBlankLines? level widest fuel c.skipBreak).map fun r => (c.takeBreak.1 ++ r.1, r.2)
    else some ([], widest, c)

/-- What has been read of a block scalar: the text without the line breaks at its end, the break
that ends the last line, and the breaks of the blank lines after it. -/
structure BlockText where
  /-- The lines, joined. -/
  text : List Char := []
  /-- The break that ends the last line. -/
  lastBreak : List Char := []
  /-- The breaks of the blank lines that follow. -/
  blankLines : List Char := []
  /-- Whether the last line starts with a blank. -/
  isIndented : Bool := false
deriving Repr, Inhabited

namespace BlockText

/-- The text before the next line, of which is known whether it starts with a blank. Where lines are
joined, a break between two lines that start with no blank is a space, and is dropped before a blank
line. -/
def join (isFolded : Bool) (b : BlockText) (isIndented : Bool) : List Char :=
  let lastBreak :=
    if isFolded && b.lastBreak == ['\n'] && !b.isIndented && !isIndented then
      if b.blankLines.isEmpty then [' '] else []
    else b.lastBreak
  b.text ++ lastBreak ++ b.blankLines

/-- Read the lines of a block scalar. -/
def extend? (isFolded : Bool) (level : Nat) (b : BlockText) :
    Nat → Cursor → Option (BlockText × Cursor)
  | 0, _ => none
  | fuel + 1, c =>
    if c.column = level ∧ c.rest ≠ [] then
      let isIndented := c.head?.any isBlank
      let (line, c) := c.takeWhile (!isBreak ·)
      let (lastBreak, c) := c.takeBreak
      match takeBlankLines? (some level) 0 c.span c with
      | none => none
      | some (blankLines, _, c) =>
        extend? isFolded level
          { text := b.join isFolded isIndented ++ line, lastBreak, blankLines, isIndented } fuel c
    else some (b, c)

/-- The text with the line breaks at its end that are asked for. -/
def close (b : BlockText) : Ending → List Char
  | .strip => b.text
  | .clip => b.text ++ b.lastBreak
  | .keep => b.text ++ b.lastBreak ++ b.blankLines

end BlockText

/-- Read a block scalar, from its indicator on. The block that it belongs to is at column `parent`,
if there is one. An indentation that the header does not give is that of the first line that is not
blank, or of the widest blank line before it. -/
def block? (parent : Option Nat) (c : Cursor) : Option (String × Cursor) := do
  let isFolded := c.isAt '>'
  let (header, c) ← BlockHeader.read? (c.skip 1)
  let c ← c.endLine?
  let level := header.indentation.map (parent.getD 0 + ·)
  let (blankLines, widest, c) ← takeBlankLines? level 0 c.span c
  let floor := (parent.map (· + 1)).getD 0
  let level := level.getD (max (max widest floor) 1)
  let (b, c) ← BlockText.extend? isFolded level { blankLines } c.span c
  return (String.ofList (b.close header.ending), c)

end Rendezvous.Yaml
