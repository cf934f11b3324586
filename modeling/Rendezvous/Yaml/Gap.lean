import Rendezvous.Yaml.Cursor

/-!
# Gaps between words

A scalar that is not a block may go over several lines. Between two of its words, blanks on one line
stand for themselves; a line break, with the blanks around it, stands for a space; and of several
line breaks all but the first one are kept.
-/

namespace Rendezvous.Yaml

/-- What stands between two words of a scalar. -/
structure Gap where
  /-- The blanks, as long as there is no line break. -/
  blanks : List Char := []
  /-- Whether a new line begins in it. -/
  isBroken : Bool := false
  /-- The first line break. One that is escaped is empty. -/
  first : List Char := []
  /-- The other line breaks. -/
  others : List Char := []
deriving DecidableEq, Repr, Inhabited

namespace Gap

/-- The gap with one more blank. Blanks at the end and at the start of a line do not count. -/
def addBlank (g : Gap) (x : Char) : Gap :=
  if g.isBroken then g else { g with blanks := g.blanks ++ [x] }

/-- The gap with one more line break. -/
def addBreak (g : Gap) (text : List Char) : Gap :=
  if g.isBroken then { g with others := g.others ++ text }
  else { isBroken := true, first := text }

/-- What a gap stands for. -/
def text (g : Gap) : List Char :=
  if !g.isBroken then g.blanks
  else if g.first = ['\n'] then (if g.others.isEmpty then [' '] else g.others)
  else g.first ++ g.others

/-- Read the rest of a gap. A tab may not stand where the indentation, of `floor` columns, is
expected. -/
def extend? (floor : Nat) (g : Gap) : Nat → Cursor → Option (Gap × Cursor)
  | 0, _ => none
  | fuel + 1, c =>
    match c.head? with
    | none => some (g, c)
    | some x =>
      if isBlank x then
        if g.isBroken && c.column < floor && x == '\t' then none
        else (g.addBlank x).extend? floor fuel (c.skip 1)
      else if isBreak x then (g.addBreak c.takeBreak.1).extend? floor fuel c.skipBreak
      else some (g, c)

/-- Read a gap. -/
def read? (floor : Nat) (c : Cursor) : Option (Gap × Cursor) :=
  extend? floor {} c.span c

end Gap

end Rendezvous.Yaml
