import Rendezvous.Text.Digits
import Rendezvous.Yaml.Gap
import Rendezvous.Yaml.Token

/-!
# Scalars on the line

Scalars without quotes, and scalars in single and in double quotes. Each reader starts at the first
character after the opening quote, if there is one, and returns what the scalar stands for and the
place after it.

A scalar without quotes ends where a comment, a mapping's value, or the next entry begins, or where
a line is indented less than what belongs to its block. Quotes end at the closing quote. In single
quotes, a quote is written twice; in double quotes, a backslash begins an escape.
-/

namespace Rendezvous.Yaml

/-! ## Without quotes -/

/-- Whether a scalar without quotes may begin here. -/
def canStartPlain (inFlow : Bool) (c : Cursor) : Bool :=
  match c.head? with
  | none => false
  | some '-' => !(c.ahead? 1).any isBlank
  | some x =>
    if x == '?' || x == ':' then !inFlow && !isGapOrEnd (c.ahead? 1)
    else !isGap x && !isFlowIndicator x && !"#&*!|>'\"%@\x60".toList.contains x

/-- Read the word in front. Between brackets or braces, a colon may not stand right before one of
them. -/
def takeWord? (inFlow : Bool) : Nat → Cursor → Option (List Char × Cursor)
  | 0, _ => none
  | fuel + 1, c =>
    match c.head? with
    | none => some ([], c)
    | some x =>
      if isGap x then some ([], c)
      else if inFlow && x == ':' && (c.ahead? 1).any (fun y => y == '?' || isFlowIndicator y) then
        none
      else if (x == ':' && isGapOrEnd (c.ahead? 1)) || (inFlow && isFlowIndicator x) then
        some ([], c)
      else (takeWord? inFlow fuel (c.skip 1)).map fun r => (x :: r.1, r.2)

/-- Read the rest of a scalar without quotes, after the words in `text` and a gap. Also tells
whether the place after it is on a new line. -/
def takePlain? (inFlow : Bool) (floor : Nat) (text : List Char) (gap : Gap) :
    Nat → Cursor → Option (List Char × Bool × Cursor)
  | 0, _ => none
  | fuel + 1, c =>
    if c.isAtMarker || c.isAt '#' then some (text, gap.isBroken, c)
    else
      match takeWord? inFlow c.span c with
      | none => none
      | some ([], c) => some (text, gap.isBroken, c)
      | some (word, c) =>
        match Gap.read? floor c with
        | none => none
        | some (next, after) =>
          if after.index = c.index then some (text ++ gap.text ++ word, false, c)
          else if !inFlow && after.column < floor then
            some (text ++ gap.text ++ word, next.isBroken, after)
          else takePlain? inFlow floor (text ++ gap.text ++ word) next fuel after

/-- Read a scalar without quotes. -/
def plain? (inFlow : Bool) (floor : Nat) (c : Cursor) : Option (String × Bool × Cursor) :=
  (takePlain? inFlow floor [] {} c.span c).map fun r => (String.ofList r.1, r.2)

/-! ## In quotes -/

/-- The character of a number, unless it is no character. -/
def ofCode? (n : Nat) : Option Char :=
  if n.isValidChar then some (Char.ofNat n) else none

/-- The character that is given by the first `count` digits in base sixteen. -/
def ofDigits? (count : Nat) (cs : List Char) : Option (Char × Nat) :=
  if cs.length < count then none
  else ((Text.hexValue? (cs.take count)).bind ofCode?).map fun x => (x, count + 1)

/-- The character of an escape, after its backslash, and of how many characters the escape is. -/
def escape? : List Char → Option (Char × Nat)
  | '0' :: _ => some ('\x00', 1)
  | 'a' :: _ => some ('\x07', 1)
  | 'b' :: _ => some ('\x08', 1)
  | 't' :: _ => some ('\t', 1)
  | '\t' :: _ => some ('\t', 1)
  | 'n' :: _ => some ('\n', 1)
  | 'v' :: _ => some ('\x0b', 1)
  | 'f' :: _ => some ('\x0c', 1)
  | 'r' :: _ => some ('\r', 1)
  | 'e' :: _ => some ('\x1b', 1)
  | ' ' :: _ => some (' ', 1)
  | '"' :: _ => some ('"', 1)
  | '/' :: _ => some ('/', 1)
  | '\\' :: _ => some ('\\', 1)
  | 'N' :: _ => some ('\x85', 1)
  | '_' :: _ => some ('\xa0', 1)
  | 'L' :: _ => some ('\u2028', 1)
  | 'P' :: _ => some ('\u2029', 1)
  | 'x' :: rest => ofDigits? 2 rest
  | 'u' :: rest => ofDigits? 4 rest
  | 'U' :: rest => ofDigits? 8 rest
  | _ => none

/-- Read a scalar in single quotes, after a gap, up to the closing quote. -/
def takeSingle? (gap : Gap) : Nat → Cursor → Option (List Char × Cursor)
  | 0, _ => none
  | fuel + 1, c =>
    if c.isAtMarker then none
    else
      match c.rest with
      | [] => none
      | '\'' :: '\'' :: _ =>
        (takeSingle? {} fuel (c.skip 2)).map fun r => (gap.text ++ '\'' :: r.1, r.2)
      | '\'' :: _ => some (gap.text, c.skip 1)
      | x :: _ =>
        if isBlank x then takeSingle? (gap.addBlank x) fuel (c.skip 1)
        else if isBreak x then takeSingle? (gap.addBreak c.takeBreak.1) fuel c.skipBreak
        else (takeSingle? {} fuel (c.skip 1)).map fun r => (gap.text ++ x :: r.1, r.2)

/-- Read a scalar in double quotes, after a gap, up to the closing quote. -/
def takeDouble? (gap : Gap) : Nat → Cursor → Option (List Char × Cursor)
  | 0, _ => none
  | fuel + 1, c =>
    if c.isAtMarker then none
    else
      match c.rest with
      | [] => none
      | '"' :: _ => some (gap.text, c.skip 1)
      | '\\' :: rest =>
        if rest.head?.any isBreak then
          (takeDouble? { isBroken := true } fuel (c.skip 1).skipBreak).map fun r =>
            (gap.text ++ r.1, r.2)
        else
          match escape? rest with
          | none => none
          | some (x, n) =>
            (takeDouble? {} fuel (c.skip (n + 1))).map fun r => (gap.text ++ x :: r.1, r.2)
      | x :: _ =>
        if isBlank x then takeDouble? (gap.addBlank x) fuel (c.skip 1)
        else if isBreak x then takeDouble? (gap.addBreak c.takeBreak.1) fuel c.skipBreak
        else (takeDouble? {} fuel (c.skip 1)).map fun r => (gap.text ++ x :: r.1, r.2)

/-- Read a scalar in quotes, from its opening quote on. -/
def quoted? (c : Cursor) : Option (String × Cursor) :=
  (if c.isAt '"' then takeDouble? {} c.span (c.skip 1)
    else takeSingle? {} c.span (c.skip 1)).map fun r => (String.ofList r.1, r.2)

end Rendezvous.Yaml
