import Rendezvous.Json.Value
import Rendezvous.Text.Digits

/-!
# Reading JSON

A reader for JSON documents, without extensions: no trailing commas, no comments, no byte order
mark, no leading zeros. Each function takes the characters in front of it and returns what it read
and the rest. The nesting is bounded by a counter that starts above the length of the document, so
it never runs out.
-/

namespace Rendezvous.Json

/-- The four characters that may stand between tokens. -/
def isSpace (c : Char) : Bool :=
  c == ' ' || c == '\n' || c == '\t' || c == '\r'

/-- Drop the space in front. -/
def skipSpace (cs : List Char) : List Char :=
  cs.dropWhile isSpace

/-! ## Strings -/

/-- The value of four digits in base sixteen. -/
def hex4? (a b c d : Char) : Option Nat :=
  Text.hexValue? [a, b, c, d]

/-- Whether a unit is the first half of a pair that names one character. -/
def isLeadUnit (n : Nat) : Bool := 0xD800 ≤ n && n < 0xDC00

/-- Whether a unit is the second half of a pair that names one character. -/
def isTrailUnit (n : Nat) : Bool := 0xDC00 ≤ n && n < 0xE000

/-- The character of a one-letter escape. -/
def escape? : Char → Option Char
  | '"' => some '"'
  | '\\' => some '\\'
  | '/' => some '/'
  | 'b' => some '\x08'
  | 'f' => some '\x0c'
  | 'n' => some '\n'
  | 'r' => some '\r'
  | 't' => some '\t'
  | _ => none

/-- What a string holds so far, or that it is broken, one character further. -/
def snoc (s : Option (List Char)) (c : Char) : Option (List Char) :=
  s.map (c :: ·)

/-- Read the rest of a string after its opening quote. `got` holds its characters in reverse, and
nothing once an escape was met that names no character. -/
def readChars (got : Option (List Char)) : List Char → Option (Option (List Char) × List Char)
  | '"' :: rest => some (got.map List.reverse, rest)
  | '\\' :: 'u' :: a :: b :: c :: d :: '\\' :: 'u' :: e :: f :: g :: h :: rest =>
    match hex4? a b c d with
    | none => none
    | some n =>
      if isLeadUnit n then
        match hex4? e f g h with
        | none => none
        | some m =>
          if isTrailUnit m then
            readChars (snoc got (Char.ofNat (0x10000 + (n - 0xD800) * 0x400 + (m - 0xDC00)))) rest
          else readChars none ('\\' :: 'u' :: e :: f :: g :: h :: rest)
      else if isTrailUnit n then readChars none ('\\' :: 'u' :: e :: f :: g :: h :: rest)
      else readChars (snoc got (Char.ofNat n)) ('\\' :: 'u' :: e :: f :: g :: h :: rest)
  | '\\' :: 'u' :: a :: b :: c :: d :: rest =>
    match hex4? a b c d with
    | none => none
    | some n =>
      if isLeadUnit n || isTrailUnit n then readChars none rest
      else readChars (snoc got (Char.ofNat n)) rest
  | '\\' :: c :: rest =>
    match escape? c with
    | some c => readChars (snoc got c) rest
    | none => none
  | c :: rest => if c.toNat < 0x20 || c == '\\' then none else readChars (snoc got c) rest
  | [] => none

/-- Read the rest of a string after its opening quote. -/
def readText (cs : List Char) : Option (Option String × List Char) :=
  (readChars (some []) cs).map fun r => (r.1.map String.ofList, r.2)

/-! ## Numbers -/

/-- The digits in front, and the rest. -/
def spanDigits (cs : List Char) : List Char × List Char :=
  cs.span Char.isDigit

/-- The value of a list of decimal digits. -/
def digitsValue (digits : List Char) : Nat :=
  digits.foldl (fun n c => 10 * n + (c.toNat - '0'.toNat)) 0

/-- Read the digits before the point: no zero in front of another digit. -/
def readWhole (cs : List Char) : Option (Nat × List Char) :=
  match spanDigits cs with
  | ([], _) => none
  | (['0'], rest) => some (0, rest)
  | ('0' :: _, _) => none
  | (digits, rest) => some (digitsValue digits, rest)

/-- Read a point and the digits after it, if a point stands in front. -/
def readFraction : List Char → Option (Option (List Char) × List Char)
  | '.' :: cs =>
    match spanDigits cs with
    | ([], _) => none
    | (digits, rest) => some (some digits, rest)
  | cs => some (none, cs)

/-- Read the digits of an exponent. -/
def readPower (negative : Bool) (cs : List Char) : Option (Option Int × List Char) :=
  match spanDigits cs with
  | ([], _) => none
  | (digits, rest) =>
    let n : Int := digitsValue digits
    some (some (if negative then -n else n), rest)

/-- Read an exponent, if one stands in front. -/
def readExponent : List Char → Option (Option Int × List Char)
  | c :: cs =>
    if c = 'e' ∨ c = 'E' then
      match cs with
      | '-' :: cs => readPower true cs
      | '+' :: cs => readPower false cs
      | cs => readPower false cs
    else some (none, c :: cs)
  | [] => some (none, [])

/-- Read a number after its sign. -/
def readUnsigned (negative : Bool) (cs : List Char) : Option (Json × List Char) := do
  let (whole, cs) ← readWhole cs
  let (fraction, cs) ← readFraction cs
  let (exponent, cs) ← readExponent cs
  return (.number ⟨negative, whole, fraction, exponent⟩, cs)

/-! ## Values -/

/-- Drop a word in front. -/
def readWord (word : String) (value : Json) (cs : List Char) : Option (Json × List Char) :=
  if word.toList.isPrefixOf cs then some (value, cs.drop word.length) else none

mutual

/-- Read one value, with space in front of it allowed. -/
def readValue : Nat → List Char → Option (Json × List Char)
  | 0, _ => none
  | fuel + 1, cs =>
    match skipSpace cs with
    | '"' :: rest => (readText rest).map fun r => (.text r.1, r.2)
    | '[' :: rest =>
      match skipSpace rest with
      | ']' :: rest => some (.list [], rest)
      | _ => (readItems fuel rest).map fun r => (.list r.1, r.2)
    | '\x7b' :: rest =>
      match skipSpace rest with
      | '\x7d' :: rest => some (.object [], rest)
      | _ => (readMembers fuel rest).map fun r => (.object r.1, r.2)
    | 'n' :: rest => readWord "null" .null ('n' :: rest)
    | 't' :: rest => readWord "true" (.bool true) ('t' :: rest)
    | 'f' :: rest => readWord "false" (.bool false) ('f' :: rest)
    | '-' :: rest => readUnsigned true rest
    | rest => readUnsigned false rest

/-- Read the items of an array from the first one to the closing bracket. -/
def readItems : Nat → List Char → Option (List Json × List Char)
  | 0, _ => none
  | fuel + 1, cs =>
    match readValue fuel cs with
    | none => none
    | some (item, rest) =>
      match skipSpace rest with
      | ',' :: rest => (readItems fuel rest).map fun r => (item :: r.1, r.2)
      | ']' :: rest => some ([item], rest)
      | _ => none

/-- Read the members of an object from the first key to the closing brace. -/
def readMembers : Nat → List Char → Option (List (Option String × Json) × List Char)
  | 0, _ => none
  | fuel + 1, cs =>
    match skipSpace cs with
    | '"' :: rest =>
      match readText rest with
      | none => none
      | some (key, rest) =>
        match skipSpace rest with
        | ':' :: rest =>
          match readValue fuel rest with
          | none => none
          | some (value, rest) =>
            match skipSpace rest with
            | ',' :: rest => (readMembers fuel rest).map fun r => ((key, value) :: r.1, r.2)
            | '\x7d' :: rest => some ([(key, value)], rest)
            | _ => none
        | _ => none
    | _ => none

end

/-- Read a document: one value and nothing else but space. -/
def read? (s : String) : Option Json :=
  match readValue (2 * s.length + 2) s.toList with
  | some (value, rest) => if (skipSpace rest).isEmpty then some value else none
  | none => none

end Rendezvous.Json
