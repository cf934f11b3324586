import Rendezvous.Json.Value

/-!
# Writing JSON

Two layouts: everything on one line, or one item a line with two spaces of indentation a level. A
string escapes the quote, the backslash and the control characters.
-/

namespace Rendezvous.Json

/-- A digit in base sixteen. -/
def hexDigit (n : Nat) : Char :=
  if n < 10 then Char.ofNat ('0'.toNat + n) else Char.ofNat ('a'.toNat + (n - 10))

/-- One character as it stands in a string. -/
def writtenChar (c : Char) : List Char :=
  match c with
  | '"' => ['\\', '"']
  | '\\' => ['\\', '\\']
  | '\n' => ['\\', 'n']
  | '\r' => ['\\', 'r']
  | '\t' => ['\\', 't']
  | '\x08' => ['\\', 'b']
  | '\x0c' => ['\\', 'f']
  | c =>
    if c.toNat < 0x20 then ['\\', 'u', '0', '0', hexDigit (c.toNat / 16), hexDigit (c.toNat % 16)]
    else [c]

/-- A string with its quotes. -/
def writeText (s : String) : String :=
  "\"" ++ String.ofList (s.toList.flatMap writtenChar) ++ "\""

/-- A number with its sign, point and exponent. -/
def writeNumber (n : Number) : String :=
  let sign := if n.negative then "-" else ""
  let point := match n.fraction with
    | some digits => "." ++ String.ofList digits
    | none => ""
  let power := match n.exponent with
    | some e => "e" ++ toString e
    | none => ""
  sign ++ toString n.whole ++ point ++ power

/-- An opening bracket, items between commas, a closing bracket. -/
def enclose (opening closing : String) (items : List String) : String :=
  opening ++ ",".intercalate items ++ closing

mutual

/-- A value on one line. A string that is broken is written empty. -/
def write : Json → String
  | .null => "null"
  | .bool true => "true"
  | .bool false => "false"
  | .number n => writeNumber n
  | .text s => writeText (s.getD "")
  | .list items => enclose "[" "]" (writeItems items)
  | .object members => enclose "\x7b" "\x7d" (writeMembers members)

/-- The items of an array. -/
def writeItems : List Json → List String
  | [] => []
  | item :: items => write item :: writeItems items

/-- The members of an object. -/
def writeMembers : List (Option String × Json) → List String
  | [] => []
  | (key, value) :: members =>
    (writeText (key.getD "") ++ ":" ++ write value) :: writeMembers members

end

/-- A line feed and the indentation of a level. -/
def newline (level : Nat) : String :=
  "\n" ++ String.ofList (List.replicate (2 * level) ' ')

/-- Brackets around items that stand on lines of their own, one level further in. -/
def encloseLines (level : Nat) (opening closing : String) : List String → String
  | [] => opening ++ closing
  | items =>
    opening ++ newline (level + 1) ++ ("," ++ newline (level + 1)).intercalate items ++
      newline level ++ closing

mutual

/-- A value over several lines, where the first stands at a level of indentation. -/
def writeLines (level : Nat) : Json → String
  | .list items => encloseLines level "[" "]" (writeItemLines (level + 1) items)
  | .object members => encloseLines level "\x7b" "\x7d" (writeMemberLines (level + 1) members)
  | value => write value

/-- The items of an array, each over several lines. -/
def writeItemLines (level : Nat) : List Json → List String
  | [] => []
  | item :: items => writeLines level item :: writeItemLines level items

/-- The members of an object, each over several lines. -/
def writeMemberLines (level : Nat) : List (Option String × Json) → List String
  | [] => []
  | (key, value) :: members =>
    (writeText (key.getD "") ++ ": " ++ writeLines level value) :: writeMemberLines level members

end

end Rendezvous.Json
