/-!
# Double quotes in a shell script

How a value is written between the double quotes of a POSIX shell, and how a shell reads it back.
Inside double quotes four characters are special; a backslash before one of them makes it ordinary.
-/

namespace Rendezvous.Shell

/-- The characters that are special between double quotes. -/
def isSpecial (c : Char) : Bool :=
  c == '"' || c == '\\' || c == '$' || c == '\x60'

/-- A value with a backslash before each special character. -/
def escapeChars : List Char → List Char
  | [] => []
  | c :: cs => if isSpecial c then '\\' :: c :: escapeChars cs else c :: escapeChars cs

/-- A value as it is written between double quotes. -/
def escape (s : String) : String :=
  String.ofList (escapeChars s.toList)

/-- How the rest of a double-quoted word reads. -/
inductive Reading where
  /-- The word ends; `value` is what it stands for and `rest` what follows its closing quote. -/
  | word (value rest : List Char)
  /-- An expansion starts inside the word. -/
  | expansion
  /-- The script ends inside the word. -/
  | unclosed
deriving DecidableEq, Repr

/-- Put a character in front of the value of a word. -/
def Reading.cons (c : Char) : Reading → Reading
  | .word value rest => .word (c :: value) rest
  | r => r

/-- Read on from inside a double-quoted word. A backslash quotes a dollar sign, a backquote, a
double quote or a backslash, and removes a line feed; before anything else it stands for itself. -/
def readQuoted : List Char → Reading
  | [] => .unclosed
  | '"' :: rest => .word [] rest
  | '$' :: _ => .expansion
  | '\x60' :: _ => .expansion
  | ['\\'] => .unclosed
  | '\\' :: c :: rest =>
    if isSpecial c then (readQuoted rest).cons c
    else if c = '\n' then readQuoted rest
    else ((readQuoted rest).cons c).cons '\\'
  | c :: rest => (readQuoted rest).cons c

/-- A part of a script. -/
inductive Piece where
  /-- Fixed text. -/
  | text (s : String)
  /-- A value between double quotes. -/
  | field (value : String)
deriving DecidableEq, Repr

/-- A part of a script as it is written. -/
def Piece.render : Piece → String
  | .text s => s
  | .field value => escape value

/-- A script from its parts. -/
def render (pieces : List Piece) : String :=
  String.join (pieces.map Piece.render)

end Rendezvous.Shell
