/-!
# Pieces of a text

Searching and splitting of texts at a fixed pattern, on their lists of characters.
-/

namespace Rendezvous.Text

/-- Whether `pattern` stands somewhere in `cs`. -/
def occurs (pattern : List Char) : List Char → Bool
  | [] => pattern.isEmpty
  | c :: cs => pattern.isPrefixOf (c :: cs) || occurs pattern cs

/-- Whether the text `pattern` stands somewhere in the text `s`. -/
def contains (s pattern : String) : Bool :=
  occurs pattern.toList s.toList

/-- Whether the text `s` begins with the text `pattern`. -/
def startsWith (s pattern : String) : Bool :=
  pattern.toList.isPrefixOf s.toList

/-- What stands before and after the last place where `pattern` begins, if there is one. -/
def splitLast? (pattern : List Char) : List Char → Option (List Char × List Char)
  | [] => if pattern.isEmpty then some ([], []) else none
  | c :: cs =>
    match splitLast? pattern cs with
    | some (before, after) => some (c :: before, after)
    | none =>
      if pattern.isPrefixOf (c :: cs) then some ([], (c :: cs).drop pattern.length) else none

/-- The pieces of a list of characters between the separators, at least one. -/
def splitAt (separator : Char) : List Char → List (List Char)
  | [] => [[]]
  | c :: cs =>
    if c = separator then [] :: splitAt separator cs
    else
      match splitAt separator cs with
      | [] => [[c]]
      | piece :: pieces => (c :: piece) :: pieces

/-- The lines of a script, joined by line feeds. -/
def unlines (lines : List String) : String :=
  "\n".intercalate lines

/-- A text without the trailing run of the character `c`. -/
def dropTrailing (c : Char) (s : String) : String :=
  String.ofList ((s.toList.reverse.dropWhile (· == c)).reverse)

/-- A text without one final `ending`, if it has it. -/
def dropEnding (s ending : String) : String :=
  if ending.toList.isSuffixOf s.toList then
    String.ofList (s.toList.take (s.length - ending.length))
  else s

end Rendezvous.Text
