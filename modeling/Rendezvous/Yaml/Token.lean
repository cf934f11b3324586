/-!
# Tokens of YAML

A YAML text is a list of tokens: scalars, indicators, and the starts and ends of the blocks that
indentation makes. The place of a token matters no more once the blocks are known.
-/

namespace Rendezvous.Yaml

/-- How a scalar is written. -/
inductive ScalarStyle where
  /-- As it is, without quotes. -/
  | plain
  /-- In single or double quotes. -/
  | quoted
  /-- As a block whose line breaks are kept. -/
  | literal
  /-- As a block whose lines are joined. -/
  | folded
deriving DecidableEq, Repr, Inhabited

/-- The name of a type, as bytes, since escapes in it may stand for bytes that are no text. -/
abbrev Tag := List UInt8

/-- A token. -/
inductive Token where
  /-- The version of the language that a document is written in. -/
  | version (major minor : Nat)
  /-- A handle that abbreviates the start of tags. -/
  | handle (name : String) (start : Tag)
  /-- The mark before a document. -/
  | documentStart
  /-- The mark after a document. -/
  | documentEnd
  /-- A list begins that is told by its indentation. -/
  | blockListStart
  /-- A mapping begins that is told by its indentation. -/
  | blockMapStart
  /-- A list or mapping ends that is told by its indentation. -/
  | blockEnd
  /-- An opening bracket. -/
  | listStart
  /-- A closing bracket. -/
  | listEnd
  /-- An opening brace. -/
  | mapStart
  /-- A closing brace. -/
  | mapEnd
  /-- A comma. -/
  | comma
  /-- The dash before an item. -/
  | item
  /-- A key follows. -/
  | key
  /-- A value follows. -/
  | value
  /-- A reference to the node with that anchor. -/
  | alias (name : String)
  /-- The name of the node that follows. -/
  | anchor (name : String)
  /-- The type of the node that follows: what its handle stands for, and this. -/
  | tag (handle : String) (tail : Tag)
  /-- A scalar. -/
  | scalar (text : String) (style : ScalarStyle)
deriving DecidableEq, Repr, Inhabited

end Rendezvous.Yaml
