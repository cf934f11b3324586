import Rendezvous.Table
import Rendezvous.Yaml.Layout
import Rendezvous.Yaml.Node

/-!
# Documents of YAML

The tokens of a text make up its documents. Of a text with one document this is its root, and a text
without any counts as one with an empty root. Everything else is no document.

A reference is to an anchor that came before it. An anchor gets the count of the names of anchors so
far, so names that are given again may get a number that another name gets later.
-/

namespace Rendezvous.Yaml

/-- The tokens of a document that have not been read, and the names that were given before them. -/
structure Unread where
  /-- The tokens. -/
  tokens : List Token
  /-- What handles stand for. -/
  handles : List (String × Tag) := []
  /-- The anchors. -/
  anchors : Table Nat := {}
deriving Repr, Inhabited

/-- Reading from the tokens of a document. -/
abbrev TokenReader := StateT Unread Option

namespace TokenReader

/-- The token in front. -/
def peek : TokenReader (Option Token) :=
  fun s => some (s.tokens.head?, s)

/-- Drop the token in front. -/
def drop : TokenReader Unit :=
  fun s => some ((), { s with tokens := s.tokens.tail })

/-- Drop the token in front if it is `t`, and tell whether it is. -/
def accept (t : Token) : TokenReader Bool := do
  if (← peek) = some t then drop; return true else return false

/-- Drop the token in front, which has to be `t`. -/
def expect (t : Token) : TokenReader Unit := do
  if ← accept t then return () else failure

/-- Whether the token in front is one of those in `ts`. -/
def isAtAny (ts : List Token) : TokenReader Bool := do
  return (← peek).any (ts.contains ·)

/-! ## Names -/

/-- Give a node the name of an anchor. -/
def nameNode (name : String) : TokenReader Nat :=
  fun s => some (s.anchors.size, { s with anchors := s.anchors.put name s.anchors.size })

/-- The anchor of a name. -/
def anchorOf (name : String) : TokenReader Nat :=
  fun s => (s.anchors.get? name).map (·, s)

/-- The tag that a handle and the rest of a tag stand for. -/
def fullTag (handle : String) (tail : Tag) : TokenReader Tag :=
  if handle.isEmpty then return tail
  else fun s => (s.handles.lookup handle).map fun start => (start ++ tail, s)

/-- Read an anchor. -/
def readAnchor : TokenReader (Option String) := do
  match ← peek with
  | some (.anchor name) => drop; return some name
  | _ => return none

/-- Read a tag. -/
def readTag : TokenReader (Option Tag) := do
  match ← peek with
  | some (.tag handle tail) => drop; return some (← fullTag handle tail)
  | _ => return none

/-- Read the anchor and the tag of a node, in either order. -/
def readProperties : TokenReader (Option String × Option Tag) := do
  match ← readAnchor with
  | some name => return (some name, ← readTag)
  | none =>
    match ← readTag with
    | some tag => return (← readAnchor, some tag)
    | none => return (none, none)

/-! ## Nodes -/

/-- The tokens before which the key or the value of a mapping in a block is missing. -/
def blockEnds : List Token := [.key, .value, .blockEnd]

mutual

/-- Read a node. `inBlock` tells whether it may be a block, and `mayAlign` whether it may be a list
whose dashes are not indented. -/
def readNode (inBlock mayAlign : Bool) : Nat → TokenReader Node
  | 0 => failure
  | fuel + 1 => do
    match ← peek with
    | some (.alias name) => drop; return .alias (← anchorOf name)
    | _ =>
      let (name, tag) ← readProperties
      let a ← name.mapM nameNode
      match ← peek with
      | some (.scalar text style) =>
        drop
        return .scalar a text style (tag.filter (· ≠ Tag.nonSpecific))
      | some .listStart => drop; return .list a (← readFlowItems true fuel)
      | some .mapStart => drop; return .map a (← readFlowEntries true fuel)
      | t =>
        if t = some .item ∧ mayAlign then return .list a (← readAlignedItems fuel)
        else if t = some .blockListStart ∧ inBlock then
          drop
          return .list a (← readItems fuel)
        else if t = some .blockMapStart ∧ inBlock then
          drop
          return .map a (← readEntries fuel)
        else if name.isSome ∨ tag.isSome then return .scalar a "" .plain tag
        else failure

/-- Read the items of a list in a block. -/
def readItems : Nat → TokenReader (List Node)
  | 0 => failure
  | fuel + 1 => do
    if ← accept .blockEnd then return []
    expect .item
    let n ← if ← isAtAny [.item, .blockEnd] then pure .empty else readNode true false fuel
    return n :: (← readItems fuel)

/-- Read the items of a list that is no block of its own. -/
def readAlignedItems : Nat → TokenReader (List Node)
  | 0 => failure
  | fuel + 1 => do
    if ← accept .item then
      let n ← if ← isAtAny (.item :: blockEnds) then pure .empty else readNode true false fuel
      return n :: (← readAlignedItems fuel)
    else return []

/-- Read the entries of a mapping in a block. -/
def readEntries : Nat → TokenReader (List (Node × Node))
  | 0 => failure
  | fuel + 1 => do
    if ← accept .blockEnd then return []
    expect .key
    let k ← if ← isAtAny blockEnds then pure .empty else readNode true true fuel
    let v ←
      if ← accept .value then
        if ← isAtAny blockEnds then pure .empty else readNode true true fuel
      else pure .empty
    return (k, v) :: (← readEntries fuel)

/-- Read the value of a key between brackets or braces, if there is one. -/
def readFlowValue (closing : Token) : Nat → TokenReader Node
  | 0 => failure
  | fuel + 1 => do
    if ← accept .value then
      if ← isAtAny [.comma, closing] then return .empty else readNode false false fuel
    else return .empty

/-- Read the items of a list between brackets. An item may be a key with its value, which stands for
a mapping. If such a key is missing, the token in its place is dropped. -/
def readFlowItems (isFirst : Bool) : Nat → TokenReader (List Node)
  | 0 => failure
  | fuel + 1 => do
    if ← accept .listEnd then return []
    unless isFirst do expect .comma
    if ← accept .listEnd then return []
    let n ←
      if ← accept .key then
        let k ←
          if ← isAtAny [.value, .comma, .listEnd] then drop; pure .empty
          else readNode false false fuel
        pure (.map none [(k, ← readFlowValue .listEnd fuel)])
      else readNode false false fuel
    return n :: (← readFlowItems false fuel)

/-- Read the entries of a mapping between braces. -/
def readFlowEntries (isFirst : Bool) : Nat → TokenReader (List (Node × Node))
  | 0 => failure
  | fuel + 1 => do
    if ← accept .mapEnd then return []
    unless isFirst do expect .comma
    if ← accept .mapEnd then return []
    let e ←
      if ← accept .key then
        let k ←
          if ← isAtAny [.value, .comma, .mapEnd] then pure .empty else readNode false false fuel
        pure (k, ← readFlowValue .mapEnd fuel)
      else pure (← readNode false false fuel, .empty)
    return e :: (← readFlowEntries false fuel)

end

/-! ## Documents -/

/-- The handles that every document has. -/
def standardHandles : List (String × Tag) :=
  [("!", Tag.nonSpecific), ("!!", Tag.core)]

/-- Read the directives of a document. Only one may give a version, which has to be known, and no
two may be for one handle. -/
def readDirectives (hasVersion : Bool) : List Token → TokenReader Unit
  | .version major minor :: ts => do
    if hasVersion ∨ major ≠ 1 ∨ (minor ≠ 1 ∧ minor ≠ 2) then failure
    drop
    readDirectives true ts
  | .handle name start :: ts => do
    if ((← get).handles.lookup name).isSome then failure
    modify fun s => { s with handles := s.handles ++ [(name, start)] }
    drop
    readDirectives hasVersion ts
  | _ => pure ()

/-- Whether a directive or a mark between documents begins here. -/
def isAtBoundary : TokenReader Bool := do
  match ← peek with
  | none => return true
  | some (.version ..) => return true
  | some (.handle ..) => return true
  | some t => return t = .documentStart ∨ t = .documentEnd

/-- Drop the marks after a document. -/
def dropEnds : TokenReader Unit :=
  fun s => some ((), { s with tokens := s.tokens.dropWhile (· == .documentEnd) })

/-- Read the root of the only document. -/
def readDocument (fuel : Nat) : TokenReader Node := do
  if (← peek).isNone then return .empty
  if (← isAtBoundary) ∧ (← peek) ≠ some .documentEnd then
    readDirectives false (← get).tokens
    modify fun s => { s with handles := s.handles ++ standardHandles }
    expect .documentStart
    let n ← if ← isAtBoundary then pure .empty else readNode true false fuel
    dropEnds
    return n
  else
    modify fun s => { s with handles := standardHandles }
    let n ← readNode true false fuel
    dropEnds
    return n

end TokenReader

/-- The root of the only document that tokens make up. -/
def Node.ofTokens? (ts : List Token) : Option Node :=
  match TokenReader.readDocument (3 * ts.length + 3) { tokens := ts } with
  | some (n, s) => if s.tokens.isEmpty then some n else none
  | none => none

/-- Read a text that holds at most one document. -/
def read? (text : String) : Option Node :=
  (tokens? text).bind Node.ofTokens?

end Rendezvous.Yaml
