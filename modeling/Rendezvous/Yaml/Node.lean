import Rendezvous.Yaml.Token

/-!
# Nodes of YAML documents

A document is a tree of scalars, lists and mappings. A node may have an anchor, and a reference
stands for the node with its anchor, wherever that node is: anchors are numbers here, and the last
node with a number is the one that is referred to.
-/

namespace Rendezvous.Yaml

/-- A node of a document. -/
inductive Node where
  /-- A scalar: what it stands for, how it is written, and its type if that is given. -/
  | scalar (anchor : Option Nat) (text : String) (style : ScalarStyle) (tag : Option Tag)
  /-- A list. -/
  | list (anchor : Option Nat) (items : List Node)
  /-- A mapping, in the order of the text. -/
  | map (anchor : Option Nat) (entries : List (Node × Node))
  /-- A reference to the node with an anchor. -/
  | alias (anchor : Nat)
deriving Repr, Inhabited

namespace Node

/-- What stands where a node is missing. -/
def empty : Node := .scalar none "" .plain none

mutual

/-- How many marks a node consists of: one for a scalar or a reference, and two around the parts of
a collection. -/
def size : Node → Nat
  | .scalar .. => 1
  | .alias _ => 1
  | .list _ items => 2 + sizeItems items
  | .map _ entries => 2 + sizeEntries entries

/-- The sizes of the items of a list. -/
def sizeItems : List Node → Nat
  | [] => 0
  | n :: ns => n.size + sizeItems ns

/-- The sizes of the keys and values of a mapping. -/
def sizeEntries : List (Node × Node) → Nat
  | [] => 0
  | (k, v) :: es => k.size + v.size + sizeEntries es

end

/-- The anchor of a node. -/
def anchor? : Node → Option Nat
  | .scalar a .. => a
  | .list a _ => a
  | .map a _ => a
  | .alias _ => none

mutual

/-- The node that a reference to `a` stands for: the last one with that anchor. -/
def find? (a : Nat) (n : Node) : Option Node :=
  let inside :=
    match n with
    | .list _ items => findInItems? a items
    | .map _ entries => findInEntries? a entries
    | _ => none
  inside <|> (if n.anchor? = some a then some n else none)

/-- The last node with an anchor in the items of a list. -/
def findInItems? (a : Nat) : List Node → Option Node
  | [] => none
  | n :: ns => findInItems? a ns <|> n.find? a

/-- The last node with an anchor in the keys and values of a mapping. -/
def findInEntries? (a : Nat) : List (Node × Node) → Option Node
  | [] => none
  | (k, v) :: es => findInEntries? a es <|> v.find? a <|> k.find? a

end

end Node

end Rendezvous.Yaml
