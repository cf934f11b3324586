import Rendezvous.Text.Blank

/-!
# Peers

A peer is a node that runs in a workload: its name, which is also the name of its pod, the
containers in which commands run, and the dependencies it is to connect to. Descriptors come from
the configuration and are not changed afterwards, except that empty container names and namespaces
are filled in by defaults.
-/

namespace Rendezvous

/-- The kind of node in a workload. -/
inductive NodeType where
  /-- A node with one dependency, usually injected as an environment value. -/
  | consensus
  /-- A data availability node, which may have several dependencies. -/
  | da
deriving DecidableEq, Repr, Inhabited

namespace NodeType

/-- The name of a node type in configurations. -/
def name : NodeType → String
  | .consensus => "consensus"
  | .da => "da"

/-- The node type of a name. -/
def ofName? (s : String) : Option NodeType :=
  if s = "da" then some .da else if s = "consensus" then some .consensus else none

/-- Whether nodes of this type make their own address known. -/
def advertises : NodeType → Bool
  | .da => true
  | .consensus => false

/-- The default container of a node. -/
def container : NodeType → String
  | .da => "da"
  | .consensus => "consensus"

/-- The default container in which a node is configured. -/
def setupContainer : NodeType → String
  | .da => "da-setup"
  | .consensus => "consensus-setup"

end NodeType

/-- The descriptor of a node. -/
structure Peer where
  /-- The name of the node and of its pod. -/
  nodeName : String
  /-- The kind of node. -/
  nodeType : NodeType := .da
  /-- The container of the node itself. -/
  container : String := ""
  /-- The container in which the node is configured. -/
  setupContainer : String := ""
  /-- Whether the one dependency is injected as an environment value. -/
  connectsAsEnvVar : Bool := false
  /-- The dependencies, as node names or as addresses. -/
  connectsTo : List String := []
  /-- DNS names that stand, by position, for the hosts of the dependencies. -/
  dnsConnections : List String := []
  /-- The namespace of the workload. -/
  space : String := ""
deriving DecidableEq, Repr, Inhabited

namespace Peer

/-- A text, or the one that stands for it when it is empty. -/
def orElse (s fallback : String) : String :=
  if s.isEmpty then fallback else s

/-- The peer with its empty container names and namespace filled in. -/
def withDefaults (p : Peer) (space : String) : Peer :=
  { p with
    container := orElse p.container p.nodeType.container
    setupContainer := orElse p.setupContainer p.nodeType.setupContainer
    space := orElse p.space space }

/-- The DNS name set for the dependency at a position. An empty one counts as none. -/
def dnsFor? (p : Peer) (i : Nat) : Option String :=
  match p.dnsConnections[i]? with
  | some name => if name.isEmpty then none else some name
  | none => none

end Peer

end Rendezvous
