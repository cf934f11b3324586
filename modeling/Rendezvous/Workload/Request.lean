import Rendezvous.Shell.Command

/-!
# Requests

A command together with the container it is for, and the words by which the cluster's own tool is
asked to run it.
-/

namespace Rendezvous

/-- A command for one container of one node. -/
structure Request where
  /-- The node. -/
  node : String
  /-- The container. -/
  container : String
  /-- The namespace of the node. -/
  space : String
  /-- The command. -/
  command : Command
deriving DecidableEq, Repr

namespace Request

/-- A command for the container of the node itself. -/
def main (p : Peer) (command : Command) : Request :=
  ⟨p.nodeName, p.container, p.space, command⟩

/-- A command for the container in which the node is configured. -/
def setup (p : Peer) (command : Command) : Request :=
  ⟨p.nodeName, p.setupContainer, p.space, command⟩

/-- The arguments by which the cluster tool runs a request. -/
def execArgs (r : Request) : List String :=
  ["exec", "-n", r.space, r.node, "-c", r.container, "--"] ++ r.command.argv

end Request

end Rendezvous
