/-!
# Registry of addresses

The addresses that have been resolved, for an exporter to publish. Each address belongs to the node
that registered it first.
-/

namespace Rendezvous

/-- One registered address. -/
structure Registration where
  /-- The service that publishes it. -/
  service : String
  /-- The node. -/
  node : String
  /-- Its address. -/
  address : String
  /-- The namespace of the node. -/
  space : String
deriving DecidableEq, Repr

/-- Addresses with the nodes that registered them. -/
structure Registry where
  /-- The name under which the addresses are published. -/
  service : String := "peering-controller"
  /-- One registration for each address, in the order in which they came. -/
  entries : List Registration := []
deriving DecidableEq, Repr

namespace Registry

/-- Register an address of a node, unless it is empty or known. -/
def register (r : Registry) (node address space : String) : Registry :=
  if address.isEmpty || r.entries.any (·.address == address) then r
  else { r with entries := r.entries ++ [⟨r.service, node, address, space⟩] }

/-- The order in which registrations are published: by node, then by address. -/
def before (x y : Registration) : Bool :=
  if x.node = y.node then !(decide (y.address < x.address)) else decide (x.node < y.node)

/-- All registrations, by node and address. -/
def snapshot (r : Registry) : List Registration :=
  r.entries.mergeSort before

/-- How many addresses are registered. -/
def size (r : Registry) : Nat := r.entries.length

end Registry

end Rendezvous
