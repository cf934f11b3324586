import Rendezvous.Proofs.Pool.Alone
import Rendezvous.Proofs.Queue.Tallies

/-!
# The budget of an item

All attempts at an item share one ledger. What one of them has noted or recorded is there for the
next, so each attempt starts at most one command that brings nothing to keep, and every other one is
paid for by a finding. An item has only few findings to make: the identifier and the address of its own
peer and of each dependency.
-/

namespace Rendezvous

open Routine

/-! ## The terms of an item -/

/-- With a finding, a peer need not ask for something any more. The own address is not looked for among
the dependencies, so it is of no use to a peer that depends on itself. -/
def Finding.Answers (x : Peer) (r : Request) : Finding → Prop
  | .id node => r.node = node ∧ r.command = .peerInfo
  | .own node => r.node = node ∧ r.command = .nodeIp ∧ ¬ x.Lists node
  | .record node => r.node = node ∧ (r.command = .peerInfo ∨ r.command = .nodeIp)

namespace Peer

variable {x : Peer} {B : Belief}

end Peer

namespace Workshop

variable {w : World} {s : Settings} {policy : RetryPolicy} {B : Belief} {T : Terms} {m : Memory}
  {c : Workshop} {log : List WorkshopEvent}

end Workshop

end Rendezvous
