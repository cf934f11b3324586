import Rendezvous.Address.Basic
import Rendezvous.Failure
import Rendezvous.Peer.Config
import Rendezvous.Workload.Request

/-!
# Propagation

Telling every member of a group the address of every other member. Each ordered pair of members of
which the first one has a usable address gives one write to the second one. The writes run side by
side and end in any order; a propagation counts them as they end, until none is left or it is
stopped.
-/

namespace Rendezvous

/-- One write of a member's address to another member. -/
structure TrustWrite where
  /-- The member whose address is written. -/
  source : String
  /-- The command for the other member. -/
  request : Request
deriving DecidableEq, Repr

/-- How a write ended. -/
inductive TrustOutcome where
  /-- The address is listed. -/
  | written
  /-- The command failed. -/
  | failed (e : ExecError)
  /-- The task that ran the command is gone. -/
  | crashed
deriving DecidableEq, Repr

namespace TrustOutcome

/-- The outcome of a write by the answer to its command. -/
def ofAnswer : Except ExecError String → TrustOutcome
  | .ok _ => .written
  | .error e => .failed e

end TrustOutcome

/-- A write that failed. -/
structure TrustFailure where
  /-- The member whose address was to be written. -/
  source : String
  /-- The member to which it was to be written. -/
  target : String
  /-- The failure of the command. -/
  error : ExecError
deriving DecidableEq, Repr

/-- What came of a propagation. -/
structure PropagationReport where
  /-- The writes that there were to do. -/
  attempted : Nat := 0
  /-- The writes that succeeded. -/
  succeeded : Nat := 0
  /-- The writes that failed. -/
  failures : List TrustFailure := []
  /-- Whether the propagation was stopped. -/
  cancelled : Bool := false
deriving DecidableEq, Repr

namespace PropagationReport

/-- Whether everything was written. -/
def isComplete (r : PropagationReport) : Bool :=
  !r.cancelled && r.failures.isEmpty && r.succeeded == r.attempted

/-- Count one write that ended. A crashed one is not counted at all. -/
def count (r : PropagationReport) (w : TrustWrite) : TrustOutcome → PropagationReport
  | .written => { r with succeeded := r.succeeded + 1 }
  | .failed e => { r with failures := r.failures ++ [⟨w.source, w.request.node, e⟩] }
  | .crashed => r

end PropagationReport

namespace PeerGroup

/-- The address of a member that is passed on: the recorded one, if it begins like an address. -/
def usableAddress? (records : List (String × String)) (source : Peer) : Option String :=
  match records.find? (·.1 == source.nodeName) with
  | some (_, address) => if hasLead address then some address else none
  | none => none

/-- The writes that pass on the address of one member. -/
def writesOf (g : PeerGroup) (records : List (String × String)) (source : Peer) :
    List TrustWrite :=
  match usableAddress? records source with
  | some address =>
    (g.peers.filter fun t => t.nodeName != source.nodeName).map fun t =>
      ⟨source.nodeName, .main t (.appendTrustedPeer address g.trustedPeersDir)⟩
  | none => []

/-- All writes of a propagation. -/
def trustWrites (g : PeerGroup) (records : List (String × String)) : List TrustWrite :=
  g.peers.flatMap (g.writesOf records)

end PeerGroup

/-- A propagation that is going on. -/
structure Propagation where
  /-- The writes that have not ended, by number. -/
  running : List (Nat × TrustWrite)
  /-- The writes that have ended and are not yet counted. -/
  ended : List (TrustWrite × TrustOutcome) := []
  /-- What has been counted. -/
  report : PropagationReport
deriving DecidableEq, Repr

namespace Propagation

/-- Start all writes. -/
def start (writes : List TrustWrite) : Propagation :=
  { running := writes.zipIdx.map fun w => (w.2, w.1)
    report := { attempted := writes.length } }

/-- The write of a number ends. -/
def finish (p : Propagation) (id : Nat) (outcome : TrustOutcome) : Propagation :=
  match p.running.find? (·.1 == id) with
  | some (_, w) =>
    { p with
      running := p.running.filter (·.1 != id)
      ended := p.ended ++ [(w, outcome)] }
  | none => p

/-- Count the first of the writes that have ended. -/
def join? (p : Propagation) : Option Propagation :=
  match p.ended with
  | (w, outcome) :: ended => some { p with ended, report := p.report.count w outcome }
  | [] => none

/-- Count all writes that have ended. -/
def joinAll (p : Propagation) : Propagation :=
  { p with
    ended := []
    report := p.ended.foldl (fun r e => r.count e.1 e.2) p.report }

/-- Stop without waiting for anything; what has not been counted stays uncounted. -/
def stop (p : Propagation) : Propagation :=
  { p with running := [], ended := [], report := { p.report with cancelled := true } }

/-- Whether nothing is left to wait for. -/
def isOver (p : Propagation) : Bool :=
  p.running.isEmpty && p.ended.isEmpty

end Propagation

end Rendezvous
