import Rendezvous.Failure
import Rendezvous.Table
import Rendezvous.Time.Clock
import Rendezvous.Workload.Request

/-!
# Scripted clusters

A cluster that answers commands from a script and keeps a record of them: what each node answers to
the two probes, which commands fail and how often, and how long a command takes. A command that
writes is remembered and answered with what it would print.
-/

namespace Rendezvous

/-- A cluster with a script. -/
structure ScriptedCluster where
  /-- The answers to the probe for an identifier. -/
  ids : Table String := {}
  /-- The answers to the probe for an IP address. -/
  ips : Table String := {}
  /-- The failures of any command on a node, and how often they still occur if not always. -/
  failures : Table (ExecError × Option Nat) := {}
  /-- The failures of one kind of command on a node, by node and by command. -/
  commandFailures : Table (Table ExecError) := {}
  /-- How long a command on a node takes. -/
  delays : Table Duration := {}
  /-- What was last written to a file of a node. -/
  written : Table String := {}
  /-- The addresses added to the lists of trusted peers of a node. -/
  appended : Table (List String) := {}
  /-- The commands that were answered. -/
  calls : List Request := []
deriving Repr, Inhabited

namespace ScriptedCluster

/-- The failure of a probe for which there is no script. -/
def unscripted (node : String) : ExecError :=
  .commandFailed (some 1) s!"nothing scripted for {node}"

/-- Let one kind of command on a node fail. -/
def failCommand (c : ScriptedCluster) (node command : String) (e : ExecError) : ScriptedCluster :=
  let failures := (c.commandFailures.get? node).getD {}
  { c with commandFailures := c.commandFailures.put node (failures.put command e) }

/-- The failure that a command on a node meets whatever it is, and the cluster after it. -/
def meetFailure? (c : ScriptedCluster) (node : String) : Option (ExecError × ScriptedCluster) :=
  match c.failures.get? node with
  | some (e, none) => some (e, c)
  | some (e, some (n + 1)) => some (e, { c with failures := c.failures.put node (e, some n) })
  | _ => none

/-- The failure that a kind of command on a node meets. -/
def meetCommandFailure? (c : ScriptedCluster) (r : Request) : Option ExecError :=
  (c.commandFailures.get? r.node).bind (·.get? r.command.name)

/-- What a command prints, and the cluster after it. -/
def output (c : ScriptedCluster) (r : Request) : Except ExecError String × ScriptedCluster :=
  match r.command with
  | .peerInfo =>
    match c.ids.get? r.node with
    | some id => (.ok id, c)
    | none => (.error (unscripted r.node), c)
  | .nodeIp =>
    match c.ips.get? r.node with
    | some ip => (.ok ip, c)
    | none => (.error (unscripted r.node), c)
  | .writeFile content _ => (.ok content, { c with written := c.written.put r.node content })
  | .envVarFile .. => (.ok "", c)
  | .appendTrustedPeer address _ =>
    let list := (c.appended.get? r.node).getD [] ++ [address]
    (.ok (",".intercalate list), { c with appended := c.appended.put r.node list })

/-- Answer a command. A failure of the node comes before a failure of the command. -/
def answer (c : ScriptedCluster) (r : Request) : Except ExecError String × ScriptedCluster :=
  let c := { c with calls := c.calls ++ [r] }
  match c.meetFailure? r.node with
  | some (e, c) => (.error e, c)
  | none =>
    match c.meetCommandFailure? r with
    | some e => (.error e, c)
    | none => c.output r

end ScriptedCluster

/-- The course of a command that takes time and may be bounded. -/
inductive CallCourse where
  /-- It is answered at once. -/
  | atOnce
  /-- Its time is over before it starts. -/
  | expiredAtOnce (limit : Duration)
  /-- It is answered when a timer goes off. -/
  | answeredAt (tick : Nat)
  /-- Its time is over when a timer goes off. -/
  | expiredAt (tick : Nat) (limit : Duration)
deriving DecidableEq, Repr

/-- The course of a command that starts now. If it ends when its time is over, it is answered. -/
def CallCourse.of (now : Instant) (delay limit : Option Duration) : CallCourse :=
  match delay with
  | none => .atOnce
  | some delay =>
    let due := Instant.tick (now + delay.nanos)
    if Instant.hasReached now due then .atOnce
    else
      match limit with
      | none => .answeredAt due
      | some limit =>
        let expiry := Instant.tick (now + limit.nanos)
        if Instant.hasReached now expiry then .expiredAtOnce limit
        else if due ≤ expiry then .answeredAt due
        else .expiredAt expiry limit

end Rendezvous
