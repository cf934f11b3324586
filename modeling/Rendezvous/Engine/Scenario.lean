import Rendezvous.Engine.Simulation
import Rendezvous.Queue.Course
import Rendezvous.Resolve.Process

/-!
# Scenarios

A controller and everything around it: a configuration, a cache, a registry, a scripted cluster and
a queue whose items the controller processes. Beside the controller there is a second desk that
resolves nodes over the same cache and cluster, with memos of its own.
-/

namespace Rendezvous

/-- What a task of a scenario brings. -/
inductive Reply where
  /-- What came of resolving a node. -/
  | resolution (r : Except ResolveError Resolution)
  /-- What came of putting a connection string together. -/
  | connections (r : Except ResolveError Connections)
  /-- What came of telling a group, if there was one to tell. -/
  | report (r : Option PropagationReport)

/-- A reply as the ending of a work item. -/
def Reply.workEnding : Ending Reply → WorkEnding
  | .value (.resolution (.error e)) => .value (.error e)
  | .value _ => .value (.ok ())
  | .crashed => .crashed
  | .aborted => .aborted

instance : Workplace (Settings × Simulation Reply) where
  now s := s.2.now
  start s w :=
    let routine := (Resolve.process s.1 w.peer).run.mapValue .resolution
    (s.2.pool.tasks.length, (s.1, (s.2.spawn routine).rest))
  takeEnded s :=
    (s.2.ended.map fun i => (i, Reply.workEnding ((s.2.pool.ending? i).getD .aborted)),
      (s.1, { s.2 with ended := [] }))
  nextTick? s := s.2.nextTick?
  wakeAt s tick := (s.1, s.2.wakeAt tick)
  abort s i := (s.1, s.2.abort i)

/-- Who does the resolving. -/
inductive Desk where
  /-- The controller. -/
  | controller
  /-- The second desk. -/
  | second
deriving DecidableEq, Repr

/-- A controller and everything around it. -/
structure Scenario where
  /-- What the controller goes by. -/
  settings : Settings
  /-- How long a command may take. -/
  limit : Option Duration := none
  /-- The clock. -/
  now : Instant := 0
  /-- The cluster. -/
  cluster : ScriptedCluster := {}
  /-- The memory of the controller. -/
  memory : Memory := {}
  /-- The memos of the second desk. -/
  secondMemos : Memos := {}
  /-- When the controller begins to shut down. -/
  cancelTick : Option Nat := none
  /-- The queue, until it has been run. -/
  queue : Option RetryQueue := some {}

namespace Scenario

/-- The simulation of a desk. -/
def simulation (s : Scenario) (desk : Desk) : Simulation Reply :=
  { now := s.now
    pool :=
      { memory :=
          match desk with
          | .controller => s.memory
          | .second => { s.memory with memos := s.secondMemos } }
    cluster := s.cluster
    limit := s.limit
    cancelTick := s.cancelTick }

/-- The scenario after a simulation of a desk. -/
def after (s : Scenario) (desk : Desk) (sim : Simulation Reply) : Scenario :=
  let s := { s with now := sim.now, cluster := sim.cluster, cancelTick := sim.cancelTick }
  match desk with
  | .controller => { s with memory := sim.pool.memory }
  | .second =>
    { s with
      memory := { sim.pool.memory with memos := s.memory.memos }
      secondMemos := sim.pool.memory.memos }

/-- Run routines side by side at a desk. -/
def runAll (s : Scenario) (desk : Desk) (routines : List (Routine Reply)) :
    List (Ending Reply) × Scenario :=
  let started := routines.foldl (fun (sim : Simulation Reply) r => sim.spawn r) (s.simulation desk)
  let sim := started.run
  let endings := (List.range routines.length).map fun i => (sim.pool.ending? i).getD .aborted
  (endings, s.after desk sim)

/-- Run one routine at a desk. -/
def runOne (s : Scenario) (desk : Desk) (routine : Routine Reply) : Ending Reply × Scenario :=
  let (endings, s) := s.runAll desk [routine]
  (endings.head?.getD .aborted, s)

/-- The routine that resolves a node. -/
def resolving (s : Scenario) (p : Peer) : Routine Reply :=
  (Resolve.resolve s.settings p).run.mapValue .resolution

/-- The routine that puts the connection string of a node together. -/
def assembling (s : Scenario) (p : Peer) : Routine Reply :=
  (Resolve.assemble s.settings p).run.mapValue .connections

/-- The routine that processes a node. -/
def processing (s : Scenario) (p : Peer) : Routine Reply :=
  (Resolve.process s.settings p).run.mapValue .resolution

/-- The routine that tells the group of a node. -/
def telling (s : Scenario) (node : String) : Routine Reply :=
  (Resolve.propagate s.settings node).mapValue .report

/-- Add a peer to the queue, if there still is one. -/
def enqueue (s : Scenario) (p : Peer) : Bool × Scenario :=
  match s.queue with
  | some q => (true, { s with queue := some (q.enqueue p) })
  | none => (false, s)

/-- A workload has become ready or has ceased to be. A configured node whose name begins as the
controller wants it is forgotten and added to the queue when it becomes ready. -/
def workloadEvent (s : Scenario) (node : String) (ready : Bool) : Bool × Scenario :=
  if ready && Text.startsWith node s.settings.nodeLead then
    match s.settings.config.find? node with
    | some p =>
      { s with memory := { s.memory with memos := s.memory.memos.forget node } }.enqueue p
    | none => (false, s)
  else (false, s)

/-- Add all configured peers to the queue that make their address known. -/
def seed (s : Scenario) : Nat × Scenario :=
  (s.settings.config.peers.filter (·.nodeType.advertises)).foldl
    (fun r p =>
      let (added, s) := r.2.enqueue p
      (if added then r.1 + 1 else r.1, s))
    (0, s)

/-- Drain the queue. Nothing is left of the report when the drain breaks down. -/
def drain (s : Scenario) (q : RetryQueue) : Option (DrainReport × List AttemptLog) × Scenario :=
  let (clean, c) := DrainCourse.run (s.settings, s.simulation .controller) q
  let s := s.after .controller c.site.2
  if clean then
    (some (c.drain.report, c.log), { s with queue := some c.drain.close })
  else (none, { s with queue := none })

/-- Run the queue until it is cancelled. The queue is gone afterwards. -/
def run (s : Scenario) (q : RetryQueue) (arrivals : List (Duration × Peer)) (length : Duration) :
    (Bool × List AttemptLog) × Scenario :=
  let c := QueueCourse.run (s.settings, s.simulation .controller) q arrivals length
  ((c.clean, c.log), { s.after .controller c.site.2 with queue := none })

/-- Let time pass. -/
def advance (s : Scenario) (d : Duration) : Scenario :=
  let now := s.now + d.nanos
  match s.cancelTick with
  | some tick =>
    if Instant.hasReached now tick then
      { s with now, cancelTick := none, memory := { s.memory with cancelled := true } }
    else { s with now }
  | none => { s with now }

/-- Shut the controller down, now or later. -/
def cancel (s : Scenario) : Option Duration → Scenario
  | none => { s with memory := { s.memory with cancelled := true }, cancelTick := none }
  | some d =>
    if s.memory.cancelled then s
    else
      let tick := Instant.tick (s.now + d.nanos)
      { s with cancelTick := some ((s.cancelTick.toList ++ [tick]).foldl min tick) }

end Scenario

end Rendezvous
