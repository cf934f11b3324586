import Rendezvous.Engine.Ending
import Rendezvous.Queue.Basic

/-!
# Draining the queue

A drain pulls what has arrived, takes out what is due and has it processed, a bounded number of
items at a time. Items end in any order and are settled one by one; the drain is over when every
item is settled. It can be interrupted, and then puts back what has not ended.

A drain moves by small steps, so that its course does not depend on what processes the items.
-/

namespace Rendezvous

/-- What came of a drain. -/
structure DrainReport where
  /-- The nodes that were processed. -/
  succeeded : List String := []
  /-- The nodes that will be retried. -/
  retried : List String := []
  /-- The nodes that were given up. -/
  abandoned : List String := []
deriving DecidableEq, Repr, Inhabited

namespace DrainReport

/-- Whether nothing came of it. -/
def isEmpty (r : DrainReport) : Bool :=
  r.succeeded.isEmpty && r.retried.isEmpty && r.abandoned.isEmpty

/-- Add what came of a drain to what a queue has done. -/
def addTo (r : DrainReport) (s : QueueStats) : QueueStats :=
  { s with
    succeeded := s.succeeded + r.succeeded.length
    retried := s.retried + r.retried.length
    abandoned := s.abandoned + r.abandoned.length }

end DrainReport

/-- How the processing of an item ended. -/
abbrev WorkEnding := Ending (Except ResolveError Unit)

/-- A drain that is going on. An item is known by its number in the order of dispatch. -/
structure Drain where
  /-- The queue without what was taken out. -/
  queue : RetryQueue
  /-- The items that wait for a free place. -/
  waiting : List (Nat × WorkItem)
  /-- The items that are being processed. -/
  running : List (Nat × WorkItem) := []
  /-- The items that have ended and are not settled. -/
  ended : List (WorkItem × WorkEnding) := []
  /-- What has come of it so far. -/
  report : DrainReport := {}

namespace Drain

/-- Begin to drain a queue. The clock is read when the arrivals are pulled, and again when what is
due is taken out. -/
def begin (q : RetryQueue) (pulled now : Instant) : Drain :=
  let (due, q) := (q.pullArrivals pulled).takeDue now
  { queue := { q with stats := { q.stats with attempts := q.stats.attempts + due.length } }
    waiting := due.zipIdx.map fun w => (w.2, w.1) }

/-- The next waiting item takes a free place. -/
def start? (d : Drain) : Option ((Nat × WorkItem) × Drain) :=
  match d.waiting with
  | [] => none
  | w :: waiting =>
    if d.running.length < d.queue.policy.slots then
      some (w, { d with waiting, running := d.running ++ [w] })
    else none

/-- The processing of an item ends. -/
def finish (d : Drain) (id : Nat) (ending : WorkEnding) : Drain :=
  match d.running.find? (·.1 == id) with
  | some (_, w) =>
    { d with
      running := d.running.filter (·.1 != id)
      ended := d.ended ++ [(w, ending)] }
  | none => d

/-- Settle an item that has ended. An aborted one is put back as it was. -/
def settle? (d : Drain) (now : Instant) (w : WorkItem) : WorkEnding → Option Drain
  | .value (.ok ()) =>
    some { d with report := { d.report with succeeded := d.report.succeeded ++ [w.node] } }
  | .value (.error e) =>
    match RetryQueue.verdict d.queue.policy w e with
    | .requeue => some { d with queue := d.queue.schedule w now }
    | .abandon =>
      some { d with report := { d.report with abandoned := d.report.abandoned ++ [w.node] } }
    | .retry =>
      (d.queue.retry? w now).map fun queue =>
        { d with queue, report := { d.report with retried := d.report.retried ++ [w.node] } }
  | .crashed =>
    some { d with report := { d.report with abandoned := d.report.abandoned ++ [w.node] } }
  | .aborted => some { d with queue := d.queue.schedule w now }

/-- Settle all items that have ended, in the order in which they did. Nothing when settling one of
them breaks the drain down. -/
def joinAll? (d : Drain) (now : Instant) : Option Drain :=
  d.ended.foldlM (fun d e => d.settle? now e.1 e.2) { d with ended := [] }

/-- Whether every item is settled. -/
def isOver (d : Drain) : Bool :=
  d.waiting.isEmpty && d.running.isEmpty && d.ended.isEmpty

/-- Cut a drain off: put back what has not ended. -/
def interrupt (d : Drain) (now : Instant) : Drain :=
  { d with
    waiting := []
    running := []
    queue := (d.running ++ d.waiting).foldl (fun q w => q.schedule w.2 now) d.queue }

/-- The queue after a drain. -/
def close (d : Drain) : RetryQueue :=
  { d.queue with stats := d.report.addTo d.queue.stats }

end Drain

end Rendezvous
