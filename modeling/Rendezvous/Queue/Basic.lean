import Rendezvous.Failure
import Rendezvous.Peer.Basic
import Rendezvous.Queue.Backoff
import Rendezvous.Table

/-!
# The retry queue

Peers to be processed. New ones arrive on a channel and are pulled when the queue is drained; pulled
ones and failed ones wait in slots ordered by the instant at which they are due, and among equals by
the order in which they were scheduled. An index from names to slots keeps a node from waiting
twice: scheduling a node takes it out of the slot in which it was waiting.
-/

namespace Rendezvous

/-- A peer with the number of times it has been retried. -/
structure WorkItem where
  /-- The peer. -/
  peer : Peer
  /-- The retries so far. -/
  retries : Nat := 0
deriving DecidableEq, Repr, Inhabited

namespace WorkItem

/-- The node to be processed. -/
def node (w : WorkItem) : String := w.peer.nodeName

end WorkItem

/-- A place in the queue. -/
structure Slot where
  /-- When the item is due. -/
  due : Instant
  /-- The number of the scheduling. -/
  seq : Nat
deriving DecidableEq, Repr, Inhabited

/-- Slots are ordered by due time, then by number. -/
def Slot.before (a b : Slot) : Bool :=
  a.due < b.due || (a.due == b.due && a.seq < b.seq)

/-- What a queue has done so far. -/
structure QueueStats where
  /-- Arrivals that have been pulled. -/
  enqueued : Nat := 0
  /-- Items that have been dispatched. -/
  attempts : Nat := 0
  /-- Attempts that succeeded. -/
  succeeded : Nat := 0
  /-- Attempts after which the item was scheduled again. -/
  retried : Nat := 0
  /-- Attempts after which the item was given up. -/
  abandoned : Nat := 0
deriving DecidableEq, Repr, Inhabited

/-- A queue. -/
structure RetryQueue where
  /-- How it retries. -/
  policy : RetryPolicy := {}
  /-- The peers that have arrived and not been pulled. -/
  arrivals : List Peer := []
  /-- The waiting items, in the order of their slots. -/
  pending : List (Slot × WorkItem) := []
  /-- The slot in which a node waits. -/
  index : Table Slot := {}
  /-- The number of the last scheduling. -/
  seq : Nat := 0
  /-- What has been done. -/
  stats : QueueStats := {}

namespace RetryQueue

/-- Add a newly found peer. -/
def enqueue (q : RetryQueue) (p : Peer) : RetryQueue :=
  { q with arrivals := q.arrivals ++ [p] }

/-- Put an item into its place. -/
def insertSlot (slot : Slot) (w : WorkItem) :
    List (Slot × WorkItem) → List (Slot × WorkItem)
  | [] => [(slot, w)]
  | e :: rest =>
    if slot.before e.1 then (slot, w) :: e :: rest else e :: insertSlot slot w rest

/-- Let an item wait until it is due, in the place of any other one of its node. -/
def schedule (q : RetryQueue) (w : WorkItem) (due : Instant) : RetryQueue :=
  let pending :=
    match q.index.get? w.node with
    | some old => q.pending.filter (·.1 != old)
    | none => q.pending
  let slot : Slot := ⟨due, q.seq + 1⟩
  { q with
    seq := q.seq + 1
    index := q.index.put w.node slot
    pending := insertSlot slot w pending }

/-- Let everything that has arrived wait, due at once. -/
def pullArrivals (q : RetryQueue) (now : Instant) : RetryQueue :=
  q.arrivals.foldl
    (fun q p =>
      { q with stats := { q.stats with enqueued := q.stats.enqueued + 1 } }.schedule ⟨p, 0⟩ now)
    { q with arrivals := [] }

/-- Take out what is due, in the order of the slots. -/
def takeDue (q : RetryQueue) (now : Instant) : List WorkItem × RetryQueue :=
  let due := (q.pending.filter fun e => e.1.due ≤ now).map (·.2)
  (due,
    { q with
      pending := q.pending.filter fun e => !decide (e.1.due ≤ now)
      index := due.foldl (fun index w => index.erase w.node) q.index })

/-- How often a waiting node has been retried. -/
def pendingRetries? (q : RetryQueue) (node : String) : Option Nat :=
  match q.index.get? node with
  | some slot => (q.pending.find? (·.1 == slot)).map (·.2.retries)
  | none => none

/-- What happens to an item after an attempt that failed. -/
inductive Verdict where
  /-- It is scheduled again as it was, due at once. -/
  | requeue
  /-- It is given up. -/
  | abandon
  /-- It is retried. -/
  | retry
deriving DecidableEq, Repr

/-- What happens to an item after a failure. -/
def verdict (policy : RetryPolicy) (w : WorkItem) (e : ResolveError) : Verdict :=
  if e = .cancelled then .requeue
  else if e.isFormat && !policy.retryFormatErrors then .abandon
  else if policy.maxRetries ≤ w.retries then .abandon
  else .retry

/-- Schedule the next retry of an item, unless its delay leads beyond the clock. -/
def retry? (q : RetryQueue) (w : WorkItem) (now : Instant) : Option RetryQueue := do
  let delay ← q.policy.backoff? (w.retries + 1)
  let due ← Instant.after? now delay
  return q.schedule { w with retries := w.retries + 1 } due

end RetryQueue

end Rendezvous
