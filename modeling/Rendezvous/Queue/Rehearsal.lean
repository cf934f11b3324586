import Rendezvous.Engine.Cluster
import Rendezvous.Queue.Course

/-!
# Rehearsals

A place of work at which the outcome of every attempt is written down beforehand: how long it takes
and how it ends. A node without an outcome succeeds at once.
-/

namespace Rendezvous

/-- An outcome that is written down. -/
structure Rehearsed where
  /-- How long the attempt takes. -/
  delay : Option Duration := none
  /-- How it ends. -/
  ending : WorkEnding := .value (.ok ())
  /-- Whether the outcome stays for the next attempt. -/
  stays : Bool := false
deriving Repr

/-- A place of work with outcomes that are written down. -/
structure Rehearsal where
  /-- The clock. -/
  now : Instant := 0
  /-- The outcomes of each node, in order. -/
  outcomes : Table (List Rehearsed) := {}
  /-- The number of the next item. -/
  next : Nat := 0
  /-- The items that are being processed: when they end, their numbers and how they end. -/
  jobs : List (Nat × Nat × WorkEnding) := []
  /-- The items that have ended since this was last asked. -/
  ended : List (Nat × WorkEnding) := []
deriving Repr

namespace Rehearsal

/-- The outcome of the next attempt at a node, and the outcomes after it. -/
def take (r : Rehearsal) (node : String) : Rehearsed × Rehearsal :=
  match r.outcomes.get? node with
  | some (o :: rest) =>
    (o, if o.stays then r else { r with outcomes := r.outcomes.put node rest })
  | _ => ({}, r)

/-- Start to process an item. -/
def start (r : Rehearsal) (w : WorkItem) : Nat × Rehearsal :=
  let id := r.next
  let (o, r) := { r with next := id + 1 }.take w.node
  match CallCourse.of r.now o.delay none with
  | .answeredAt tick => (id, { r with jobs := r.jobs ++ [(tick, id, o.ending)] })
  | _ => (id, { r with ended := r.ended ++ [(id, o.ending)] })

/-- Move the clock to a tick. -/
def wakeAt (r : Rehearsal) (tick : Nat) : Rehearsal :=
  let now := Instant.moveTo r.now tick
  let due := r.jobs.filter fun j => Instant.hasReached now j.1
  { r with
    now
    jobs := r.jobs.filter fun j => !Instant.hasReached now j.1
    ended := r.ended ++ (due.mergeSort fun a b => a.1 ≤ b.1).map (·.2) }

instance : Workplace Rehearsal where
  now := (·.now)
  start := start
  takeEnded r := (r.ended, { r with ended := [] })
  nextTick? r := (r.jobs.map (·.1)).min?
  wakeAt := wakeAt
  abort r id := { r with jobs := r.jobs.filter (·.2.1 != id) }

end Rehearsal

end Rendezvous
