import Rendezvous.Table
import Rendezvous.Time.Clock
import Rendezvous.Workload.StatefulSet

/-!
# Watching workloads

The workloads of a namespace are listed again and again. Each listing is compared with what was
known, and every workload whose readiness has changed gives an event; one that has not been seen
counts as not ready.
-/

namespace Rendezvous

/-- A change of readiness. -/
structure WorkloadEvent where
  /-- The node, by the name of its pod. -/
  node : String
  /-- Whether it is ready now. -/
  ready : Bool
deriving DecidableEq, Repr

/-- What is known of the workloads. -/
structure Watcher where
  /-- Whether a node was ready when it was last listed. -/
  known : Table Bool := {}
deriving DecidableEq, Repr, Inhabited

namespace Watcher

/-- Take note of one listed workload. -/
def observe (w : Watcher) (s : StatefulSet) : Option WorkloadEvent × Watcher :=
  let was := (w.known.get? s.podName).getD false
  (if s.isReady = was then none else some ⟨s.podName, s.isReady⟩,
    ⟨w.known.put s.podName s.isReady⟩)

/-- Take note of one listing. -/
def poll (w : Watcher) : List StatefulSet → List WorkloadEvent × Watcher
  | [] => ([], w)
  | s :: sets =>
    let (event, w) := w.observe s
    let (events, w) := w.poll sets
    (event.toList ++ events, w)

/-- Take note of a listing that may have failed. A failed one changes nothing. -/
def pollAnswer (w : Watcher) : Option (List StatefulSet) → List WorkloadEvent × Watcher
  | some sets => w.poll sets
  | none => ([], w)

end Watcher

/-- Events as they reach a receiver that takes so many of them and is then closed. -/
structure Delivery where
  /-- How many events the receiver still takes, if that is limited. -/
  room : Option Nat
  /-- The events that were taken, with the instants at which they were. -/
  taken : List (Instant × WorkloadEvent) := []
  /-- Whether an event met a closed receiver. -/
  refused : Bool := false
deriving DecidableEq, Repr

namespace Delivery

/-- Send the events of one listing. The receiver takes from them once all are sent, so it is found
closed only if it was closed before. -/
def send (d : Delivery) (now : Instant) (events : List WorkloadEvent) : Delivery :=
  match d.room with
  | none => { d with taken := d.taken ++ events.map (now, ·) }
  | some 0 => if events.isEmpty then d else { d with refused := true }
  | some room =>
    { d with
      room := some (room - events.length)
      taken := d.taken ++ (events.take room).map (now, ·) }

end Delivery

/-- Poll on a timer until the end, the last listing or a closed receiver. -/
def Watcher.runPolls (endTick : Nat) :
    Watcher → Ticker → Instant → Delivery → List (Option (List StatefulSet)) → Delivery
  | _, _, _, d, [] => d
  | w, t, now, d, answer :: answers =>
    let tick := Instant.tick t.deadline
    if endTick ≤ tick then d
    else
      let now := Instant.moveTo now tick
      let (events, w) := w.pollAnswer answer
      let d := d.send now events
      if d.refused then d else runPolls endTick w (t.next now) now d answers

/-- Poll on a timer for so long. There is nothing to deliver without an interval, because such a
timer does not start. -/
def Watcher.run? (interval length : Duration) (room : Option Nat)
    (answers : List (Option (List StatefulSet))) : Option Delivery :=
  (Ticker.start? 0 interval).map fun t =>
    runPolls (Instant.tick length.nanos) {} t 0 { room } answers

end Rendezvous
