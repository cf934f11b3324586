import Rendezvous.Queue.Drain
import Rendezvous.Time.Clock

/-!
# Courses of a queue

How drains go at a place of work: what processes the items, on which clock, and in which order they
end. A place of work starts items, moves its clock, says which items have ended, and can abort one.
The course of a drain keeps a log of its attempts.
-/

namespace Rendezvous

/-- A place at which items are processed. -/
class Workplace (S : Type) where
  /-- The clock. -/
  now : S → Instant
  /-- Start to process an item; it is known by the returned number. -/
  start : S → WorkItem → Nat × S
  /-- The items that have ended since this was last asked, in order. -/
  takeEnded : S → List (Nat × WorkEnding) × S
  /-- When the next timer goes off. -/
  nextTick? : S → Option Nat
  /-- Move the clock to a tick and let go on what has waited for it. -/
  wakeAt : S → Nat → S
  /-- Abort an item. -/
  abort : S → Nat → S

/-- One attempt at an item. -/
structure AttemptLog where
  /-- The number of the item at the place of work. -/
  job : Nat
  /-- The node. -/
  node : String
  /-- How often the item had been retried. -/
  retries : Nat
  /-- When the attempt began. -/
  started : Instant
  /-- When it ended and by which failure, unless it broke down or was aborted. -/
  result : Option (Instant × Option ResolveError) := none
deriving DecidableEq, Repr

namespace AttemptLog

/-- The attempt with its result. -/
def finish (a : AttemptLog) (now : Instant) : WorkEnding → AttemptLog
  | .value (.ok ()) => { a with result := some (now, none) }
  | .value (.error e) => { a with result := some (now, some e) }
  | _ => a

end AttemptLog

/-- A drain at a place of work. -/
structure DrainCourse (S : Type) where
  /-- The place of work. -/
  site : S
  /-- The drain. -/
  drain : Drain
  /-- The numbers of the items in the drain, by their numbers at the place of work. -/
  jobs : List (Nat × Nat) := []
  /-- The attempts so far. -/
  log : List AttemptLog := []

namespace DrainCourse

variable {S : Type} [Workplace S]

/-- Take note of what has ended. -/
def collect (c : DrainCourse S) : DrainCourse S :=
  let (ended, site) := Workplace.takeEnded c.site
  let now := Workplace.now site
  let drain := ended.foldl
    (fun d e =>
      match c.jobs.find? (·.1 == e.1) with
      | some (_, id) => d.finish id e.2
      | none => d)
    c.drain
  let log := c.log.map fun a =>
    match ended.find? (·.1 == a.job) with
    | some (_, ending) => a.finish now ending
    | none => a
  { c with site, drain, log }

/-- Start waiting items as long as there are free places, at most so many. -/
def fill : Nat → DrainCourse S → DrainCourse S
  | 0, c => c
  | n + 1, c =>
    match c.drain.start? with
    | none => c
    | some ((id, w), drain) =>
      let now := Workplace.now c.site
      let (job, site) := Workplace.start c.site w
      fill n
        ({ c with
          site, drain
          jobs := c.jobs ++ [(job, id)]
          log := c.log ++ [⟨job, w.node, w.retries, now, none⟩] : DrainCourse S }.collect)

/-- Settle what has ended, after everything has been started that can be. The flag is false when
settling breaks the drain down. -/
def proceed (c : DrainCourse S) : Bool × DrainCourse S :=
  let c := c.collect
  let c := c.fill c.drain.waiting.length
  match c.drain.joinAll? (Workplace.now c.site) with
  | some drain => (true, { c with drain })
  | none => (false, c)

/-- Abort everything that is being processed. -/
def abortAll (c : DrainCourse S) : DrainCourse S :=
  let running := c.jobs.filter fun j => c.drain.running.any (·.1 == j.2)
  { c with site := running.foldl (fun site j => Workplace.abort site j.1) c.site }

/-- Let a drain run until it is over, for so many timers at most. The flag is false when it breaks
down. -/
def runTimers : Nat → DrainCourse S → Bool × DrainCourse S
  | 0, c => (true, c)
  | timers + 1, c =>
    match c.proceed with
    | (false, c) => (false, c)
    | (true, c) =>
      if c.drain.isOver then (true, c)
      else
        match Workplace.nextTick? c.site with
        | some tick => runTimers timers { c with site := Workplace.wakeAt c.site tick }
        | none => (true, c)

/-- Drain a queue at a place of work. -/
def run (site : S) (q : RetryQueue) : Bool × DrainCourse S :=
  runTimers courseLimit
    { site, drain := .begin q (Workplace.now site) (Workplace.now site) }

end DrainCourse

/-! ## Draining on a timer -/

/-- What a queue that is drained on a timer is at. -/
inductive QueuePhase where
  /-- It waits for the next tick. -/
  | idle (queue : RetryQueue)
  /-- It is being drained; the numbers of the items stand as in the course of a drain. -/
  | draining (drain : Drain) (jobs : List (Nat × Nat))
  /-- It is gone, because it broke down or was cancelled. -/
  | gone

/-- A queue that is drained on every tick of a timer until it is cancelled. -/
structure QueueCourse (S : Type) where
  /-- The place of work. -/
  site : S
  /-- What the queue is at. -/
  phase : QueuePhase
  /-- The timer. -/
  ticker : Ticker
  /-- The peers that will arrive, with the ticks at which they do. -/
  arrivals : List (Nat × Peer) := []
  /-- When the queue is cancelled. -/
  endTick : Nat
  /-- The attempts so far. -/
  log : List AttemptLog := []
  /-- Whether nothing has broken down. -/
  clean : Bool := true

namespace QueueCourse

variable {S : Type} [Workplace S]

/-- Let arrive what arrives now. -/
def receive (c : QueueCourse S) : QueueCourse S :=
  let now := Workplace.now c.site
  let arrived := ((c.arrivals.filter fun a => Instant.hasReached now a.1).mergeSort
    fun a b => a.1 ≤ b.1).map (·.2)
  let c := { c with arrivals := c.arrivals.filter fun a => !Instant.hasReached now a.1 }
  match c.phase with
  | .idle queue => { c with phase := .idle (arrived.foldl .enqueue queue) }
  | .draining d jobs =>
    { c with phase := .draining { d with queue := arrived.foldl .enqueue d.queue } jobs }
  | .gone => c

/-- When something happens next: an arrival, a tick, something at the place of work, or the end. -/
def nextTick (c : QueueCourse S) : Nat :=
  let tick :=
    match c.phase with
    | .idle _ => [Instant.tick c.ticker.deadline]
    | _ => []
  (c.arrivals.map (·.1) ++ tick ++ (Workplace.nextTick? c.site).toList).foldl min c.endTick

/-- Move the clock to what happens next. -/
def wake (c : QueueCourse S) : QueueCourse S :=
  { c with site := Workplace.wakeAt c.site c.nextTick }.receive

/-- What a queue does before it waits again. The flag tells whether there may be more to do. -/
def proceed (c : QueueCourse S) : Bool × QueueCourse S :=
  match c.phase with
  | .gone => (false, c)
  | .idle queue =>
    let now := Workplace.now c.site
    if Instant.hasReached now (Instant.tick c.ticker.deadline) then
      (true, { c with phase := .draining (.begin queue now now) [], ticker := c.ticker.next now })
    else (false, c)
  | .draining drain jobs =>
    let course : DrainCourse S := { site := c.site, drain, jobs, log := c.log }
    match course.proceed with
    | (false, d) =>
      let d := d.abortAll
      (false, { c with site := d.site, phase := .gone, log := d.log, clean := false })
    | (true, d) =>
      if d.drain.isOver then
        (true, { c with site := d.site, phase := .idle d.drain.close, log := d.log })
      else (false, { c with site := d.site, phase := .draining d.drain d.jobs, log := d.log })

/-- Abort what is being processed. -/
def cancel (c : QueueCourse S) : QueueCourse S :=
  match c.phase with
  | .draining drain jobs =>
    let d := ({ site := c.site, drain, jobs, log := c.log : DrainCourse S }.collect).abortAll
    { c with site := d.site, log := d.log, phase := .gone }
  | _ => { c with phase := .gone }

/-- Run until cancelled, for so many events at most. -/
def runEvents : Nat → QueueCourse S → QueueCourse S
  | 0, c => c
  | n + 1, c =>
    if Instant.hasReached (Workplace.now c.site) c.endTick then c.cancel
    else
      match c.proceed with
      | (true, c) => runEvents n c
      | (false, c) => runEvents n c.wake

/-- Run a queue until it is cancelled: after so long, but not before everything has arrived. A queue
without a drain interval breaks down at once. -/
def run (site : S) (queue : RetryQueue) (arrivals : List (Duration × Peer)) (length : Duration) :
    QueueCourse S :=
  let now := Workplace.now site
  let arrivals := arrivals.map fun a => (Instant.tick (now + a.1.nanos), a.2)
  let endTick := (arrivals.map (·.1)).foldl max (Instant.tick (now + length.nanos))
  let c : QueueCourse S :=
    match Ticker.start? now queue.policy.drainInterval with
    | some ticker => { site, phase := .idle queue, ticker, arrivals, endTick }
    | none => { site, phase := .gone, ticker := ⟨now, ⟨0⟩⟩, arrivals, endTick, clean := false }
  c.receive.runEvents courseLimit

end QueueCourse

end Rendezvous
