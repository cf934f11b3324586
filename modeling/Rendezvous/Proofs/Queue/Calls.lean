import Rendezvous.Proofs.Queue.Stages

/-!
# The handler calls of a queue

What a queue shows tells which handler calls are in progress and which peers no drain has pulled: a
call is in progress from the moment at which the task of an item has a place until its processing
ends or is cut off, and an added peer waits until the next drain begins.
-/

namespace Rendezvous

open scoped List

namespace QueueEvent

/-- The handler calls in progress after an event. -/
def calls (ws : List WorkItem) : QueueEvent → List WorkItem
  | .started _ w => ws ++ [w]
  | .stopped _ w _ => ws.erase w
  | _ => ws

/-- The peers that no drain has pulled after an event. -/
def arrivals (ps : List Peer) : QueueEvent → List Peer
  | .enqueued p => ps ++ [p]
  | .drained _ _ => []
  | _ => ps

/-- The item with which a handler is called. -/
def start? : QueueEvent → Option WorkItem
  | .started _ w => some w
  | _ => none

/-- Whether an event is the beginning of a drain. -/
def isDrain : QueueEvent → Bool
  | .drained _ _ => true
  | _ => false

end QueueEvent

/-- The handler calls in progress. -/
def inProgress (log : List QueueEvent) : List WorkItem := log.foldl QueueEvent.calls []

/-- The peers that were added since the last drain has begun. -/
def newcomers (log : List QueueEvent) : List Peer := log.foldl QueueEvent.arrivals []

/-- The items that were dispatched. -/
def dispatches (log : List QueueEvent) : List WorkItem :=
  log.filterMap fun
    | .dispatched w => some w
    | _ => none

/-- The items with which a handler was called. -/
def starts (log : List QueueEvent) : List WorkItem := log.filterMap QueueEvent.start?

/-- What is shown before the next drain begins. -/
def untilDrain (log : List QueueEvent) : List QueueEvent := log.takeWhile (!·.isDrain)

/-! ## What is shown when a drain begins and when an item is settled -/

section

variable (policy : RetryPolicy) (pulled now : Instant) (w : WorkItem) (ending : WorkEnding)
  (ps qs : List Peer) (ws vs : List WorkItem)

@[simp] theorem calls_beginning : (beginning pulled now ps ws).foldl QueueEvent.calls vs = vs := by
  simp [beginning, List.foldl_map, QueueEvent.calls]

@[simp] theorem calls_settlement :
    (settlement policy now w ending).foldl QueueEvent.calls vs = vs := by
  cases h : leftover? policy now w ending <;> simp [settlement, h, QueueEvent.calls]

@[simp] theorem arrivals_pulled :
    (ps.map (QueueEvent.pulled pulled)).foldl QueueEvent.arrivals qs = qs := by
  simp [List.foldl_map, QueueEvent.arrivals]

@[simp] theorem arrivals_beginning :
    (beginning pulled now ps ws).foldl QueueEvent.arrivals qs = [] := by
  simp [beginning, List.foldl_map, QueueEvent.arrivals]

theorem dispatches_settlement : dispatches (settlement policy now w ending) = [] := by
  simp [settlement, dispatches, List.filterMap_map]

theorem starts_settlement : starts (settlement policy now w ending) = [] := by
  cases h : leftover? policy now w ending <;> simp [settlement, h, starts, QueueEvent.start?]

theorem isDrain_settlement : ∀ e ∈ settlement policy now w ending, e.isDrain = false := by
  cases h : leftover? policy now w ending <;> simp [settlement, h, QueueEvent.isDrain]

@[simp] theorem arrivals_settlement :
    (settlement policy now w ending).foldl QueueEvent.arrivals qs = qs := by
  cases h : leftover? policy now w ending <;> simp [settlement, h, QueueEvent.arrivals]

end

/-! ## What was shown tells where the queue is -/

namespace Drain

variable {d d' : Drain} {shown : List QueueEvent}

theorem Move.calls (hd : d.Sound) (h : Move d shown d') {ws : List WorkItem}
    (hws : ws ~ d.running.map (·.2)) :
    shown.foldl QueueEvent.calls ws ~ d'.running.map (·.2) := by
  cases h with
  | arrive p => exact hws
  | @start w _ _ =>
    show ws ++ [w.2] ~ (d.running ++ [w]).map (·.2)
    rw [List.map_append]
    exact hws.append_right [w.2]
  | @finish w hw ending =>
    obtain ⟨hrunning, -⟩ := hd.finish hw ending
    have hrest := (hrunning.map (·.2)).erase w.2
    rw [List.map_cons, List.erase_cons_head] at hrest
    exact (hws.erase w.2).trans hrest
  | withdraw _ => exact hws
  | join ended h =>
    obtain ⟨queue, rfl, -⟩ := settle?_eq h
    rw [calls_settlement]
    exact hws

theorem Move.room (hd : d.Sound) (h : Move d shown d')
    (hroom : d.running.length ≤ d.queue.policy.slots) :
    d'.running.length ≤ d.queue.policy.slots := by
  cases h with
  | arrive p => exact hroom
  | start _ free =>
    rw [place, List.length_append]
    exact free
  | finish hw ending =>
    obtain ⟨hrunning, -⟩ := hd.finish hw ending
    have hlength := hrunning.length_eq
    rw [List.length_cons] at hlength
    omega
  | withdraw _ => exact hroom
  | join ended h =>
    obtain ⟨queue, rfl, -⟩ := settle?_eq h
    exact hroom

theorem Move.arrivals (h : Move d shown d') :
    d'.queue.arrivals = shown.foldl QueueEvent.arrivals d.queue.arrivals := by
  cases h with
  | arrive p => rfl
  | start _ _ => rfl
  | finish _ ending =>
    rw [finish_queue]
    rfl
  | withdraw _ => rfl
  | join ended h =>
    obtain ⟨queue, rfl, hq⟩ := settle?_eq h
    rw [arrivals_settlement]
    rcases hq with ⟨-, rfl⟩ | ⟨v, due, -, rfl⟩
    · rfl
    · rfl

end Drain

namespace QueueStage

/-- The items with which a handler call is in progress. -/
def running : QueueStage → List WorkItem
  | .idle _ => []
  | .draining d => d.running.map (·.2)

/-- The items that were dispatched and for which no handler was called. -/
def waiting : QueueStage → List WorkItem
  | .idle _ => []
  | .draining d => d.waiting.map (·.2)

variable {s t : QueueStage} {log shown : List QueueEvent} {policy : RetryPolicy}

theorem Move.calls (hs : s.Sound) (h : Move s shown t) {ws : List WorkItem} (hws : ws ~ s.running) :
    shown.foldl QueueEvent.calls ws ~ t.running := by
  cases h with
  | enqueue q p => exact hws
  | begin q _ =>
    rw [calls_beginning]
    exact hws
  | work h => exact h.calls hs hws
  | close hover =>
    simp only [Drain.isOver, Bool.and_eq_true, List.isEmpty_iff] at hover
    simpa [running, hover.1.2] using hws

theorem Move.room (hs : s.Sound) (h : Move s shown t)
    (hroom : s.running.length ≤ s.queue.policy.slots) :
    t.running.length ≤ s.queue.policy.slots := by
  cases h with
  | enqueue q p => exact hroom
  | begin q _ => exact Nat.zero_le _
  | work h =>
    simp only [running, List.length_map] at hroom ⊢
    exact h.room hs hroom
  | close _ => exact Nat.zero_le _

theorem Move.arrivals (h : Move s shown t) :
    t.queue.arrivals = shown.foldl QueueEvent.arrivals s.queue.arrivals := by
  cases h with
  | enqueue q p => rfl
  | begin q _ =>
    rw [arrivals_beginning]
    exact Drain.begin_arrivals ..
  | work h => exact h.arrivals
  | close _ => rfl

/-- What was shown of a queue tells which handler calls are in progress and which peers have
arrived. -/
structure Seen (policy : RetryPolicy) (log : List QueueEvent) (s : QueueStage) : Prop where
  /-- Everything is in one place. -/
  sound : s.Sound
  /-- The queue retries as it always did. -/
  policy_eq : s.queue.policy = policy
  /-- The handler calls in progress are those of the items that have a place. -/
  calls : inProgress log ~ s.running
  /-- There are places for them. -/
  room : s.running.length ≤ policy.slots
  /-- What was added since the last drain has begun has not been pulled. -/
  arrivals : s.queue.arrivals = newcomers log

theorem Seen.nil (policy : RetryPolicy) : Seen policy [] (.idle { policy }) :=
  ⟨RetryQueue.Sound.fresh policy, rfl, List.Perm.refl _, Nat.zero_le _, rfl⟩

theorem Seen.keep (h : Seen policy log s) (step : Move s shown t) :
    Seen policy (log ++ shown) t := by
  obtain ⟨hs, rfl, hcalls, hroom, harrivals⟩ := h
  refine ⟨step.sound hs, step.policy hs, ?_, step.room hs hroom, ?_⟩
  · rw [inProgress, List.foldl_append]
    exact step.calls hs hcalls
  · rw [newcomers, List.foldl_append, step.arrivals, harrivals]
    rfl

theorem Moves.seen (h : Run Move (.idle { policy }) log s) : Seen policy log s :=
  h.preserves (Seen.nil policy) fun h step => h.keep step

theorem Seen.running_nodup (h : Seen policy log s) : (s.running.map WorkItem.node).Nodup := by
  cases s with
  | idle q => exact List.nodup_nil
  | draining d => exact Drain.Sound.running_nodup h.sound

end QueueStage

end Rendezvous
