import Rendezvous.Proofs.Queue.Leftovers
import Rendezvous.Proofs.Workload.Changes

/-!
# Watched queues

A watcher lists the workloads and sends the changes of their readiness; a controller receives the
changes one by one and adds to its queue the configured nodes that have become ready; the queue is
drained from time to time. The three go on side by side: a listing, the receipt of a change and
every move of the queue may come at any moment.

What is seen of all this is the listings, the received changes and what the queue shows. As the
queue is added to by changes only, what was received tells what has arrived in it.
-/

namespace Rendezvous

/-! ## What can be seen -/

/-- What can be seen of a watcher, a controller and its queue. -/
inductive WatchEvent where
  /-- A workload is listed. -/
  | listed (s : StatefulSet)
  /-- A change is received. -/
  | received (e : WorkloadEvent)
  /-- The queue shows something of its work. -/
  | queue (e : QueueEvent)

/-- The workloads that were listed. -/
def listings (log : List WatchEvent) : List StatefulSet :=
  log.filterMap fun
    | .listed s => some s
    | _ => none

/-- The changes that were received. -/
def receipts (log : List WatchEvent) : List WorkloadEvent :=
  log.filterMap fun
    | .received e => some e
    | _ => none

namespace WatchEvent

/-- The changes that were received and that no drain has followed. -/
def fresh (es : List WorkloadEvent) : WatchEvent → List WorkloadEvent
  | .listed _ => es
  | .received e => es ++ [e]
  | .queue e => if e.isDrain then [] else es

/-- What an event is for the queue: a change that is received adds the peer that is to be processed
because of it. -/
def onQueue (settings : Settings) : WatchEvent → List QueueEvent
  | .listed _ => []
  | .received e => (settings.wanted? e).toList.map .enqueued
  | .queue e => [e]

end WatchEvent

/-- The changes that were received since the last drain has begun. -/
def freshReceipts (log : List WatchEvent) : List WorkloadEvent := log.foldl WatchEvent.fresh []

/-- What has happened to the queue. -/
def queueEvents (settings : Settings) (log : List WatchEvent) : List QueueEvent :=
  log.flatMap (WatchEvent.onQueue settings)

@[simp] theorem listings_append (log log' : List WatchEvent) :
    listings (log ++ log') = listings log ++ listings log' :=
  List.filterMap_append

@[simp] theorem receipts_append (log log' : List WatchEvent) :
    receipts (log ++ log') = receipts log ++ receipts log' :=
  List.filterMap_append

@[simp] theorem queueEvents_append (settings : Settings) (log log' : List WatchEvent) :
    queueEvents settings (log ++ log') = queueEvents settings log ++ queueEvents settings log' :=
  List.flatMap_append

theorem queueEvents_queue (settings : Settings) (shown : List QueueEvent) :
    queueEvents settings (shown.map .queue) = shown := by
  simp [queueEvents, List.flatMap_map, WatchEvent.onQueue]

theorem queueEvents_listed (settings : Settings) (sets : List StatefulSet) :
    queueEvents settings (sets.map .listed) = [] := by
  simp [queueEvents, WatchEvent.onQueue]

/-- Where a drain is seen, the queue begins it after all that has happened to it before. -/
theorem queueEvents_drain (settings : Settings) (before after : List WatchEvent) (now : Instant)
    (ws : List WorkItem) :
    queueEvents settings (before ++ .queue (.drained now ws) :: after) =
      queueEvents settings before ++ .drained now ws :: queueEvents settings after := by
  simp [queueEvents, WatchEvent.onQueue]

/-- If the queue is added to by changes only, what has arrived is what they ask for. -/
theorem newcomers_queueEvents (settings : Settings) {log : List WatchEvent}
    (h : ∀ p, .queue (.enqueued p) ∉ log) :
    newcomers (queueEvents settings log) = (freshReceipts log).filterMap settings.wanted? := by
  suffices hfold : ∀ es, (queueEvents settings log).foldl QueueEvent.arrivals
      (es.filterMap settings.wanted?) =
        (log.foldl WatchEvent.fresh es).filterMap settings.wanted? from hfold []
  induction log with
  | nil => exact fun es => rfl
  | cons x log ih =>
    intro es
    have hx : (x.onQueue settings).foldl QueueEvent.arrivals (es.filterMap settings.wanted?) =
        (x.fresh es).filterMap settings.wanted? := by
      cases x with
      | listed s => rfl
      | received e =>
        cases hwanted : settings.wanted? e <;>
          simp [WatchEvent.onQueue, WatchEvent.fresh, hwanted, QueueEvent.arrivals]
      | queue e =>
        cases e with
        | enqueued p => exact absurd List.mem_cons_self (h p)
        | _ => rfl
    rw [queueEvents, List.flatMap_cons, List.foldl_append, hx]
    exact ih (fun p hp => h p (List.mem_cons_of_mem _ hp)) _

/-! ## A watcher, a controller and a queue -/

/-- The queue of a stage in the place of another one. -/
def QueueStage.withQueue (s : QueueStage) (q : RetryQueue) : QueueStage :=
  match s with
  | .idle _ => .idle q
  | .draining d => .draining { d with queue := q }

/-- A peer can be added at any stage. -/
theorem QueueStage.Move.added (s : QueueStage) (p : Peer) :
    Move s [.enqueued p] (s.withQueue (s.queue.enqueue p)) := by
  cases s with
  | idle q => exact .enqueue q p
  | draining d => exact .work (.arrive d p)

/-- A watcher, a controller and its queue. -/
structure WatchedQueue where
  /-- What the controller goes by. -/
  settings : Settings
  /-- The memory of the controller. -/
  memory : Memory
  /-- What the watcher knows. -/
  watcher : Watcher := {}
  /-- The changes that were sent and have not been received. -/
  inbox : List WorkloadEvent := []
  /-- What the queue is at. -/
  stage : QueueStage

namespace WatchedQueue

/-- The scenario in which a controller receives a change. -/
def scenario (v : WatchedQueue) : Scenario :=
  { settings := v.settings, memory := v.memory, queue := some v.stage.queue }

/-- The controller receives a change. -/
def receive (v : WatchedQueue) (e : WorkloadEvent) : WatchedQueue :=
  let s := (v.scenario.workloadEvent e.node e.ready).2
  { v with
    memory := s.memory
    stage :=
      match s.queue with
      | some q => v.stage.withQueue q
      | none => v.stage }

/-- How a watched queue goes on, and what is seen of it. -/
inductive Step : WatchedQueue → List WatchEvent → WatchedQueue → Prop where
  /-- The workloads are listed, which may fail, and the changes are sent. -/
  | poll (v : WatchedQueue) (answer : Option (List StatefulSet)) :
      Step v ((answer.getD []).map .listed)
        { v with
          watcher := (v.watcher.pollAnswer answer).2
          inbox := v.inbox ++ (v.watcher.pollAnswer answer).1 }
  /-- The first change that was sent is received. -/
  | receive {v : WatchedQueue} {e : WorkloadEvent} {rest : List WorkloadEvent}
      (h : v.inbox = e :: rest) : Step v [.received e] ({ v with inbox := rest }.receive e)
  /-- The queue goes on, and nobody else adds to it. -/
  | work {v : WatchedQueue} {stage : QueueStage} {shown : List QueueEvent}
      (h : QueueStage.Move v.stage shown stage) (hno : ∀ p, .enqueued p ∉ shown) :
      Step v (shown.map .queue) { v with stage }
  /-- What is processed changes the memory in any way. -/
  | remember (v : WatchedQueue) (memory : Memory) : Step v [] { v with memory }

theorem receive_of_unwanted {v : WatchedQueue} {e : WorkloadEvent}
    (h : v.settings.wanted? e = none) : v.receive e = v := by
  have hscenario : v.scenario.workloadEvent e.node e.ready = (false, v.scenario) :=
    Scenario.workloadEvent_of_unwanted h
  unfold receive
  rw [hscenario]
  obtain ⟨settings, memory, watcher, inbox, stage⟩ := v
  cases stage <;> rfl

theorem receive_of_wanted {v : WatchedQueue} {e : WorkloadEvent} {p : Peer}
    (h : v.settings.wanted? e = some p) :
    v.receive e =
      { v with
        memory := { v.memory with memos := v.memory.memos.forget e.node }
        stage := v.stage.withQueue (v.stage.queue.enqueue p) } := by
  have hscenario := Scenario.workloadEvent_of_wanted (s := v.scenario) (e := e) h rfl
  unfold receive
  rw [hscenario]
  rfl

/-! ## What was seen tells what has arrived -/

variable {settings : Settings} {policy : RetryPolicy} {log shown : List WatchEvent}
  {v v' : WatchedQueue}

/-- What is done to the queue of a watched queue are moves of a queue. -/
theorem Step.moves (h : Step v shown v') :
    Run QueueStage.Move v.stage (queueEvents v.settings shown) v'.stage := by
  cases h with
  | poll answer =>
    rw [queueEvents_listed]
    exact .refl _
  | @receive e rest _ =>
    cases hwanted : v.settings.wanted? e with
    | none =>
      rw [receive_of_unwanted (v := { v with inbox := rest }) hwanted]
      simpa [queueEvents, WatchEvent.onQueue, hwanted] using Run.refl v.stage
    | some p =>
      rw [receive_of_wanted (v := { v with inbox := rest }) hwanted]
      simpa [queueEvents, WatchEvent.onQueue, hwanted] using Run.single (QueueStage.Move.added _ p)
  | work h _ =>
    rw [queueEvents_queue]
    exact .single h
  | remember memory => exact .refl _

/-- What was seen of a watched queue tells what the watcher knows, what is on its way and what has
happened to the queue. -/
structure Seen (settings : Settings) (policy : RetryPolicy) (log : List WatchEvent)
    (v : WatchedQueue) : Prop where
  /-- The controller goes by what it always did. -/
  settings_eq : v.settings = settings
  /-- The watcher knows what was listed. -/
  knows : v.watcher.Knows (listings log)
  /-- What was sent was received or is on its way. -/
  sent : receipts log ++ v.inbox = changesAfter [] (listings log)
  /-- The queue got where it is by its moves. -/
  moves : Run QueueStage.Move (.idle { policy }) (queueEvents settings log) v.stage
  /-- The queue was added to by changes only. -/
  unadded : ∀ p, .queue (.enqueued p) ∉ log

theorem Seen.keep (h : Seen settings policy log v) (step : Step v shown v') :
    Seen settings policy (log ++ shown) v' := by
  have hmoves := h.moves.trans (h.settings_eq ▸ step.moves)
  rw [← queueEvents_append] at hmoves
  obtain ⟨hsettings, hknows, hsent, -, hunadded⟩ := h
  cases step with
  | poll answer =>
    have hlistings : listings ((answer.getD []).map .listed) = answer.getD [] := by
      simp [listings, List.filterMap_map]
    have hreceipts : receipts ((answer.getD []).map .listed) = [] := by
      simp [receipts, List.filterMap_map]
    obtain ⟨hevents, hknows'⟩ := hknows.poll (answer.getD [])
    rw [← Watcher.pollAnswer_eq] at hevents hknows'
    refine ⟨hsettings, ?_, ?_, hmoves, by simpa using hunadded⟩
    · rwa [listings_append, hlistings]
    · rw [listings_append, hlistings, receipts_append, hreceipts, List.append_nil, hevents,
        changesAfter_append, ← List.append_assoc, hsent, List.nil_append]
  | @receive e rest hinbox =>
    have hlistings : listings (log ++ [.received e]) = listings log := by simp [listings]
    refine ⟨hsettings, ?_, ?_, hmoves, by simpa using hunadded⟩
    · rwa [hlistings]
    · rw [hlistings, receipts_append, ← hsent, hinbox]
      simp [receipts, receive]
  | @work stage shown _ hno =>
    have hlistings : listings (shown.map .queue) = [] := by simp [listings, List.filterMap_map]
    have hreceipts : receipts (shown.map .queue) = [] := by simp [receipts, List.filterMap_map]
    refine ⟨hsettings, ?_, ?_, hmoves, by simpa using fun p => ⟨hunadded p, hno p⟩⟩
    · rwa [listings_append, hlistings, List.append_nil]
    · rwa [listings_append, hlistings, receipts_append, hreceipts, List.append_nil, List.append_nil]
  | remember memory =>
    rw [List.append_nil] at hmoves ⊢
    exact ⟨hsettings, hknows, hsent, hmoves, hunadded⟩

theorem seen_of_run {memory : Memory}
    (h : Run Step { settings, memory, stage := .idle { policy } } log v) :
    Seen settings policy log v :=
  h.preserves ⟨rfl, fun _ => rfl, rfl, .refl _, by simp⟩ fun h step => h.keep step

end WatchedQueue

end Rendezvous
