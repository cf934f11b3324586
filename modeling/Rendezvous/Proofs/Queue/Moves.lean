import Rendezvous.Proofs.Numbered
import Rendezvous.Proofs.Queue.Waiting
import Rendezvous.Proofs.Run
import Rendezvous.Queue.Drain

/-!
# The moves of a queue

A queue is idle or being drained. While it is drained, peers arrive, the tasks that were spawned
compete for the free places, so that any of them may be the next to begin, the processing of items
ends in any order and in any way, and items that have ended are settled one by one. When a drain is
cut off, its tasks are aborted one after the other, whether they have a place or wait for one, and
what they worked for is put back.

Every one of these moves hands some items over from the drain to its report and to the queue, and
does nothing else: what was held before is held afterwards or has been settled, and what has been
settled goes where its fate sends it.
-/

namespace Rendezvous

open scoped List

/-- What a queue shows of its work. The items of a drain are numbered in the order of dispatch. -/
inductive QueueEvent where
  /-- A peer is added. -/
  | enqueued (p : Peer)
  /-- An arrival is pulled, and is due at once. -/
  | pulled (now : Instant) (p : Peer)
  /-- A drain takes out what is due, in this order. -/
  | drained (now : Instant) (ws : List WorkItem)
  /-- A task is spawned for an item. -/
  | dispatched (w : WorkItem)
  /-- A task has a place, and the processing of its item begins. -/
  | started (id : Nat) (w : WorkItem)
  /-- The processing of an item ends or is cut off. -/
  | stopped (id : Nat) (w : WorkItem) (ending : WorkEnding)
  /-- An item is settled after its task has ended. -/
  | settled (now : Instant) (w : WorkItem) (ending : WorkEnding)
  /-- What is left of an item is scheduled until it is due. -/
  | scheduled (due : Instant) (w : WorkItem)

/-- What becomes of an item that was processed. -/
inductive Fate where
  /-- It is done. -/
  | succeeded
  /-- It is tried again later, and that counts as a retry. -/
  | retried
  /-- It is given up. -/
  | abandoned
  /-- It is put back as it was. -/
  | requeued
deriving DecidableEq, Repr

namespace Fate

/-- What becomes of an item when its processing ends in a given way. -/
def of (policy : RetryPolicy) (w : WorkItem) : WorkEnding → Fate
  | .value (.ok ()) => .succeeded
  | .value (.error e) =>
    if e = .cancelled then .requeued
    else if (e.isFormat = true ∧ policy.retryFormatErrors = false) ∨ policy.maxRetries ≤ w.retries
    then .abandoned
    else .retried
  | .crashed => .abandoned
  | .aborted => .requeued

/-- What is left of an item in the queue. -/
def remainder? (w : WorkItem) : Fate → Option WorkItem
  | .succeeded => none
  | .retried => some w.retry
  | .abandoned => none
  | .requeued => some w

theorem node_remainder {w v : WorkItem} {fate : Fate} (h : fate.remainder? w = some v) :
    v.node = w.node := by
  cases fate <;> simp only [remainder?, Option.some.injEq, reduceCtorEq] at h <;> subst h <;> rfl

/-- Only an item with retries left is retried. -/
theorem retries_lt {policy : RetryPolicy} {w : WorkItem} {ending : WorkEnding}
    (h : of policy w ending = .retried) : w.retries < policy.maxRetries := by
  unfold of at h
  split at h
  · exact absurd h (by simp)
  · split at h
    · exact absurd h (by simp)
    · split at h
      · exact absurd h (by simp)
      · rename_i hno
        exact Nat.lt_of_not_le fun hle => hno (Or.inr hle)
  · exact absurd h (by simp)
  · exact absurd h (by simp)

/-- The verdict on a failed item sends it where its fate does. -/
theorem of_error (policy : RetryPolicy) (w : WorkItem) (e : ResolveError) :
    of policy w (.value (.error e)) =
      match RetryQueue.verdict policy w e with
      | .requeue => .requeued
      | .abandon => .abandoned
      | .retry => .retried := by
  simp only [of, RetryQueue.verdict]
  by_cases hc : e = .cancelled
  · simp [hc]
  · by_cases hf : e.isFormat = true ∧ policy.retryFormatErrors = false
    · simp [hc, hf]
    · by_cases hm : policy.maxRetries ≤ w.retries
      · simp [hc, hm]
      · have hf' : (e.isFormat && !policy.retryFormatErrors) = false := by
          simpa using hf
        rw [if_neg hc, if_neg (by tauto), if_neg hc, hf', if_neg (by simp), if_neg hm]

end Fate

/-- What is left of an item that is settled, and when it is due: one that is retried is due after
the delay of the retry, and one that is put back as it was is due at once. -/
def leftover? (policy : RetryPolicy) (now : Instant) (w : WorkItem) (ending : WorkEnding) :
    Option (Instant × WorkItem) :=
  match Fate.of policy w ending with
  | .retried =>
    ((policy.backoff? (w.retries + 1)).bind (Instant.after? now)).map fun due => (due, w.retry)
  | .requeued => some (now, w)
  | .succeeded | .abandoned => none

/-- Note in a report what has become of an item. -/
def DrainReport.note (r : DrainReport) (w : WorkItem) : Fate → DrainReport
  | .succeeded => { r with succeeded := r.succeeded ++ [w.node] }
  | .retried => { r with retried := r.retried ++ [w.node] }
  | .abandoned => { r with abandoned := r.abandoned ++ [w.node] }
  | .requeued => r

/-- What is shown when an item is settled: that it is, and until when its remainder is scheduled. -/
def settlement (policy : RetryPolicy) (now : Instant) (w : WorkItem) (ending : WorkEnding) :
    List QueueEvent :=
  .settled now w ending ::
    (leftover? policy now w ending).toList.map fun l => .scheduled l.1 l.2

/-- The items that were settled, with the way in which their processing ended. -/
def outcomes (log : List QueueEvent) : List (WorkItem × WorkEnding) :=
  log.filterMap fun
    | .settled _ w ending => some (w, ending)
    | _ => none

@[simp] theorem outcomes_append (log log' : List QueueEvent) :
    outcomes (log ++ log') = outcomes log ++ outcomes log' :=
  List.filterMap_append

@[simp] theorem outcomes_settlement (policy : RetryPolicy) (now : Instant) (w : WorkItem)
    (ending : WorkEnding) : outcomes (settlement policy now w ending) = [(w, ending)] := by
  simp [outcomes, settlement, List.filterMap_map]

theorem mem_outcomes {log : List QueueEvent} {now : Instant} {w : WorkItem} {ending : WorkEnding}
    (h : .settled now w ending ∈ log) : (w, ending) ∈ outcomes log :=
  List.mem_filterMap.2 ⟨_, h, rfl⟩

/-- What the settled items have left in the queue. -/
def remainders (policy : RetryPolicy) (log : List QueueEvent) : List WorkItem :=
  (outcomes log).filterMap fun o => (Fate.of policy o.1 o.2).remainder? o.1

@[simp] theorem remainders_append (policy : RetryPolicy) (log log' : List QueueEvent) :
    remainders policy (log ++ log') = remainders policy log ++ remainders policy log' := by
  simp [remainders]

/-- What is left of an item stands for it, and of some items nothing is left. -/
theorem remainders_sublist (policy : RetryPolicy) (log : List QueueEvent) :
    ((remainders policy log).map WorkItem.node).Sublist
      (((outcomes log).map (·.1)).map WorkItem.node) := by
  unfold remainders
  induction outcomes log with
  | nil => simp
  | cons o rest ih =>
    cases hr : (Fate.of policy o.1 o.2).remainder? o.1 with
    | none =>
      simp only [List.filterMap_cons, hr]
      exact ih.cons _
    | some v =>
      simp only [List.filterMap_cons, hr, List.map_cons, Fate.node_remainder hr]
      exact ih.cons_cons _

namespace Drain

/-- A waiting item takes a free place. -/
def place (d : Drain) (w : Nat × WorkItem) : Drain :=
  { d with waiting := d.waiting.erase w, running := d.running ++ [w] }

/-- The task of a waiting item is aborted. -/
def withdraw (d : Drain) (w : Nat × WorkItem) : Drain :=
  { d with waiting := d.waiting.erase w, ended := d.ended ++ [(w.2, .aborted)] }

/-- The moves of a drain and what they show. -/
inductive Move : Drain → List QueueEvent → Drain → Prop where
  /-- A peer is added. -/
  | arrive (d : Drain) (p : Peer) : Move d [.enqueued p] { d with queue := d.queue.enqueue p }
  /-- Any waiting item takes a free place. -/
  | start {d : Drain} {w : Nat × WorkItem} (h : w ∈ d.waiting)
      (free : d.running.length < d.queue.policy.slots) : Move d [.started w.1 w.2] (d.place w)
  /-- The processing of an item ends in any way. -/
  | finish {d : Drain} {w : Nat × WorkItem} (h : w ∈ d.running) (ending : WorkEnding) :
      Move d [.stopped w.1 w.2 ending] (d.finish w.1 ending)
  /-- The task of an item is aborted before it has a place. -/
  | withdraw {d : Drain} {w : Nat × WorkItem} (h : w ∈ d.waiting) : Move d [] (d.withdraw w)
  /-- Any of the items that have ended is settled. -/
  | join {d d' : Drain} {now : Instant} {w : WorkItem} {ending : WorkEnding}
      {before after : List (WorkItem × WorkEnding)} (ended : d.ended = before ++ (w, ending) :: after)
      (h : { d with ended := before ++ after }.settle? now w ending = some d') :
      Move d (settlement d.queue.policy now w ending) d'

/-- The items that were dispatched and are not settled. -/
def held (d : Drain) : List WorkItem :=
  d.waiting.map (·.2) ++ d.running.map (·.2) ++ d.ended.map (·.1)

theorem mem_held_of_waiting {d : Drain} {w : Nat × WorkItem} (hw : w ∈ d.waiting) :
    w.2 ∈ d.held :=
  List.mem_append_left _ (List.mem_append_left _ (List.mem_map.2 ⟨w, hw, rfl⟩))

theorem mem_held_of_running {d : Drain} {w : Nat × WorkItem} (hw : w ∈ d.running) :
    w.2 ∈ d.held :=
  List.mem_append_left _ (List.mem_append_right _ (List.mem_map.2 ⟨w, hw, rfl⟩))

/-- The queue of a drain is in step, and no item is in two places. -/
structure Sound (d : Drain) : Prop where
  /-- The queue is in step. -/
  queue : d.queue.Sound
  /-- No two items that have not ended have one number. -/
  ids_nodup : ((d.waiting ++ d.running).map (·.1)).Nodup
  /-- No node waits in the queue or is held by the drain twice. -/
  nodes_nodup : ((d.queue.items ++ d.held).map WorkItem.node).Nodup

/-- What a move, or a run of moves, does to a drain, by what it shows. -/
structure Effect (d : Drain) (shown : List QueueEvent) (d' : Drain) : Prop where
  /-- What was held is held or has been settled. -/
  held : d.held.Perm (d'.held ++ (outcomes shown).map (·.1))
  /-- The queue gets what the settled items have left. -/
  items : d'.queue.items.Perm (d.queue.items ++ remainders d.queue.policy shown)
  /-- The report notes every settled item. -/
  report : d'.report =
    (outcomes shown).foldl (fun r o => r.note o.1 (Fate.of d.queue.policy o.1 o.2)) d.report
  /-- The policy stays. -/
  policy : d'.queue.policy = d.queue.policy
  /-- The counts stay until the drain is closed. -/
  stats : d'.queue.stats = d.queue.stats

namespace Effect

variable {d d' d'' : Drain} {shown shown' : List QueueEvent}

theorem refl (d : Drain) : Effect d [] d :=
  ⟨by simp [outcomes], by simp [remainders, outcomes], rfl, rfl, rfl⟩

theorem trans (h : Effect d shown d') (h' : Effect d' shown' d'') :
    Effect d (shown ++ shown') d'' := by
  refine ⟨?_, ?_, ?_, h'.policy.trans h.policy, h'.stats.trans h.stats⟩
  · refine h.held.trans ?_
    rw [outcomes_append, List.map_append]
    calc d'.held ++ (outcomes shown).map (·.1)
      _ ~ (d''.held ++ (outcomes shown').map (·.1)) ++ (outcomes shown).map (·.1) :=
          h'.held.append_right _
      _ ~ d''.held ++ ((outcomes shown).map (·.1) ++ (outcomes shown').map (·.1)) := by
          rw [List.append_assoc]
          exact List.perm_append_comm.append_left _
  · refine h'.items.trans ?_
    rw [h.policy, remainders_append, ← List.append_assoc]
    exact h.items.append_right _
  · rw [h'.report, h.report, h.policy, outcomes_append, List.foldl_append]

/-- A move that settles nothing leaves everything where it is, except that items change their place
in the drain. -/
theorem quiet (hnone : outcomes shown = []) (held : d.held ~ d'.held)
    (items : d'.queue.items = d.queue.items) (report : d'.report = d.report)
    (policy : d'.queue.policy = d.queue.policy) (stats : d'.queue.stats = d.queue.stats) :
    Effect d shown d' := by
  refine ⟨?_, ?_, ?_, policy, stats⟩
  · simpa [hnone] using held
  · simp [remainders, hnone, items]
  · simpa [hnone] using report

/-- A node that was held once is afterwards still in one place. -/
theorem nodes_nodup (h : Effect d shown d')
    (hd : ((d.queue.items ++ d.held).map WorkItem.node).Nodup) :
    ((d'.queue.items ++ d'.held).map WorkItem.node).Nodup := by
  have hafter : d'.queue.items ++ d'.held ~
      (d.queue.items ++ remainders d.queue.policy shown) ++ d'.held := h.items.append_right _
  have hbefore : d.queue.items ++ d.held ~
      (d.queue.items ++ (outcomes shown).map (·.1)) ++ d'.held := by
    rw [List.append_assoc]
    exact (h.held.trans List.perm_append_comm).append_left _
  rw [(hbefore.map _).nodup_iff] at hd
  rw [(hafter.map _).nodup_iff]
  refine hd.sublist ?_
  simp only [List.map_append]
  exact ((List.Sublist.refl _).append (remainders_sublist ..)).append (List.Sublist.refl _)

end Effect

/-! ## How a drain begins -/

theorem begin_queue (q : RetryQueue) (pulled now : Instant) :
    (begin q pulled now).queue =
      { ((q.pullArrivals pulled).takeDue now).2 with
        stats := { (q.pullArrivals pulled).stats with
          attempts := (q.pullArrivals pulled).stats.attempts +
            ((q.pullArrivals pulled).due now).length } } := rfl

theorem begin_items (q : RetryQueue) (pulled now : Instant) :
    (begin q pulled now).queue.items = (q.pullArrivals pulled).later now :=
  RetryQueue.takeDue_items ..

theorem begin_waiting (q : RetryQueue) (pulled now : Instant) :
    (begin q pulled now).waiting.map (·.2) = (q.pullArrivals pulled).due now := by
  simp [begin, RetryQueue.takeDue_fst, Function.comp_def, List.zipIdx_map_fst]

theorem begin_held (q : RetryQueue) (pulled now : Instant) :
    (begin q pulled now).held = (q.pullArrivals pulled).due now := by
  rw [held, begin_waiting]
  simp [begin]

theorem begin_arrivals (q : RetryQueue) (pulled now : Instant) :
    (begin q pulled now).queue.arrivals = [] :=
  (RetryQueue.pullAll_frame { q with arrivals := [] } pulled q.arrivals).2.1

/-- A drain begins with everything in one place. -/
theorem Sound.begin {q : RetryQueue} (h : q.Sound) (pulled now : Instant) :
    (begin q pulled now).Sound := by
  have hp := h.pullArrivals pulled
  refine ⟨(hp.takeDue now).congr rfl rfl rfl, ?_, ?_⟩
  · have hids : (((q.pullArrivals pulled).due now).zipIdx.map (·.2)).Nodup := by
      rw [List.zipIdx_map_snd]
      exact List.nodup_range'
    simpa [Drain.begin, RetryQueue.takeDue_fst, Function.comp_def] using hids
  · rw [begin_items, begin_held]
    have hall := List.perm_append_comm.trans ((q.pullArrivals pulled).due_append_later now)
    rw [(hall.map _).nodup_iff]
    exact hp.items_nodup

/-! ## Taking and leaving a place -/

theorem start?_place {d d' : Drain} {w : Nat × WorkItem} (h : d.start? = some (w, d')) :
    w ∈ d.waiting ∧ d.running.length < d.queue.policy.slots ∧ d' = d.place w := by
  unfold start? at h
  split at h
  · exact absurd h (by simp)
  · rename_i w' rest hw
    split at h
    · rename_i hfree
      simp only [Option.some.injEq, Prod.mk.injEq] at h
      obtain ⟨rfl, rfl⟩ := h
      refine ⟨by simp [hw], hfree, ?_⟩
      simp [place, hw]
    · exact absurd h (by simp)

theorem finish_eq (d : Drain) (id : Nat) (ending : WorkEnding) :
    d.finish id ending = d ∨ ∃ e, d.running.find? (·.1 == id) = some e ∧
      d.finish id ending =
        { d with
          running := d.running.filter (·.1 != id)
          ended := d.ended ++ [(e.2, ending)] } := by
  unfold finish
  split
  · rename_i i w hw
    exact Or.inr ⟨(i, w), hw, rfl⟩
  · exact Or.inl rfl

/-- The queue is not touched when a task ends. -/
theorem finish_queue (d : Drain) (id : Nat) (ending : WorkEnding) :
    (d.finish id ending).queue = d.queue := by
  rcases finish_eq d id ending with h | ⟨_, -, h⟩
  · rw [h]
  · rw [h]

/-- An item that takes a place is still held. -/
theorem held_place {d : Drain} {w : Nat × WorkItem} (hw : w ∈ d.waiting) :
    d.held ~ (d.place w).held := by
  have hwaiting : d.waiting ~ w :: d.waiting.erase w := List.perm_cons_erase hw
  simp only [held, Drain.place, List.map_append, List.map_cons, List.map_nil]
  refine List.Perm.append_right _ ?_
  refine ((hwaiting.map (·.2)).append_right _).trans ?_
  rw [← List.append_assoc]
  exact (List.perm_append_singleton _ _).symm

/-- An item whose task is aborted is still held. -/
theorem held_withdraw {d : Drain} {w : Nat × WorkItem} (hw : w ∈ d.waiting) :
    d.held ~ (d.withdraw w).held := by
  have hwaiting : d.waiting ~ w :: d.waiting.erase w := List.perm_cons_erase hw
  simp only [held, Drain.withdraw, List.map_append, List.map_cons, List.map_nil]
  refine (((hwaiting.map (·.2)).append_right _).append_right _).trans ?_
  rw [← List.append_assoc]
  exact (List.perm_append_singleton _ _).symm

namespace Sound

variable {d : Drain}

/-- The node of an item that is held does not wait in the queue. -/
theorem fresh (h : d.Sound) {w : WorkItem} (hw : w ∈ d.held) :
    w.node ∉ d.queue.items.map WorkItem.node := by
  have hn := h.nodes_nodup
  rw [List.map_append, List.nodup_append] at hn
  intro hq
  exact hn.2.2 _ hq _ (List.mem_map.2 ⟨w, hw, rfl⟩) rfl

theorem held_nodup (h : d.Sound) : (d.held.map WorkItem.node).Nodup := by
  have hn := h.nodes_nodup
  rw [List.map_append] at hn
  exact hn.sublist (List.sublist_append_right ..)

theorem running_nodup (h : d.Sound) : ((d.running.map (·.2)).map WorkItem.node).Nodup := by
  refine h.held_nodup.sublist (List.Sublist.map _ ?_)
  exact (List.sublist_append_right (d.waiting.map (·.2)) _).trans (List.sublist_append_left ..)

theorem running_ids (h : d.Sound) : (d.running.map (·.1)).Nodup := by
  have hids := h.ids_nodup
  rw [List.map_append] at hids
  exact hids.sublist (List.sublist_append_right ..)

/-- An item that is processed leaves its place when its processing ends, and nothing else changes. -/
theorem finish (h : d.Sound) {w : Nat × WorkItem} (hw : w ∈ d.running) (ending : WorkEnding) :
    d.running ~ w :: (d.finish w.1 ending).running ∧
      d.finish w.1 ending =
        { d with
          running := (d.finish w.1 ending).running
          ended := d.ended ++ [(w.2, ending)] } := by
  cases hfind : d.running.find? (·.1 == w.1) with
  | none =>
    have hne := List.find?_eq_none.1 hfind w hw
    exact absurd hne (by simp)
  | some e =>
    obtain rfl : e = w := List.inj_on_of_nodup_map h.running_ids
      (List.mem_of_find?_eq_some hfind) hw (fst_of_find? hfind)
    have hperm := perm_cons_filter h.running_ids hfind
    unfold Drain.finish
    rw [hfind]
    exact ⟨hperm, rfl⟩

/-- An item whose processing has ended is still held. -/
theorem held_finish (h : d.Sound) {w : Nat × WorkItem} (hw : w ∈ d.running) (ending : WorkEnding) :
    d.held ~ (d.finish w.1 ending).held := by
  obtain ⟨hrunning, heq⟩ := h.finish hw ending
  rw [heq]
  have hitems := hrunning.map (·.2)
  rw [List.map_cons] at hitems
  simp only [held, List.map_append, List.map_cons, List.map_nil]
  calc d.waiting.map (·.2) ++ d.running.map (·.2) ++ d.ended.map (·.1)
    _ ~ d.waiting.map (·.2) ++ (w.2 :: (d.finish w.1 ending).running.map (·.2)) ++
          d.ended.map (·.1) := (hitems.append_left _).append_right _
    _ ~ w.2 :: (d.waiting.map (·.2) ++ (d.finish w.1 ending).running.map (·.2) ++
          d.ended.map (·.1)) := List.perm_middle.append_right _
    _ ~ d.waiting.map (·.2) ++ (d.finish w.1 ending).running.map (·.2) ++
          (d.ended.map (·.1) ++ [w.2]) := by
        rw [← List.append_assoc]
        exact (List.perm_append_singleton _ _).symm

end Sound

/-! ## Settling -/

/-- Settling an item notes its fate and schedules what is left of it. -/
theorem settle?_leftover {d d' : Drain} {now : Instant} {w : WorkItem} {ending : WorkEnding}
    (h : d.settle? now w ending = some d') :
    d' = { d with
        queue := (leftover? d.queue.policy now w ending).elim d.queue fun l =>
          d.queue.schedule l.2 l.1
        report := d.report.note w (Fate.of d.queue.policy w ending) } ∧
      (leftover? d.queue.policy now w ending).map (·.2) =
        (Fate.of d.queue.policy w ending).remainder? w := by
  cases ending with
  | value result =>
    cases result with
    | ok _ =>
      simp only [settle?, Option.some.injEq] at h
      exact ⟨h.symm, rfl⟩
    | error e =>
      simp only [settle?] at h
      have hfate := Fate.of_error d.queue.policy w e
      cases hv : RetryQueue.verdict d.queue.policy w e with
      | requeue =>
        simp only [hv, Option.some.injEq] at h hfate
        simp only [leftover?, hfate]
        exact ⟨h.symm, rfl⟩
      | abandon =>
        simp only [hv, Option.some.injEq] at h hfate
        simp only [leftover?, hfate]
        exact ⟨h.symm, rfl⟩
      | retry =>
        simp only [hv, Option.map_eq_some_iff] at h hfate
        obtain ⟨queue, hq, rfl⟩ := h
        rw [RetryQueue.retry?_eq, Option.map_eq_some_iff] at hq
        obtain ⟨due, hdue, rfl⟩ := hq
        simp only [leftover?, hfate, hdue]
        exact ⟨rfl, rfl⟩
  | crashed =>
    simp only [settle?, Option.some.injEq] at h
    exact ⟨h.symm, rfl⟩
  | aborted =>
    simp only [settle?, Option.some.injEq] at h
    exact ⟨h.symm, rfl⟩

/-- Settling an item notes its fate and leaves its remainder in the queue. -/
theorem settle?_eq {d d' : Drain} {now : Instant} {w : WorkItem} {ending : WorkEnding}
    (h : d.settle? now w ending = some d') :
    ∃ queue, d' = { d with queue, report := d.report.note w (Fate.of d.queue.policy w ending) } ∧
      ((Fate.of d.queue.policy w ending).remainder? w = none ∧ queue = d.queue ∨
        ∃ v due, (Fate.of d.queue.policy w ending).remainder? w = some v ∧
          queue = d.queue.schedule v due) := by
  obtain ⟨rfl, hremainder⟩ := settle?_leftover h
  refine ⟨_, rfl, ?_⟩
  cases hleft : leftover? d.queue.policy now w ending with
  | none =>
    rw [hleft] at hremainder
    exact Or.inl ⟨hremainder.symm, rfl⟩
  | some l =>
    rw [hleft] at hremainder
    exact Or.inr ⟨l.2, l.1, hremainder.symm, rfl⟩


/-- Settling does not touch what else has ended. -/
theorem settle?_ended (d : Drain) (ended : List (WorkItem × WorkEnding)) (now : Instant)
    (w : WorkItem) (ending : WorkEnding) :
    { d with ended }.settle? now w ending =
      (d.settle? now w ending).map ({ · with ended }) := by
  cases ending with
  | crashed => rfl
  | aborted => rfl
  | value result =>
    cases result with
    | ok _ => rfl
    | error e =>
      cases hv : RetryQueue.verdict d.queue.policy w e with
      | requeue => simp [settle?, hv]
      | abandon => simp [settle?, hv]
      | retry => simp [settle?, hv, Function.comp_def]

/-- Settling breaks down in one case only: the next retry of an item would be due beyond the range
of the clock or of durations. -/
theorem settle?_eq_none_iff (d : Drain) (now : Instant) (w : WorkItem) (ending : WorkEnding) :
    d.settle? now w ending = none ↔
      ∃ e, ending = .value (.error e) ∧ Fate.of d.queue.policy w ending = .retried ∧
        (d.queue.policy.backoff? (w.retries + 1)).bind (Instant.after? now) = none := by
  cases ending with
  | value result =>
    cases result with
    | ok _ => simp [settle?]
    | error e =>
      have hfate := Fate.of_error d.queue.policy w e
      cases hv : RetryQueue.verdict d.queue.policy w e with
      | retry =>
        rw [hv] at hfate
        have hretry : d.queue.retry? w now = none ↔
            (d.queue.policy.backoff? (w.retries + 1)).bind (Instant.after? now) = none := by
          rw [RetryQueue.retry?_eq, Option.map_eq_none_iff]
        simp only [settle?, hv, Option.map_eq_none_iff, hretry]
        constructor
        · intro hnone
          exact ⟨e, rfl, hfate, hnone⟩
        · rintro ⟨-, -, -, hnone⟩
          exact hnone
      | requeue =>
        rw [hv] at hfate
        simp [settle?, hv, hfate]
      | abandon =>
        rw [hv] at hfate
        simp [settle?, hv, hfate]
  | crashed => simp [settle?]
  | aborted => simp [settle?]

/-- An item that is settled was held, besides everything that is held afterwards. -/
theorem held_join {d : Drain} {w : WorkItem} {ending : WorkEnding}
    {before after : List (WorkItem × WorkEnding)} (ended : d.ended = before ++ (w, ending) :: after) :
    d.held ~ { d with ended := before ++ after }.held ++ [w] := by
  simp only [held, ended, List.map_append, List.map_cons]
  rw [List.append_assoc _ _ [w]]
  exact (List.perm_middle.trans (List.perm_append_singleton _ _).symm).append_left _

/-! ## What moves do -/

theorem Move.effect {d d' : Drain} {shown : List QueueEvent} (hd : d.Sound)
    (h : Move d shown d') : Effect d shown d' := by
  cases h with
  | arrive p => exact .quiet rfl (List.Perm.refl _) rfl rfl rfl rfl
  | start hw _ => exact .quiet rfl (held_place hw) rfl rfl rfl rfl
  | finish hw ending =>
    obtain ⟨-, heq⟩ := hd.finish hw ending
    have hheld := hd.held_finish hw ending
    rw [heq] at hheld ⊢
    exact .quiet rfl hheld rfl rfl rfl rfl
  | withdraw hw => exact .quiet rfl (held_withdraw hw) rfl rfl rfl rfl
  | @join _ now w ending before after ended h =>
    obtain ⟨queue, rfl, hq⟩ := settle?_eq h
    have hheld := held_join ended
    have hw : w ∈ d.held := hheld.symm.subset (by simp)
    rcases hq with ⟨hr, rfl⟩ | ⟨v, due, hr, rfl⟩
    · refine ⟨by rw [outcomes_settlement]; exact hheld, ?_, by simp, rfl, rfl⟩
      have hrem : remainders d.queue.policy (settlement d.queue.policy now w ending) = [] := by
        simpa [remainders] using hr
      rw [hrem, List.append_nil]
    · refine ⟨by rw [outcomes_settlement]; exact hheld, ?_, by simp, rfl, rfl⟩
      have hrem : remainders d.queue.policy (settlement d.queue.policy now w ending) = [v] := by
        simp only [remainders, outcomes_settlement, List.filterMap_cons, List.filterMap_nil]
        rw [hr]
      have hv : v.node ∉ d.queue.items.map WorkItem.node := by
        rw [Fate.node_remainder hr]
        exact hd.fresh hw
      rw [hrem]
      exact (hd.queue.schedule_fresh due hv).trans (List.perm_append_singleton _ _).symm

theorem Move.sound {d d' : Drain} {shown : List QueueEvent} (hd : d.Sound)
    (h : Move d shown d') : d'.Sound := by
  have hnodes := (h.effect hd).nodes_nodup hd.nodes_nodup
  obtain ⟨hqueue, hids, -⟩ := id hd
  cases h with
  | arrive p => exact ⟨hqueue.congr rfl rfl rfl, hids, hnodes⟩
  | @start w hw _ =>
    have hall : d.waiting ++ d.running ~ d.waiting.erase w ++ (d.running ++ [w]) := by
      refine ((List.perm_cons_erase hw).append_right _).trans ?_
      rw [← List.append_assoc]
      exact (List.perm_append_singleton _ _).symm
    exact ⟨hqueue, (hall.map _).nodup_iff.1 hids, hnodes⟩
  | @finish w hw ending =>
    obtain ⟨hrunning, heq⟩ := hd.finish hw ending
    rw [heq] at hnodes ⊢
    refine ⟨hqueue, ?_, hnodes⟩
    have hall := ((hrunning.append_left d.waiting).trans List.perm_middle).map (·.1)
    exact (List.nodup_cons.1 (hall.nodup_iff.1 hids)).2
  | @withdraw w hw =>
    refine ⟨hqueue, hids.sublist (List.Sublist.map _ ?_), hnodes⟩
    exact List.erase_sublist.append_right _
  | join ended h =>
    obtain ⟨queue, rfl, hq⟩ := settle?_eq h
    refine ⟨?_, hids, hnodes⟩
    rcases hq with ⟨-, rfl⟩ | ⟨v, due, -, rfl⟩
    · exact hqueue
    · exact hqueue.schedule v due

/-- What a run of moves does, and that everything stays in one place. -/
theorem Moves.effect {d d' : Drain} {log : List QueueEvent} (hd : d.Sound)
    (h : Run Move d log d') : d'.Sound ∧ Effect d log d' := by
  induction h with
  | refl => exact ⟨hd, .refl d⟩
  | tail _ step ih =>
    obtain ⟨hs, he⟩ := ih
    exact ⟨step.sound hs, he.trans (step.effect hs)⟩

end Drain

end Rendezvous
