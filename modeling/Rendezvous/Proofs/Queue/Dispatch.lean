import Rendezvous.Proofs.Queue.Calls

/-!
# Single dispatch

A drain fixes what it dispatches when it begins: one item for each node that is due, and for a node
that has arrived the item of its latest arrival. What is scheduled or arrives while the drain goes
on waits for the next one. As a drain ends only when each of its items has been settled, no two
handler calls for one node are ever in progress.
-/

namespace Rendezvous

open scoped List

/-! ## Arrivals -/

namespace RetryQueue

theorem Sound.pullOne_pending {q : RetryQueue} (h : q.Sound) (now : Instant) (p : Peer) :
    (q.pullOne now p).pending ~
      (⟨now, q.seq + 1⟩, ⟨p, 0⟩) :: q.pending.filter (·.2.node != p.nodeName) :=
  Sound.schedule_pending_perm
    (q := { q with stats := { q.stats with enqueued := q.stats.enqueued + 1 } })
    (h.congr rfl rfl rfl) ⟨p, 0⟩ now

/-- An item stays where it is while arrivals of other nodes are pulled. -/
theorem Sound.mem_pullAll {q : RetryQueue} (h : q.Sound) (now : Instant) {ps : List Peer}
    {e : Slot × WorkItem} (he : e ∈ q.pending) (hother : ∀ p ∈ ps, p.nodeName ≠ e.2.node) :
    e ∈ (ps.foldl (RetryQueue.pullOne · now) q).pending := by
  induction ps generalizing q with
  | nil => exact he
  | cons p ps ih =>
    rw [List.forall_mem_cons] at hother
    refine ih (h.pullOne now p) ?_ hother.2
    refine (h.pullOne_pending now p).mem_iff.2 (List.mem_cons_of_mem _ ?_)
    exact List.mem_filter.2 ⟨he, bne_iff_ne.2 hother.1.symm⟩

/-- The latest arrival of a node is due at once and has no retries. -/
theorem Sound.latest_pending {q : RetryQueue} (h : q.Sound) (now : Instant) {ps ps' : List Peer}
    {p : Peer} (harrivals : q.arrivals = ps ++ p :: ps')
    (hlatest : ∀ p' ∈ ps', p'.nodeName ≠ p.nodeName) :
    ∃ e ∈ (q.pullArrivals now).pending, e.1.due = now ∧ e.2 = ⟨p, 0⟩ := by
  have hbefore := Sound.pullAll (q := { q with arrivals := [] }) (h.congr rfl rfl rfl) now ps
  rw [pullArrivals_eq, harrivals, List.foldl_append, List.foldl_cons]
  generalize ps.foldl (RetryQueue.pullOne · now) { q with arrivals := [] } = q' at hbefore ⊢
  refine ⟨(⟨now, q'.seq + 1⟩, ⟨p, 0⟩), ?_, rfl, rfl⟩
  refine (hbefore.pullOne now p).mem_pullAll now ?_ hlatest
  exact (hbefore.pullOne_pending now p).mem_iff.2 List.mem_cons_self

end RetryQueue

/-- An item is the only one of its node. -/
theorem filter_node_eq {ws : List WorkItem} (hnodes : (ws.map WorkItem.node).Nodup) {w : WorkItem}
    (hw : w ∈ ws) : ws.filter (fun v => v.node = w.node) = [w] := by
  have hsame : ws.filter (fun v => v.node = w.node) = ws.filter (fun v => v = w) := by
    refine List.filter_congr fun v hv => decide_eq_decide.2 ⟨?_, fun h => by rw [h]⟩
    exact fun hnode => List.inj_on_of_nodup_map hnodes hv hw hnode
  rw [hsame]
  have hcount : ws.count w = 1 := List.count_eq_one_of_mem hnodes.of_map hw
  rw [List.filter_eq, hcount, List.replicate_one]

/-- Where an added peer is among those that have not been pulled. -/
theorem arrivals_append {log : List QueueEvent} (h : ∀ e ∈ log, e.isDrain = false)
    (ps : List Peer) :
    ∃ ps', log.foldl QueueEvent.arrivals ps = ps ++ ps' ∧ ∀ p ∈ ps', .enqueued p ∈ log := by
  induction log generalizing ps with
  | nil => exact ⟨[], by simp, by simp⟩
  | cons e log ih =>
    rw [List.forall_mem_cons] at h
    obtain ⟨ps', hps', hmem⟩ := ih h.2 (QueueEvent.arrivals ps e)
    rw [List.foldl_cons, hps']
    cases e with
    | enqueued p =>
      refine ⟨p :: ps', by simp [QueueEvent.arrivals], ?_⟩
      intro p' hp'
      rcases List.mem_cons.1 hp' with rfl | hp'
      · exact List.mem_cons_self
      · exact List.mem_cons_of_mem _ (hmem p' hp')
    | drained now ws => exact absurd h.1 (by simp [QueueEvent.isDrain])
    | _ => exact ⟨ps', rfl, fun p hp => List.mem_cons_of_mem _ (hmem p hp)⟩

/-- A peer that was added after the last drain has begun, and after which no other peer of the same
name was added. -/
def Latest (p : Peer) (log : List QueueEvent) : Prop :=
  ∃ earlier later, log = earlier ++ .enqueued p :: later ∧ (∀ e ∈ later, e.isDrain = false) ∧
    ∀ p', .enqueued p' ∈ later → p'.nodeName ≠ p.nodeName

theorem Latest.newcomers {p : Peer} {log : List QueueEvent} (h : Latest p log) :
    ∃ ps ps', newcomers log = ps ++ p :: ps' ∧ ∀ p' ∈ ps', p'.nodeName ≠ p.nodeName := by
  obtain ⟨earlier, later, rfl, hdrained, hother⟩ := h
  obtain ⟨ps', hps', hmem⟩ := arrivals_append hdrained (Rendezvous.newcomers earlier ++ [p])
  refine ⟨Rendezvous.newcomers earlier, ps', ?_, fun p' hp' => hother p' (hmem p' hp')⟩
  rw [Rendezvous.newcomers, List.foldl_append, List.foldl_cons]
  exact hps'.trans (List.append_cons ..).symm

/-! ## Within one drain -/

@[simp] theorem dispatches_append (log log' : List QueueEvent) :
    dispatches (log ++ log') = dispatches log ++ dispatches log' :=
  List.filterMap_append

@[simp] theorem starts_append (log log' : List QueueEvent) :
    starts (log ++ log') = starts log ++ starts log' :=
  List.filterMap_append

theorem dispatches_dispatched (ws : List WorkItem) :
    dispatches (ws.map .dispatched) = ws := by
  simp [dispatches, List.filterMap_map]

theorem starts_dispatched (ws : List WorkItem) : starts (ws.map .dispatched) = [] := by
  simp [starts, QueueEvent.start?]

theorem untilDrain_append {log : List QueueEvent} (h : ∀ e ∈ log, e.isDrain = false)
    (log' : List QueueEvent) : untilDrain (log ++ log') = log ++ untilDrain log' :=
  List.takeWhile_append_of_pos fun e he => by simp [h e he]

theorem untilDrain_eq_self {log : List QueueEvent} (h : ∀ e ∈ log, e.isDrain = false) :
    untilDrain log = log := by
  have happend := untilDrain_append h []
  rwa [List.append_nil, untilDrain, untilDrain, List.takeWhile_nil, List.append_nil] at happend

theorem untilDrain_append_of_mem {log : List QueueEvent} {e : QueueEvent} (he : e ∈ log)
    (hdrain : e.isDrain = true) (log' : List QueueEvent) :
    untilDrain (log ++ log') = untilDrain log := by
  induction log with
  | nil => exact absurd he List.not_mem_nil
  | cons x log ih =>
    by_cases hx : x.isDrain = true
    · simp [untilDrain, hx]
    · have hmem : e ∈ log := by
        rcases List.mem_cons.1 he with rfl | he
        · exact absurd hdrain hx
        · exact he
      have hrest := ih hmem
      simp only [untilDrain] at hrest
      simp [untilDrain, hx, hrest]

namespace QueueStage

variable {s t : QueueStage} {log shown before after : List QueueEvent} {policy : RetryPolicy}
  {now : Instant} {ws : List WorkItem}

/-- What is shown when a drain has dispatched `ws`, until the next one begins. -/
structure During (ws : List WorkItem) (log : List QueueEvent) (s : QueueStage) : Prop where
  /-- Nothing more is dispatched. -/
  dispatches_eq : dispatches (untilDrain log) = []
  /-- A handler is called at most once with each of the items. -/
  starts_subperm : starts (untilDrain log) <+~ ws
  /-- What waits was dispatched and has not been handed out. -/
  waiting_subperm : (∀ e ∈ log, e.isDrain = false) → (starts log ++ s.waiting) <+~ ws

/-- As long as no drain begins, nothing is dispatched and only what waits is handed out. -/
theorem During.of_no_drain (hno : ∀ e ∈ log, e.isDrain = false) (hnone : dispatches log = [])
    (h : (starts log ++ s.waiting) <+~ ws) : During ws log s := by
  have hself := untilDrain_eq_self hno
  refine ⟨by rw [hself, hnone], ?_, fun _ => h⟩
  rw [hself]
  exact (List.sublist_append_left ..).subperm.trans h

theorem During.work {d d' : Drain} (hd : d.Sound) (h : Drain.Move d shown d') :
    During (d.waiting.map (·.2)) shown (.draining d') := by
  cases h with
  | arrive p => exact .of_no_drain (by simp [QueueEvent.isDrain]) rfl (List.Subperm.refl _)
  | start hw _ =>
    refine .of_no_drain (by simp [QueueEvent.isDrain]) rfl ?_
    exact ((List.perm_cons_erase hw).map (·.2)).symm.subperm
  | @finish w hw ending =>
    refine .of_no_drain (by simp [QueueEvent.isDrain]) rfl ?_
    obtain ⟨-, heq⟩ := hd.finish hw ending
    rw [heq]
    exact List.Subperm.refl _
  | withdraw hw =>
    refine .of_no_drain (by simp) rfl ?_
    exact (List.Sublist.map _ List.erase_sublist).subperm
  | @join _ now w ending _ _ ended h =>
    obtain ⟨queue, rfl, -⟩ := Drain.settle?_eq h
    refine .of_no_drain (isDrain_settlement _ _ _ _) (dispatches_settlement _ _ _ _) ?_
    rw [starts_settlement]
    exact List.Subperm.refl _

theorem Move.during (hs : s.Sound) (h : Move s shown t) : During s.waiting shown t := by
  cases h with
  | enqueue q p => exact .of_no_drain (by simp [QueueEvent.isDrain]) rfl (List.Subperm.refl _)
  | @begin q pulled now _ =>
    have hpulled : untilDrain (beginning pulled now q.arrivals ((q.pullArrivals pulled).due now)) =
        q.arrivals.map (.pulled pulled) := by
      rw [beginning, untilDrain_append (by simp [QueueEvent.isDrain])]
      simp [untilDrain, QueueEvent.isDrain]
    refine ⟨?_, ?_, fun hno => ?_⟩
    · rw [hpulled]
      simp [dispatches, List.filterMap_map]
    · have hnone : starts (q.arrivals.map (.pulled pulled)) = [] := by
        simp [starts, QueueEvent.start?]
      rw [hpulled, hnone]
      exact List.nil_subperm
    · have hdrain := hno (.drained now ((q.pullArrivals pulled).due now)) (by simp [beginning])
      exact absurd hdrain (by simp [QueueEvent.isDrain])
  | work h => exact .work hs h
  | close _ => exact .of_no_drain (by simp) rfl List.nil_subperm

theorem During.keep (hs : s.Sound) (h : During ws log s) (step : Move s shown t) :
    During ws (log ++ shown) t := by
  obtain ⟨hnone, hstarts, hwaiting⟩ := h
  by_cases hlog : ∀ e ∈ log, e.isDrain = false
  · obtain ⟨hnone', hstarts', hwaiting'⟩ := step.during hs
    have hout := hwaiting hlog
    rw [untilDrain_eq_self hlog] at hnone hstarts
    refine ⟨?_, ?_, fun hno => ?_⟩
    · rw [untilDrain_append hlog, dispatches_append, hnone, hnone', List.append_nil]
    · rw [untilDrain_append hlog, starts_append]
      exact ((List.subperm_append_left _).2 hstarts').trans hout
    · rw [starts_append, List.append_assoc]
      have hshown := hwaiting' fun e he => hno e (List.mem_append_right _ he)
      exact ((List.subperm_append_left _).2 hshown).trans hout
  · push Not at hlog
    obtain ⟨e, he, hdrain⟩ := hlog
    have hsame := untilDrain_append_of_mem he (by simpa using hdrain) shown
    refine ⟨by rwa [hsame], by rwa [hsame], fun hno => ?_⟩
    exact absurd (hno e (List.mem_append_left _ he)) hdrain

/-- A drain dispatches what is due when it begins and calls the handler with nothing else. -/
theorem Moves.drain (h : Run Move (.idle { policy }) log s)
    (hlog : log = before ++ .drained now ws :: after) :
    ∃ (q : RetryQueue) (pulled : Instant), q.Sound ∧ q.arrivals = newcomers before ∧ pulled ≤ now ∧
      ws = (q.pullArrivals pulled).due now ∧ dispatches (untilDrain after) = ws ∧
      starts (untilDrain after) <+~ ws := by
  obtain ⟨t, u, log₁, shown₁, shown₂, log₂, hfirst, hstep, hsecond, rfl, rfl⟩ := h.split_at hlog
  have hseen := Moves.seen hfirst
  have hsound := hstep.sound hseen.sound
  obtain ⟨q, pulled, hle, rfl, rfl, rfl, rfl, rfl⟩ := hstep.drains
  have hbegin : During ((q.pullArrivals pulled).due now) [] (.draining (.begin q pulled now)) := by
    refine .of_no_drain (by simp) rfl ?_
    simp only [waiting, Drain.begin_waiting]
    exact List.Subperm.refl _
  have hduring := hsecond.preserves (P := fun log s => s.Sound ∧ During _ log s) ⟨hsound, hbegin⟩
    fun h step => ⟨step.sound h.1, h.2.keep h.1 step⟩
  obtain ⟨-, hnone, hstarts, -⟩ := hduring
  have hno : ∀ e ∈ ((q.pullArrivals pulled).due now).map QueueEvent.dispatched,
      e.isDrain = false := by
    simp [QueueEvent.isDrain]
  refine ⟨q, pulled, hseen.sound, ?_, hle, rfl, ?_, ?_⟩
  · rw [newcomers, List.foldl_append, arrivals_pulled]
    exact hseen.arrivals
  · rw [untilDrain_append hno, dispatches_append, dispatches_dispatched, hnone, List.append_nil]
  · rwa [untilDrain_append hno, starts_append, starts_dispatched, List.nil_append]

/-- The latest arrival of a node is the only item of the node, once arrivals are pulled. -/
theorem pulled_latest {q : RetryQueue} (hq : q.Sound) (harrivals : q.arrivals = newcomers log)
    {p : Peer} (hp : Latest p log) (pulled : Instant) :
    (q.pullArrivals pulled).items.filter (fun w => w.node = p.nodeName) = [⟨p, 0⟩] ∧
      ∀ now, pulled ≤ now →
        ((q.pullArrivals pulled).due now).filter (fun w => w.node = p.nodeName) = [⟨p, 0⟩] := by
  have hpulled := hq.pullArrivals pulled
  obtain ⟨ps, ps', hlatest, hother⟩ := hp.newcomers
  obtain ⟨e, he, hdue, hitem⟩ := hq.latest_pending pulled (harrivals.trans hlatest) hother
  refine ⟨filter_node_eq hpulled.items_nodup (w := ⟨p, 0⟩) ?_, fun now hle => ?_⟩
  · exact List.mem_map.2 ⟨e, he, hitem⟩
  · refine filter_node_eq (hpulled.due_nodup now) (w := ⟨p, 0⟩) ?_
    exact List.mem_map.2 ⟨e, List.mem_filter.2 ⟨he, by simpa [hdue] using hle⟩, hitem⟩

/-- What a queue promises about handler calls, by what it has shown and what it is at. -/
structure SingleDispatch (policy : RetryPolicy) (log : List QueueEvent) (s : QueueStage) :
    Prop where
  /-- No two handler calls for one node are in progress. -/
  one_call : ((inProgress log).map WorkItem.node).Nodup
  /-- There are no more handler calls in progress than the policy allows. -/
  calls_le : (inProgress log).length ≤ max 1 policy.concurrency
  /-- A drain dispatches each node at most once. -/
  dispatched_once : ∀ {before now ws after}, log = before ++ .drained now ws :: after →
    ((dispatches (untilDrain after)).map WorkItem.node).Nodup
  /-- A drain calls the handler at most once with each item that it has dispatched, and with no
  other. -/
  calls_dispatched : ∀ {before now ws after}, log = before ++ .drained now ws :: after →
    starts (untilDrain after) <+~ dispatches (untilDrain after)
  /-- A drain dispatches each node that was added since the drain before it began, as it was added
  last and with no retries. -/
  latest_dispatched : ∀ {before now ws after}, log = before ++ .drained now ws :: after →
    ∀ p, Latest p before →
      (dispatches (untilDrain after)).filter (fun w => w.node = p.nodeName) = [⟨p, 0⟩]
  /-- A node that was added while the last drain went on or after it replaces what that drain has
  left of it. -/
  latest_replaces : ∀ {q}, s = .idle q → ∀ p, Latest p log → ∀ now,
    (q.pullArrivals now).items.filter (fun w => w.node = p.nodeName) = [⟨p, 0⟩]

/-- Whatever has happened to a queue, no two handler calls for one node are in progress and there
are no more of them than the policy allows; a drain dispatches no node twice and calls no handler
twice for a node; and a node that was added is dispatched by the next drain, as it was added last,
whatever else was left of it. -/
theorem queue_dispatches_singly (h : Run Move (.idle { policy }) log s) :
    SingleDispatch policy log s := by
  have hseen := Moves.seen h
  refine ⟨?_, ?_, ?_, ?_, ?_, ?_⟩
  · exact (hseen.calls.map _).nodup_iff.2 hseen.running_nodup
  · rw [hseen.calls.length_eq]
    exact hseen.room
  · intro before now ws after hlog
    obtain ⟨q, pulled, hq, -, -, rfl, hdispatches, -⟩ := Moves.drain h hlog
    rw [hdispatches]
    exact (hq.pullArrivals pulled).due_nodup now
  · intro before now ws after hlog
    obtain ⟨q, pulled, -, -, -, -, hdispatches, hstarts⟩ := Moves.drain h hlog
    rwa [hdispatches]
  · intro before now ws after hlog p hp
    obtain ⟨q, pulled, hq, harrivals, hle, rfl, hdispatches, -⟩ := Moves.drain h hlog
    rw [hdispatches]
    exact (pulled_latest hq harrivals hp pulled).2 now hle
  · rintro q rfl p hp now
    exact (pulled_latest hseen.sound hseen.arrivals hp now).1

/-- A node is added again while its handler call is in progress; the call is cancelled, and what
that leaves of the node gives way to what was added. -/
theorem queue_dispatches_singly_added_again :
    ∃ before ws after s, Run Move (.idle {}) (before ++ .drained 0 ws :: after) s ∧
      Latest { nodeName := "a", space := "b" } before ∧ starts before = [⟨{ nodeName := "a" }, 0⟩] ∧
        (dispatches (untilDrain after)).filter (fun w => w.node = "a") =
          [⟨{ nodeName := "a", space := "b" }, 0⟩] := by
  let w : Nat × WorkItem := (0, ⟨{ nodeName := "a" }, 0⟩)
  let p : Peer := { nodeName := "a", space := "b" }
  have hbegun := (Run.single (Move.enqueue {} w.2.peer)).tail (.begin _ (Nat.le_refl 0))
  have hcall := hbegun.tail (.work (.start (w := w) (by decide) (by decide)))
  have hadded := hcall.tail (.work (.arrive _ p))
  have hended := hadded.tail (.work (.finish (w := w) (by decide) (.value (.error .cancelled))))
  have hjoined := hended.tail (.work (@Drain.Move.join _ _ 0 _ _ [] [] rfl rfl))
  have hrun := (hjoined.tail (.close rfl)).tail (.begin _ (Nat.le_refl 0))
  let calls : List QueueEvent :=
    [.enqueued w.2.peer, .pulled 0 w.2.peer, .drained 0 [w.2], .dispatched w.2, .started 0 w.2]
  let settled : List QueueEvent :=
    [.stopped 0 w.2 (.value (.error .cancelled)), .settled 0 w.2 (.value (.error .cancelled)),
      .scheduled 0 w.2, .pulled 0 p]
  have hlatest : Latest p (calls ++ .enqueued p :: settled) :=
    ⟨calls, settled, rfl, by simp [settled, QueueEvent.isDrain], by simp [settled]⟩
  refine ⟨calls ++ .enqueued p :: settled, [⟨p, 0⟩], [.dispatched ⟨p, 0⟩], _, hrun, hlatest, rfl, ?_⟩
  exact (queue_dispatches_singly hrun).latest_dispatched rfl _ hlatest

end QueueStage

end Rendezvous
