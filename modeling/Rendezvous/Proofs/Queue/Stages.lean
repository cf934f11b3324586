import Rendezvous.Proofs.Queue.Moves

/-!
# The stages of a queue

A queue goes from idle to draining and back, for as long as it exists. Peers are added at any moment,
whether it is idle or drained. It shows what it pulls and what it dispatches when a drain begins, and
then what the moves of the drain show. Whatever has happened, everything is in one place, and the
counts of the queue tell what has been settled.
-/

namespace Rendezvous

open scoped List

/-! ## What was settled, by fate -/

/-- The items that were settled with a given fate. -/
def fated (policy : RetryPolicy) (fate : Fate) (log : List QueueEvent) : List WorkItem :=
  ((outcomes log).filter fun o => Fate.of policy o.1 o.2 = fate).map (·.1)

@[simp] theorem fated_nil (policy : RetryPolicy) (fate : Fate) : fated policy fate [] = [] := rfl

@[simp] theorem fated_append (policy : RetryPolicy) (fate : Fate) (log log' : List QueueEvent) :
    fated policy fate (log ++ log') = fated policy fate log ++ fated policy fate log' := by
  simp [fated]

/-- Every settled item has one fate. -/
theorem outcomes_perm_fated (policy : RetryPolicy) (log : List QueueEvent) :
    (outcomes log).map (·.1) ~
      fated policy .succeeded log ++ fated policy .retried log ++ fated policy .abandoned log ++
        fated policy .requeued log := by
  unfold fated
  induction outcomes log with
  | nil => exact List.Perm.refl _
  | cons o rest ih =>
    have hcons := ih.cons o.1
    rw [List.map_cons]
    refine hcons.trans ?_
    cases hfate : Fate.of policy o.1 o.2 <;>
      simp only [List.filter_cons, hfate, decide_true, if_true, reduceCtorEq, decide_false,
        Bool.false_eq_true, if_false, List.map_cons, List.append_assoc, List.cons_append]
    · exact List.Perm.refl _
    · exact List.perm_middle.symm
    · exact ((List.perm_middle.append_left _).trans List.perm_middle).symm
    · refine ((List.Perm.append_left _ ?_).trans List.perm_middle).symm
      exact (List.perm_middle.append_left _).trans List.perm_middle

/-- Retried items are left with one retry more, requeued ones as they were, others not at all. -/
theorem remainders_perm_fated (policy : RetryPolicy) (log : List QueueEvent) :
    remainders policy log ~
      (fated policy .retried log).map WorkItem.retry ++ fated policy .requeued log := by
  unfold remainders fated
  induction outcomes log with
  | nil => exact List.Perm.refl _
  | cons o rest ih =>
    cases hfate : Fate.of policy o.1 o.2 <;>
      simp only [List.filter_cons, List.filterMap_cons, hfate, decide_true, if_true, reduceCtorEq,
        decide_false, Bool.false_eq_true, if_false, Fate.remainder?, List.map_cons]
    · exact ih
    · exact ih.cons _
    · exact ih
    · exact (ih.cons _).trans List.perm_middle.symm

/-- The list in which a report keeps the nodes with a given fate; those that are put back are not
kept. -/
def DrainReport.nodes (r : DrainReport) : Fate → List String
  | .succeeded => r.succeeded
  | .retried => r.retried
  | .abandoned => r.abandoned
  | .requeued => []

theorem DrainReport.nodes_note (r : DrainReport) (w : WorkItem) (fate kept : Fate)
    (hkept : kept ≠ .requeued) :
    (r.note w fate).nodes kept = r.nodes kept ++ if fate = kept then [w.node] else [] := by
  cases fate <;> cases kept <;> simp [DrainReport.note, DrainReport.nodes] at hkept ⊢

/-- A report keeps the settled nodes in the order in which they were settled. -/
theorem Drain.Effect.nodes {d d' : Drain} {shown : List QueueEvent} (h : Effect d shown d')
    (kept : Fate) (hkept : kept ≠ .requeued) :
    d'.report.nodes kept =
      d.report.nodes kept ++ (fated d.queue.policy kept shown).map WorkItem.node := by
  rw [h.report, fated]
  generalize d.report = r
  induction outcomes shown generalizing r with
  | nil => simp
  | cons o rest ih =>
    rw [List.foldl_cons, ih, DrainReport.nodes_note _ _ _ _ hkept]
    by_cases hfate : Fate.of d.queue.policy o.1 o.2 = kept
    · simp [hfate]
    · simp [hfate]

/-! ## Stages -/

/-- What a queue is at. -/
inductive QueueStage where
  /-- It waits for the next drain. -/
  | idle (q : RetryQueue)
  /-- It is being drained. -/
  | draining (d : Drain)

/-- What is shown when a drain begins. -/
def beginning (pulled now : Instant) (ps : List Peer) (ws : List WorkItem) : List QueueEvent :=
  ps.map (.pulled pulled) ++ .drained now ws :: ws.map .dispatched

@[simp] theorem outcomes_beginning (pulled now : Instant) (ps : List Peer) (ws : List WorkItem) :
    outcomes (beginning pulled now ps ws) = [] := by
  simp [outcomes, beginning, List.filterMap_map]

@[simp] theorem fated_beginning (policy : RetryPolicy) (fate : Fate) (pulled now : Instant)
    (ps : List Peer) (ws : List WorkItem) :
    fated policy fate (beginning pulled now ps ws) = [] := by
  simp [fated]

/-- A drain that begins shows that it does so only once. -/
theorem beginning_split {pulled now now' : Instant} {ps : List Peer} {ws ws' : List WorkItem}
    {before after : List QueueEvent}
    (h : beginning pulled now ps ws = before ++ .drained now' ws' :: after) :
    before = ps.map (.pulled pulled) ∧ now' = now ∧ ws' = ws ∧ after = ws.map .dispatched := by
  rcases List.append_eq_append_iff.1 h with ⟨mid, hbefore, hrest⟩ | ⟨mid, hpulled, hrest⟩
  · cases mid with
    | nil =>
      obtain ⟨hdrain, rfl⟩ := List.cons.inj hrest
      cases hdrain
      exact ⟨by rw [hbefore, List.append_nil], rfl, rfl, rfl⟩
    | cons e mid =>
      have hmem : .drained now' ws' ∈ ws.map QueueEvent.dispatched := by
        rw [(List.cons.inj hrest).2]
        exact List.mem_append_right _ List.mem_cons_self
      exact absurd hmem (by simp)
  · cases mid with
    | nil =>
      obtain ⟨hdrain, rfl⟩ := List.cons.inj hrest
      cases hdrain
      exact ⟨by rw [hpulled, List.append_nil], rfl, rfl, rfl⟩
    | cons e mid =>
      have hmem : .drained now' ws' ∈ ps.map (QueueEvent.pulled pulled) := by
        rw [hpulled, (List.cons.inj hrest).1]
        exact List.mem_append_right _ List.mem_cons_self
      exact absurd hmem (by simp)

theorem Drain.Move.no_drain {d d' : Drain} {shown : List QueueEvent} (h : Move d shown d')
    (now : Instant) (ws : List WorkItem) : .drained now ws ∉ shown := by
  cases h with
  | join _ _ => simp [settlement]
  | _ => simp

namespace QueueStage

/-- How a queue goes on. The clock may stand anywhere. -/
inductive Move : QueueStage → List QueueEvent → QueueStage → Prop where
  /-- A peer is added to an idle queue. -/
  | enqueue (q : RetryQueue) (p : Peer) : Move (.idle q) [.enqueued p] (.idle (q.enqueue p))
  /-- A drain begins: what has arrived is pulled, and what is due a moment later is taken out and
  dispatched. -/
  | begin (q : RetryQueue) {pulled now : Instant} (h : pulled ≤ now) :
      Move (.idle q) (beginning pulled now q.arrivals ((q.pullArrivals pulled).due now))
        (.draining (.begin q pulled now))
  /-- The drain goes on. -/
  | work {d d' : Drain} {shown : List QueueEvent} (h : Drain.Move d shown d') :
      Move (.draining d) shown (.draining d')
  /-- The drain is over. -/
  | close {d : Drain} (h : d.isOver = true) : Move (.draining d) [] (.idle d.close)

/-- The queue itself. -/
def queue : QueueStage → RetryQueue
  | .idle q => q
  | .draining d => d.queue

/-- The items that were dispatched and are not settled. -/
def held : QueueStage → List WorkItem
  | .idle _ => []
  | .draining d => d.held

/-- Everything is in one place. -/
def Sound : QueueStage → Prop
  | .idle q => q.Sound
  | .draining d => d.Sound

/-- The counts of a queue tell what has been settled, except that those of a drain are added when it
is closed. -/
def Accounted (log : List QueueEvent) : QueueStage → Prop
  | .idle q =>
    q.stats.attempts = q.stats.succeeded + q.stats.retried + q.stats.abandoned +
      (fated q.policy .requeued log).length
  | .draining d =>
    d.queue.stats.attempts =
      d.queue.stats.succeeded + d.queue.stats.retried + d.queue.stats.abandoned +
        (d.report.succeeded.length + d.report.retried.length + d.report.abandoned.length) +
        (fated d.queue.policy .requeued log).length + d.held.length

theorem Move.sound {s t : QueueStage} {shown : List QueueEvent} (hs : s.Sound)
    (h : Move s shown t) : t.Sound := by
  cases h with
  | enqueue q p => exact RetryQueue.Sound.congr (q := q) hs rfl rfl rfl
  | @begin q pulled now _ => exact Drain.Sound.begin hs pulled now
  | work h => exact h.sound hs
  | @close d _ => exact RetryQueue.Sound.congr (Drain.Sound.queue hs) rfl rfl rfl

theorem Move.policy {s t : QueueStage} {shown : List QueueEvent} (hs : s.Sound)
    (h : Move s shown t) : t.queue.policy = s.queue.policy := by
  cases h with
  | enqueue q p => rfl
  | @begin q pulled _ _ => exact RetryQueue.pullArrivals_policy q pulled
  | work h => exact (h.effect hs).policy
  | close _ => rfl

/-- Where a drain begins, an idle queue has pulled what has arrived, and what is due is taken out. -/
theorem Move.drains {s t : QueueStage} {before after : List QueueEvent} {now : Instant}
    {ws : List WorkItem} (h : Move s (before ++ .drained now ws :: after) t) :
    ∃ q pulled, pulled ≤ now ∧ s = .idle q ∧ before = q.arrivals.map (.pulled pulled) ∧
      ws = (q.pullArrivals pulled).due now ∧ after = ws.map .dispatched ∧
      t = .draining (.begin q pulled now) := by
  have hmem : .drained now ws ∈ before ++ .drained now ws :: after :=
    List.mem_append_right _ List.mem_cons_self
  generalize hshown : before ++ .drained now ws :: after = shown at h hmem
  cases h with
  | enqueue q p => exact absurd hmem (by simp)
  | @begin q pulled _ hle =>
    obtain ⟨rfl, rfl, rfl, rfl⟩ := beginning_split hshown.symm
    exact ⟨q, pulled, hle, rfl, rfl, rfl, rfl, rfl⟩
  | work h => exact absurd hmem (h.no_drain now ws)
  | close _ => exact absurd hmem (by simp)

/-- Where the processing of an item begins, it has taken a place. -/
theorem Move.started {s t : QueueStage} {id : Nat} {w : WorkItem} (h : Move s [.started id w] t) :
    ∃ d, s = .draining d ∧ (id, w) ∈ d.waiting ∧ t = .draining (d.place (id, w)) := by
  generalize hshown : [QueueEvent.started id w] = shown at h
  cases h with
  | @begin q pulled now _ =>
    have hmem : .drained now ((q.pullArrivals pulled).due now) ∈ [QueueEvent.started id w] := by
      simp [hshown, beginning]
    exact absurd hmem (by simp)
  | work h =>
    cases h with
    | start hw _ =>
      obtain ⟨rfl, rfl⟩ := QueueEvent.started.inj (List.cons.inj hshown).1
      exact ⟨_, rfl, hw, rfl⟩
    | _ => exact absurd hshown (by simp [settlement])
  | _ => exact absurd hshown (by simp)

/-- Where the processing of an item ends, it has given its place back. -/
theorem Move.stopped {s t : QueueStage} {id : Nat} {w : WorkItem} {ending : WorkEnding}
    (h : Move s [.stopped id w ending] t) :
    ∃ d, s = .draining d ∧ (id, w) ∈ d.running ∧ t = .draining (d.finish id ending) := by
  generalize hshown : [QueueEvent.stopped id w ending] = shown at h
  cases h with
  | @begin q pulled now _ =>
    have hmem : .drained now ((q.pullArrivals pulled).due now) ∈
        [QueueEvent.stopped id w ending] := by
      simp [hshown, beginning]
    exact absurd hmem (by simp)
  | work h =>
    cases h with
    | finish hw _ =>
      obtain ⟨rfl, rfl, rfl⟩ := QueueEvent.stopped.inj (List.cons.inj hshown).1
      exact ⟨_, rfl, hw, rfl⟩
    | _ => exact absurd hshown (by simp [settlement])
  | _ => exact absurd hshown (by simp)

theorem held_eq_nil {d : Drain} (h : d.isOver = true) : d.held = [] := by
  unfold Drain.isOver at h
  simp only [Bool.and_eq_true, List.isEmpty_iff] at h
  obtain ⟨⟨hw, hr⟩, he⟩ := h
  simp [Drain.held, hw, hr, he]

theorem Move.accounted {s t : QueueStage} {log shown : List QueueEvent} (hs : s.Sound)
    (ha : s.Accounted log) (h : Move s shown t) : t.Accounted (log ++ shown) := by
  cases h with
  | enqueue q p =>
    have hnone : fated q.policy .requeued [.enqueued p] = [] := rfl
    rw [Accounted, fated_append, RetryQueue.enqueue, hnone, List.append_nil]
    exact ha
  | @begin q pulled now _ =>
    simp only [Accounted, Drain.begin_held, Drain.begin_queue, RetryQueue.pullArrivals_stats,
      fated_append, fated_beginning, List.append_nil] at ha ⊢
    have hpolicy : ((q.pullArrivals pulled).takeDue now).2.policy = q.policy :=
      RetryQueue.pullArrivals_policy q pulled
    rw [hpolicy, ha]
    simp [Drain.begin]
  | @work d d' _ h =>
    have he := h.effect hs
    have hheld := he.held.length_eq
    have hfated := (outcomes_perm_fated d.queue.policy shown).length_eq
    have hsucceeded := congrArg List.length (he.nodes .succeeded (by decide))
    have hretried := congrArg List.length (he.nodes .retried (by decide))
    have habandoned := congrArg List.length (he.nodes .abandoned (by decide))
    simp only [List.length_append, List.length_map, DrainReport.nodes] at *
    simp only [Accounted, he.stats, he.policy, fated_append, List.length_append] at ha ⊢
    omega
  | @close d hover =>
    simp only [Accounted, held_eq_nil hover, List.append_nil, List.length_nil] at ha ⊢
    simp only [Drain.close, DrainReport.addTo]
    omega

/-- Whatever has happened to a queue, everything is in one place, it retries as it always did, and
its counts are right. -/
theorem Moves.sound {policy : RetryPolicy} {log : List QueueEvent} {s : QueueStage}
    (h : Run Move (.idle { policy }) log s) :
    s.Sound ∧ s.queue.policy = policy ∧ s.Accounted log := by
  refine h.preserves (P := fun log s => s.Sound ∧ s.queue.policy = policy ∧ s.Accounted log)
    ⟨RetryQueue.Sound.fresh policy, rfl, rfl⟩ ?_
  rintro log t shown u ⟨hs, hp, ha⟩ step
  exact ⟨step.sound hs, (step.policy hs).trans hp, step.accounted hs ha⟩

end QueueStage

end Rendezvous
