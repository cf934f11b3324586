import Rendezvous.Proofs.Queue.Stages

/-!
# Drains lose nothing

A drain takes out what is due and leaves the rest. Whatever its handlers return, in whichever order
its items begin and end, and whenever it is cut off, it divides what it took out into what it
reports, what it puts back and what it still holds, and the queue has just what is to be tried again
and what was not due. It comes to an end at which nothing is held, except when an item cannot be
settled because its next retry would be due beyond the range of the clock or of durations.
-/

namespace Rendezvous

open scoped List

namespace Drain

/-! ## How a drain comes to its end -/

/-- The moves that a drain has ahead: a waiting item has three, one that is processed two, and one
that has ended one. -/
def remaining (d : Drain) : Nat :=
  3 * d.waiting.length + 2 * d.running.length + d.ended.length

/-- Every move but an arrival leaves fewer of them. -/
theorem Move.remaining_lt {d d' : Drain} {shown : List QueueEvent} (hd : d.Sound)
    (h : Move d shown d') (hno : ∀ p, shown ≠ [.enqueued p]) : d'.remaining < d.remaining := by
  cases h with
  | arrive p => exact absurd rfl (hno p)
  | start hw _ =>
    have hlength := (List.perm_cons_erase hw).length_eq
    simp only [List.length_cons] at hlength
    simp only [remaining, Drain.place, List.length_append, List.length_singleton]
    omega
  | finish hw ending =>
    obtain ⟨hrunning, heq⟩ := hd.finish hw ending
    have hlength := hrunning.length_eq
    simp only [List.length_cons] at hlength
    rw [heq]
    simp only [remaining, List.length_append, List.length_singleton]
    omega
  | withdraw hw =>
    have hlength := (List.perm_cons_erase hw).length_eq
    simp only [List.length_cons] at hlength
    simp only [remaining, Drain.withdraw, List.length_append, List.length_singleton]
    omega
  | join ended h =>
    obtain ⟨queue, rfl, -⟩ := settle?_eq h
    simp only [remaining, ended, List.length_append, List.length_cons]
    omega

/-- An item that has failed is to be tried again, but not within the range of the clock and of
durations: its delay is no duration, or there is no instant so late. -/
def OutOfRange (policy : RetryPolicy) (now : Instant) (w : WorkItem) (ending : WorkEnding) : Prop :=
  ∃ e, ending = .value (.error e) ∧ Fate.of policy w ending = .retried ∧
    (policy.backoff? (w.retries + 1)).bind (Instant.after? now) = none

/-- An item that has ended can be settled, unless that breaks the drain down. -/
theorem settles_iff {d : Drain} {o : WorkItem × WorkEnding} (ho : o ∈ d.ended) (now : Instant) :
    (∃ d', Move d (settlement d.queue.policy now o.1 o.2) d') ↔
      ¬ OutOfRange d.queue.policy now o.1 o.2 := by
  rw [OutOfRange, ← settle?_eq_none_iff]
  constructor
  · rintro ⟨d', move⟩ hnone
    generalize hshown : settlement d.queue.policy now o.1 o.2 = shown at move
    cases move with
    | @join _ now' w ending before after hended hsettle =>
      -- What is shown first tells which item is settled, and when.
      have hfirst := (List.cons.inj hshown).1
      simp only [QueueEvent.settled.injEq] at hfirst
      obtain ⟨rfl, rfl, rfl⟩ := hfirst
      rw [settle?_ended, hnone] at hsettle
      exact absurd hsettle (by simp)
    | arrive p => exact absurd (List.cons.inj hshown).1 (by simp)
    | start hw free => exact absurd (List.cons.inj hshown).1 (by simp)
    | finish hw ending => exact absurd (List.cons.inj hshown).1 (by simp)
    | withdraw hw => exact absurd hshown (by simp [settlement])
  · intro hsome
    obtain ⟨before, after, hended⟩ := List.append_of_mem ho
    obtain ⟨d', hd'⟩ := Option.ne_none_iff_exists'.1 hsome
    have hsettle : { d with ended := before ++ after }.settle? now o.1 o.2 =
        some { d' with ended := before ++ after } := by
      rw [settle?_ended, hd']
      rfl
    exact ⟨_, .join hended hsettle⟩

/-- As long as a drain is not over, an item is being processed, or has ended and is to be settled,
or there is a free place for one that waits. -/
theorem goes_on {d : Drain} (hover : d.isOver ≠ true) :
    d.running ≠ [] ∨ d.ended ≠ [] ∨ ∃ w, Move d [.started w.1 w.2] (d.place w) := by
  cases hrunning : d.running with
  | cons w rest => exact Or.inl (by simp)
  | nil =>
    cases hended : d.ended with
    | cons o rest => exact Or.inr (Or.inl (by simp))
    | nil =>
      cases hwaiting : d.waiting with
      | nil => exact absurd (by simp [isOver, hwaiting, hrunning, hended]) hover
      | cons w rest =>
        have hw : w ∈ d.waiting := by
          rw [hwaiting]
          exact List.mem_cons_self
        have hfree : d.running.length < d.queue.policy.slots := by
          rw [hrunning]
          exact Nat.lt_of_lt_of_le Nat.zero_lt_one (Nat.le_max_left ..)
        exact Or.inr (Or.inr ⟨w, .start hw hfree⟩)

/-! ## How a drain is cut off -/

/-- A task that is aborted puts its item back. -/
theorem putBack_move {d : Drain} {w : WorkItem} {ended : List (WorkItem × WorkEnding)}
    (h : d.ended = ended ++ [(w, .aborted)]) (now : Instant) :
    Move d (settlement d.queue.policy now w .aborted)
      { d with ended, queue := d.queue.schedule w now } :=
  @Move.join d _ now w .aborted ended [] h (by rw [List.append_nil]; rfl)

/-- The tasks that have a place are aborted one after the other, and their items put back. -/
theorem interrupt_running {d : Drain} (hd : d.Sound) (now : Instant) :
    ∃ log, Run Move d log
      { d with
        running := []
        queue := d.running.foldl (fun q w => q.schedule w.2 now) d.queue } := by
  generalize hrunning : d.running = running
  induction running generalizing d with
  | nil =>
    refine ⟨[], ?_⟩
    rw [List.foldl_nil, ← hrunning]
    exact .refl d
  | cons w rest ih =>
    have hw : w ∈ d.running := by
      rw [hrunning]
      exact List.mem_cons_self
    have hrest : (d.finish w.1 .aborted).running = rest := by
      have hids := hd.running_ids
      rw [hrunning] at hids
      unfold Drain.finish
      simp only [hrunning, find?_head]
      exact filter_head hids
    obtain ⟨-, heq⟩ := hd.finish hw .aborted
    have hstop := Run.single (Move.finish hw .aborted)
    rw [heq, hrest] at hstop
    have hback := hstop.tail (putBack_move rfl now)
    have hsound := (Moves.effect hd hback).1
    obtain ⟨log, hrun⟩ := ih hsound rfl
    exact ⟨_, hback.trans hrun⟩

/-- The tasks that wait for a place are aborted one after the other, and their items put back. -/
theorem interrupt_waiting (d : Drain) (now : Instant) :
    ∃ log, Run Move d log
      { d with
        waiting := []
        queue := d.waiting.foldl (fun q w => q.schedule w.2 now) d.queue } := by
  generalize hwaiting : d.waiting = waiting
  induction waiting generalizing d with
  | nil =>
    refine ⟨[], ?_⟩
    rw [List.foldl_nil, ← hwaiting]
    exact .refl d
  | cons w rest ih =>
    have hw : w ∈ d.waiting := by
      rw [hwaiting]
      exact List.mem_cons_self
    have hout := Run.single (Move.withdraw hw)
    have hback := hout.tail (putBack_move rfl now)
    have hrest : d.waiting.erase w = rest := by
      rw [hwaiting, List.erase_cons_head]
    rw [Drain.withdraw, hrest] at hback
    obtain ⟨log, hrun⟩ := ih { d with waiting := rest, queue := d.queue.schedule w.2 now } rfl
    exact ⟨_, hback.trans hrun⟩

/-- Cutting a drain off is a run of moves: everything that has not ended is aborted and put back. -/
theorem interrupt_moves {d : Drain} (hd : d.Sound) (now : Instant) :
    ∃ log, Run Move d log (d.interrupt now) := by
  obtain ⟨log, hrunning⟩ := interrupt_running hd now
  obtain ⟨log', hwaiting⟩ := interrupt_waiting
    { d with
      running := []
      queue := d.running.foldl (fun q w => q.schedule w.2 now) d.queue } now
  refine ⟨log ++ log', ?_⟩
  rw [interrupt, List.foldl_append]
  exact hrunning.trans hwaiting

/-! ## What is conserved -/

/-- What a drain has done so far with the items that were due, by what it has shown. -/
structure Conserves (policy : RetryPolicy) (due later : List WorkItem) (log : List QueueEvent)
    (d : Drain) : Prop where
  /-- Every item that was dispatched is still held, or was settled once and has one fate. -/
  partition : due ~ d.held ++
    (fated policy .succeeded log ++ fated policy .retried log ++ fated policy .abandoned log ++
      fated policy .requeued log)
  /-- No node was dispatched twice. -/
  due_nodup : (due.map WorkItem.node).Nodup
  /-- The report has the nodes that succeeded. -/
  succeeded : d.report.succeeded = (fated policy .succeeded log).map WorkItem.node
  /-- The report has the nodes that are retried. -/
  retried : d.report.retried = (fated policy .retried log).map WorkItem.node
  /-- The report has the nodes that were given up. -/
  abandoned : d.report.abandoned = (fated policy .abandoned log).map WorkItem.node
  /-- What waits was not due, is retried or was put back as it was. -/
  items : d.queue.items ~
    later ++ (fated policy .retried log).map WorkItem.retry ++ fated policy .requeued log
  /-- No node waits twice, or waits while it is held. -/
  nodes_nodup : ((d.queue.items ++ d.held).map WorkItem.node).Nodup
  /-- At the end nothing is held, and everything that waits is left to the next drain. -/
  at_end : d.isOver = true → d.held = [] ∧ d.close.items = d.queue.items

theorem conserves {q : RetryQueue} (hq : q.Sound) {pulled now : Instant} {log : List QueueEvent}
    {d : Drain} (h : Run Move (.begin q pulled now) log d) :
    d.Conserves q.policy ((q.pullArrivals pulled).due now) ((q.pullArrivals pulled).later now)
      log := by
  obtain ⟨hd, he⟩ := Moves.effect (Sound.begin hq pulled now) h
  have hpolicy : (begin q pulled now).queue.policy = q.policy :=
    RetryQueue.pullArrivals_policy q pulled
  have hheld := he.held
  rw [begin_held] at hheld
  refine ⟨hheld.trans ((outcomes_perm_fated q.policy log).append_left _), ?_, ?_, ?_, ?_, ?_,
    hd.nodes_nodup, fun hover => ⟨QueueStage.held_eq_nil hover, rfl⟩⟩
  · exact (hq.pullArrivals pulled).due_nodup now
  · have hnodes := he.nodes .succeeded (by decide)
    rwa [hpolicy] at hnodes
  · have hnodes := he.nodes .retried (by decide)
    rwa [hpolicy] at hnodes
  · have hnodes := he.nodes .abandoned (by decide)
    rwa [hpolicy] at hnodes
  · have hitems := he.items
    rw [hpolicy, begin_items] at hitems
    rw [List.append_assoc]
    exact hitems.trans ((remainders_perm_fated q.policy log).append_left _)

/-- What can go on in a drain. -/
structure GoesOn (policy : RetryPolicy) (d : Drain) : Prop where
  /-- As long as it is not over, an item is being processed, or has ended and is to be settled, or
  there is a free place for one that waits. -/
  moves : d.isOver ≠ true →
    d.running ≠ [] ∨ d.ended ≠ [] ∨ ∃ w, Move d [.started w.1 w.2] (d.place w)
  /-- An item that has ended can be settled at any time at which it is not to be tried again beyond
  the range of the clock and of durations. -/
  settles : ∀ o ∈ d.ended, ∀ now,
    (∃ d', Move d (settlement policy now o.1 o.2) d') ↔ ¬ OutOfRange policy now o.1 o.2
  /-- Every move but an arrival leaves fewer of them. -/
  ends : ∀ shown d', Move d shown d' → (∀ p, shown ≠ [.enqueued p]) → d'.remaining < d.remaining

theorem goesOn {d : Drain} (hd : d.Sound) : d.GoesOn d.queue.policy :=
  ⟨goes_on, fun _ ho now => settles_iff ho now, fun _ _ move hno => move.remaining_lt hd hno⟩

end Drain

/-- Whatever has happened to a queue before, a drain divides the items that it has dispatched, at
every moment and however it goes on, into those it still holds, those it reports and those it puts
back, and leaves in the queue what is to be tried again and what was not due. It goes on until it
holds nothing, unless an item that has failed is to be tried again beyond the range of the clock and
of durations: then it breaks down, and the item is lost. The counts of the queue tell what its drains
have done. -/
theorem drain_conserves_items {policy : RetryPolicy} {log : List QueueEvent} {q : RetryQueue}
    (h : Run QueueStage.Move (.idle { policy }) log (.idle q)) :
    q.stats.attempts = q.stats.succeeded + q.stats.retried + q.stats.abandoned +
        (fated policy .requeued log).length ∧
      ∀ pulled now shown d, Run Drain.Move (.begin q pulled now) shown d →
        d.Conserves policy ((q.pullArrivals pulled).due now) ((q.pullArrivals pulled).later now)
          shown ∧ d.GoesOn policy := by
  obtain ⟨hq, rfl, hstats⟩ := QueueStage.Moves.sound h
  refine ⟨hstats, fun pulled now shown d hrun => ⟨Drain.conserves hq hrun, ?_⟩⟩
  obtain ⟨hd, he⟩ := Drain.Moves.effect (Drain.Sound.begin hq pulled now) hrun
  have hpolicy : d.queue.policy = q.policy :=
    he.policy.trans (RetryQueue.pullArrivals_policy q pulled)
  have hgoes := Drain.goesOn hd
  rwa [hpolicy] at hgoes

/-- When the delay before the first retry is as long as a duration can be, it is rounded to a number
of seconds that is beyond the durations. An item that has failed is then neither reported nor put
back, and there is no time at which it could be settled. -/
theorem drain_conserves_items_out_of_range :
    ∃ policy q shown d,
      Run QueueStage.Move (.idle { policy }) [.enqueued { nodeName := "a" }] (.idle q) ∧
      Run Drain.Move (.begin q 0 0) shown d ∧
      (q.pullArrivals 0).due 0 = [⟨{ nodeName := "a" }, 0⟩] ∧
      d.waiting = [] ∧ d.running = [] ∧
      d.ended = [(⟨{ nodeName := "a" }, 0⟩, .value (.error (.emptyIdentity "a")))] ∧
      d.report = {} ∧ d.queue.items = [] ∧
      ∀ now d', ¬ Drain.Move d (settlement policy now ⟨{ nodeName := "a" }, 0⟩
        (.value (.error (.emptyIdentity "a")))) d' := by
  let policy : RetryPolicy :=
    { initialDelay := .ofSecs 18446744073709551615, maxDelay := .ofSecs 18446744073709551615 }
  let a : Nat × WorkItem := (0, ⟨{ nodeName := "a" }, 0⟩)
  have hdelay : policy.backoff? 1 = none := by decide +kernel
  have hq := Run.single (QueueStage.Move.enqueue { policy } a.2.peer)
  have hstart := Run.single (@Drain.Move.start
    (.begin (RetryQueue.enqueue { policy } a.2.peer) 0 0) a List.mem_cons_self (by decide))
  have hrun := hstart.tail
    (.finish (w := a) List.mem_cons_self (.value (.error (.emptyIdentity "a"))))
  obtain ⟨-, hgoes⟩ := (drain_conserves_items hq).2 0 0 _ _ hrun
  refine ⟨policy, _, _, _, hq, hrun, rfl, rfl, rfl, rfl, rfl, rfl, fun now d' hmove => ?_⟩
  refine (hgoes.settles _ List.mem_cons_self now).1 ⟨d', hmove⟩ ⟨_, rfl, rfl, ?_⟩
  exact congrArg (Option.bind · (Instant.after? now)) hdelay

end Rendezvous
