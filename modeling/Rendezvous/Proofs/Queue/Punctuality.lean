import Mathlib.Data.List.Induction
import Rendezvous.Proofs.Queue.Timetable

/-!
# Punctuality

Each drain dispatches what is due by the timetable, in its order, and nothing else. The time of a
retry is fixed when the attempt before it is settled. As long as the node is not pulled again, no
drain before that time dispatches it, and the first drain at that time or later does.
-/

namespace Rendezvous

open scoped List

/-! ## The timetable is kept -/

namespace Drain

variable {d d' : Drain} {log shown : List QueueEvent}

/-- An item that is retried is scheduled with one retry more, after the delay of that retry. -/
theorem leftover?_retried {now : Instant} {w : WorkItem} {ending : WorkEnding}
    (h : d.settle? now w ending = some d') (hfate : Fate.of d.queue.policy w ending = .retried) :
    ∃ delay, d.queue.policy.backoff? (w.retries + 1) = some delay ∧
      leftover? d.queue.policy now w ending = some (now + delay.nanos, w.retry) := by
  obtain ⟨-, hremainder⟩ := settle?_leftover h
  simp only [leftover?, hfate, Fate.remainder?, Option.map_eq_some_iff] at hremainder ⊢
  obtain ⟨l, ⟨due, hdue, -⟩, -⟩ := hremainder
  obtain ⟨delay, hdelay, hafter⟩ := Option.bind_eq_some_iff.1 hdue
  refine ⟨delay, hdelay, due, hdue, ?_⟩
  rw [Instant.after?_eq_some hafter]

theorem Move.keeps (hlog : d.queue.Keeps log) (h : Move d shown d') :
    d'.queue.Keeps (log ++ shown) := by
  cases h with
  | arrive p =>
    have hadded : (d.queue.enqueue p).Keeps log := hlog.congr rfl rfl rfl
    exact hadded.skip rfl rfl
  | start _ _ => exact hlog.skip rfl rfl
  | finish _ ending =>
    rw [finish_queue]
    exact hlog.skip rfl rfl
  | withdraw _ => rwa [List.append_nil]
  | @join _ now w ending before after ended h =>
    obtain ⟨rfl, -⟩ := settle?_leftover h
    have hsettled : d.queue.Keeps (log ++ [.settled now w ending]) := hlog.skip rfl rfl
    unfold settlement
    cases hleft : leftover? d.queue.policy now w ending with
    | none => exact hsettled
    | some l =>
      have hscheduled := hsettled.schedule (e := .scheduled l.1 l.2) rfl
      rwa [List.append_assoc] at hscheduled

end Drain

namespace QueueStage

variable {s t : QueueStage} {log log' shown before after : List QueueEvent} {policy : RetryPolicy}

theorem Move.keeps (hlog : s.queue.Keeps log) (h : Move s shown t) :
    t.queue.Keeps (log ++ shown) := by
  cases h with
  | enqueue q p =>
    have hadded : (q.enqueue p).Keeps log := hlog.congr rfl rfl rfl
    exact hadded.skip rfl rfl
  | @begin q pulled now _ =>
    have htaken := (hlog.pullArrivals pulled).takeDue now ((q.pullArrivals pulled).due now)
    have hbegun : (Drain.begin q pulled now).queue.Keeps _ := htaken.congr rfl rfl rfl
    have hno : ∀ e ∈ ((q.pullArrivals pulled).due now).map QueueEvent.dispatched,
        e.scheduling? = none ∧ e.isDrain = false := by
      simp [QueueEvent.scheduling?, QueueEvent.isDrain]
    have hall := hbegun.skipAll hno
    rwa [List.append_assoc, List.append_assoc] at hall
  | work h => exact h.keeps hlog
  | close _ =>
    rw [List.append_nil]
    exact hlog.congr rfl rfl rfl

theorem Moves.keeps (h : Run Move (.idle { policy }) log s) : s.queue.Keeps log :=
  h.preserves (P := fun log s => s.queue.Keeps log) (.fresh policy) fun h step => step.keeps h

/-! ## What is pulled was added -/

/-- A peer was added since the last drain has begun. -/
def Added (log : List QueueEvent) (p : Peer) : Prop :=
  ∃ earlier later, log = earlier ++ .enqueued p :: later ∧ ∀ e ∈ later, e.isDrain = false

theorem Added.append {p : Peer} (h : Added log p) (hshown : ∀ e ∈ shown, e.isDrain = false) :
    Added (log ++ shown) p := by
  obtain ⟨earlier, later, rfl, hlater⟩ := h
  refine ⟨earlier, later ++ shown, by simp, ?_⟩
  rw [List.forall_mem_append]
  exact ⟨hlater, hshown⟩

/-- A step that shows that an item is settled does this and schedules what is left of it. -/
theorem Move.settles {now : Instant} {w : WorkItem} {ending : WorkEnding}
    (h : Move s (before ++ .settled now w ending :: after) t) :
    ∃ d d' ended ended', s = .draining d ∧ t = .draining d' ∧
      d.ended = ended ++ (w, ending) :: ended' ∧
      { d with ended := ended ++ ended' }.settle? now w ending = some d' ∧ before = [] ∧
      after = (leftover? d.queue.policy now w ending).toList.map fun l => .scheduled l.1 l.2 := by
  have hmem : .settled now w ending ∈ before ++ .settled now w ending :: after :=
    List.mem_append_right _ List.mem_cons_self
  generalize hshown : before ++ .settled now w ending :: after = shown at h hmem
  cases h with
  | begin q _ => exact absurd hmem (by simp [beginning])
  | work h =>
    cases h with
    | join ended h =>
      rw [settlement] at hshown
      cases before with
      | nil =>
        obtain ⟨hhead, rfl⟩ := List.cons.inj hshown
        obtain ⟨rfl, rfl, rfl⟩ := QueueEvent.settled.inj hhead
        exact ⟨_, _, _, _, rfl, rfl, ended, h, rfl, rfl⟩
      | cons x before =>
        have hlater := congrArg (QueueEvent.settled now w ending ∈ ·) (List.cons.inj hshown).2
        simp at hlater
    | _ => exact absurd hmem (by simp)
  | _ => exact absurd hmem (by simp)

/-! ## How long an item stands in the timetable -/

/-- An item that is retried is scheduled in the step in which its attempt is settled. -/
theorem Moves.retried {now : Instant} {w : WorkItem} {ending : WorkEnding}
    (h : Run Move (.idle { policy }) log s) (hlog : log = before ++ .settled now w ending :: after)
    (hfate : Fate.of policy w ending = .retried) :
    ∃ delay rest t, policy.backoff? (w.retries + 1) = some delay ∧
      after = .scheduled (now + delay.nanos) w.retry :: rest ∧
      Run Move (.idle { policy })
        (before ++ [.settled now w ending, .scheduled (now + delay.nanos) w.retry]) t ∧
      Run Move t rest s := by
  obtain ⟨u, t, log₁, shown₁, shown₂, log₂, hfirst, hstep, hsecond, rfl, rfl⟩ := h.split_at hlog
  obtain ⟨d, d', _, _, rfl, rfl, _, hsettle, rfl, rfl⟩ := hstep.settles
  have hpolicy : d.queue.policy = policy := (Moves.seen hfirst).policy_eq
  obtain ⟨delay, hdelay, hleft⟩ := Drain.leftover?_retried hsettle (by rwa [hpolicy])
  rw [hleft] at hstep ⊢
  rw [hpolicy] at hdelay
  refine ⟨delay, log₂, _, hdelay, rfl, ?_, hsecond⟩
  rw [List.append_nil]
  exact hfirst.tail hstep

end QueueStage

end Rendezvous
