import Rendezvous.Proofs.Queue.Dispatch

/-!
# What earlier drains have left

Once the arrivals are pulled, an item waits in a queue for one reason only: an earlier drain has
dispatched its node, and what that has left is scheduled. So whatever a drain dispatches has either
arrived since the drain before it began, or was left behind by an earlier dispatch of its node and
is due.
-/

namespace Rendezvous

theorem node_leftover {policy : RetryPolicy} {now : Instant} {w : WorkItem} {ending : WorkEnding}
    {l : Instant × WorkItem} (h : leftover? policy now w ending = some l) : w.node = l.2.node := by
  unfold leftover? at h
  split at h
  · obtain ⟨due, -, rfl⟩ := Option.map_eq_some_iff.1 h
    rfl
  · obtain rfl := Option.some.inj h
    rfl
  · exact absurd h (by simp)
  · exact absurd h (by simp)

/-- An item is what an earlier dispatch of its node has left, and is due at an instant. -/
def LeftBehind (policy : RetryPolicy) (log : List QueueEvent) (due : Instant) (w : WorkItem) :
    Prop :=
  ∃ earlier now v ending later, log = earlier ++ .settled now v ending :: later ∧
    .dispatched v ∈ earlier ∧ v.node = w.node ∧ leftover? policy now v ending = some (due, w)

theorem LeftBehind.append {policy : RetryPolicy} {log : List QueueEvent} {due : Instant}
    {w : WorkItem} (h : LeftBehind policy log due w) (shown : List QueueEvent) :
    LeftBehind policy (log ++ shown) due w := by
  obtain ⟨earlier, now, v, ending, later, rfl, hrest⟩ := h
  exact ⟨earlier, now, v, ending, later ++ shown, by simp, hrest⟩

namespace Drain

variable {d d' : Drain} {shown : List QueueEvent}

/-- Nothing new is held while a drain goes on. -/
theorem Move.mem_held (hd : d.Sound) (h : Move d shown d') {w : WorkItem} (hw : w ∈ d'.held) :
    w ∈ d.held :=
  (h.effect hd).held.mem_iff.2 (List.mem_append_left _ hw)

/-- What waits after a move has waited before, or was left by the item that was settled. -/
theorem Move.mem_pending (h : Move d shown d') {e : Slot × WorkItem} (he : e ∈ d'.queue.pending) :
    e ∈ d.queue.pending ∨
      ∃ now w ending later, shown = .settled now w ending :: later ∧ w ∈ d.held ∧
        leftover? d.queue.policy now w ending = some (e.1.due, e.2) := by
  cases h with
  | arrive p => exact Or.inl he
  | start _ _ => exact Or.inl he
  | finish _ ending =>
    rw [finish_queue] at he
    exact Or.inl he
  | withdraw _ => exact Or.inl he
  | @join _ now w ending _ _ ended h =>
    obtain ⟨rfl, -⟩ := settle?_leftover h
    cases hleft : leftover? d.queue.policy now w ending with
    | none =>
      rw [hleft] at he
      exact Or.inl he
    | some l =>
      rw [hleft] at he
      refine (RetryQueue.mem_schedule he).imp_right ?_
      rintro ⟨hdue, hitem⟩
      refine ⟨now, w, ending, _, rfl, ?_, ?_⟩
      · exact (held_join ended).symm.subset (by simp)
      · rw [hleft, hdue, hitem]

end Drain

namespace QueueStage

variable {s t : QueueStage} {log shown before after : List QueueEvent} {policy : RetryPolicy}
  {now : Instant} {ws : List WorkItem}

/-- What is held has been held before or was dispatched by the drain that begins. -/
theorem Move.mem_held (hs : s.Sound) (h : Move s shown t) {w : WorkItem} (hw : w ∈ t.held) :
    w ∈ s.held ∨ .dispatched w ∈ shown := by
  cases h with
  | enqueue q p => exact Or.inl hw
  | begin q _ =>
    rw [held, Drain.begin_held] at hw
    refine Or.inr (List.mem_append_right _ (List.mem_cons_of_mem _ ?_))
    exact List.mem_map.2 ⟨w, hw, rfl⟩
  | work h => exact Or.inl (h.mem_held hs hw)
  | close _ => exact absurd hw List.not_mem_nil

/-- What waits has waited before, or was left by an item that was held. -/
theorem Move.mem_pending (h : Move s shown t) {e : Slot × WorkItem} (he : e ∈ t.queue.pending) :
    e ∈ s.queue.pending ∨
      ∃ now w ending later, shown = .settled now w ending :: later ∧ w ∈ s.held ∧
        leftover? s.queue.policy now w ending = some (e.1.due, e.2) := by
  cases h with
  | enqueue q p => exact Or.inl he
  | @begin q pulled now hle =>
    -- what was pulled is due at once, so it does not wait any longer
    obtain ⟨he, hlate⟩ := List.mem_filter.1 he
    rcases RetryQueue.mem_pullArrivals he with he | ⟨hdue, -⟩
    · exact Or.inl he
    · exact absurd hle (by simpa [hdue] using hlate)
  | work h => exact h.mem_pending he
  | close _ => exact Or.inl he

/-- What was shown of a queue tells why something waits in it. -/
structure Explained (policy : RetryPolicy) (log : List QueueEvent) (s : QueueStage) : Prop where
  /-- Everything is in one place. -/
  sound : s.Sound
  /-- The queue retries as it always did. -/
  policy_eq : s.queue.policy = policy
  /-- What is held was dispatched. -/
  held : ∀ w ∈ s.held, .dispatched w ∈ log
  /-- What waits was left behind by earlier dispatches. -/
  pending : ∀ e ∈ s.queue.pending, LeftBehind policy log e.1.due e.2

theorem Explained.keep (h : Explained policy log s) (step : Move s shown t) :
    Explained policy (log ++ shown) t := by
  obtain ⟨hs, rfl, hheld, hpending⟩ := h
  refine ⟨step.sound hs, step.policy hs, ?_, ?_⟩
  · intro w hw
    rcases step.mem_held hs hw with hw | hw
    · exact List.mem_append_left _ (hheld w hw)
    · exact List.mem_append_right _ hw
  · intro e he
    rcases step.mem_pending he with he | ⟨now, w, ending, later, rfl, hw, hleft⟩
    · exact (hpending e he).append _
    · exact ⟨log, now, w, ending, later, rfl, hheld w hw, node_leftover hleft, hleft⟩

theorem Moves.explained (h : Run Move (.idle { policy }) log s) : Explained policy log s :=
  h.preserves ⟨RetryQueue.Sound.fresh policy, rfl, by simp [held], by simp [queue]⟩
    fun h step => h.keep step

/-- Whatever a drain dispatches has arrived since the drain before it began, or was left behind by
an earlier dispatch of its node and is due. -/
theorem Moves.dispatched_cases (h : Run Move (.idle { policy }) log s)
    (hlog : log = before ++ .drained now ws :: after) {w : WorkItem} (hw : w ∈ ws) :
    (∃ p ∈ newcomers before, w = ⟨p, 0⟩) ∨ ∃ due ≤ now, LeftBehind policy before due w := by
  obtain ⟨t, u, log₁, shown₁, shown₂, log₂, hfirst, hstep, -, rfl, -⟩ := h.split_at hlog
  obtain ⟨q, pulled, -, rfl, rfl, rfl, -, -⟩ := hstep.drains
  obtain ⟨e, he, rfl⟩ := List.mem_map.1 hw
  obtain ⟨he, hdue⟩ := List.mem_filter.1 he
  rcases RetryQueue.mem_pullArrivals he with he | ⟨-, p, hp, hitem⟩
  · refine Or.inr ⟨e.1.due, of_decide_eq_true hdue, ?_⟩
    exact ((Moves.explained hfirst).pending e he).append _
  · have harrivals : q.arrivals = newcomers log₁ := (Moves.seen hfirst).arrivals
    rw [harrivals] at hp
    refine Or.inl ⟨p, ?_, hitem⟩
    rw [newcomers, List.foldl_append, arrivals_pulled]
    exact hp

end QueueStage

end Rendezvous
