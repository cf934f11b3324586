import Rendezvous.Proofs.Queue.Conservation
import Rendezvous.Queue.Course

/-!
# Courses are runs

Wherever its items are processed, the course of a drain is a run of moves, in which the waiting items
begin in the order of dispatch, and the course of a queue that is drained on a timer is a run of its
stages until the queue is gone. What holds of all runs holds of all courses.
-/

namespace Rendezvous

open scoped List

/-! ## Settling everything that has ended -/

namespace Drain

/-- The first of the waiting items is one that can begin. -/
theorem start?_move {d d' : Drain} {w : Nat × WorkItem} (h : d.start? = some (w, d')) :
    Move d [.started w.1 w.2] d' := by
  obtain ⟨hw, hfree, rfl⟩ := start?_place h
  exact .start hw hfree

/-- Whatever is said to have ended, its processing ends if it is being processed. -/
theorem finish_moves (d : Drain) (id : Nat) (ending : WorkEnding) :
    ∃ log, Run Move d log (d.finish id ending) := by
  rcases finish_eq d id ending with h | ⟨w, hw, -⟩
  · rw [h]
    exact ⟨[], .refl d⟩
  · have hmove := Move.finish (List.mem_of_find?_eq_some hw) ending
    rw [fst_of_find? hw] at hmove
    exact ⟨_, .single hmove⟩

/-- Settling everything is settling one item after the other. -/
theorem settleAll_moves {now : Instant} {ended : List (WorkItem × WorkEnding)} {d d' : Drain}
    (h : ended.foldlM (fun d e => d.settle? now e.1 e.2) { d with ended := [] } = some d') :
    ∃ log, Run Move { d with ended } log d' := by
  induction ended generalizing d with
  | nil =>
    obtain rfl := Option.some.inj h
    exact ⟨[], .refl _⟩
  | cons first rest ih =>
    obtain ⟨w, ending⟩ := first
    rw [List.foldlM_cons] at h
    obtain ⟨d₁, hone, hrest⟩ := Option.bind_eq_some_iff.1 h
    have hempty := settle?_ended d [] now w ending
    rw [hone] at hempty
    obtain ⟨d₂, hd₂, rfl⟩ := Option.map_eq_some_iff.1 hempty.symm
    have hjoin := @Move.join { d with ended := (w, ending) :: rest } { d₂ with ended := rest } now w
      ending [] rest rfl (by simp [settle?_ended, hd₂])
    obtain ⟨log, hrun⟩ := ih hrest
    exact ⟨_, (Run.single hjoin).trans hrun⟩

theorem joinAll?_moves {now : Instant} {d d' : Drain} (h : d.joinAll? now = some d') :
    ∃ log, Run Move d log d' :=
  settleAll_moves h

end Drain

/-! ## The course of a drain -/

namespace DrainCourse

variable {S : Type} [Workplace S]

theorem collect_moves (c : DrainCourse S) : ∃ log, Run Drain.Move c.drain log c.collect.drain := by
  refine Run.foldl (fun d e => ?_) (Workplace.takeEnded c.site).1 c.drain
  split
  · rename_i id _
    exact d.finish_moves id e.2
  · exact ⟨[], .refl d⟩

theorem fill_moves (n : Nat) (c : DrainCourse S) :
    ∃ log, Run Drain.Move c.drain log (c.fill n).drain := by
  induction n generalizing c with
  | zero => exact ⟨[], .refl _⟩
  | succ n ih =>
    unfold fill
    split
    · exact ⟨[], .refl _⟩
    · rename_i id w drain hstart
      have hrest : ∀ started : DrainCourse S, started.drain = drain →
          ∃ log, Run Drain.Move drain log (started.collect.fill n).drain := by
        rintro started rfl
        obtain ⟨log, hcollect⟩ := started.collect_moves
        obtain ⟨log', hfill⟩ := ih started.collect
        exact ⟨_, hcollect.trans hfill⟩
      let (job, site) := Workplace.start c.site w
      have hone := Run.single (Drain.start?_move hstart)
      obtain ⟨log, hrun⟩ := hrest
        { c with
          site, drain
          jobs := c.jobs ++ [(job, id)]
          log := c.log ++ [⟨job, w.node, w.retries, Workplace.now c.site, none⟩] } rfl
      exact ⟨_, hone.trans hrun⟩

theorem proceed_moves {c c' : DrainCourse S} (h : c.proceed = (true, c')) :
    ∃ log, Run Drain.Move c.drain log c'.drain := by
  unfold proceed at h
  dsimp only at h
  split at h
  · rename_i drain hjoin
    obtain ⟨log, hcollect⟩ := c.collect_moves
    obtain ⟨log', hfill⟩ := fill_moves c.collect.drain.waiting.length c.collect
    obtain ⟨log'', hjoined⟩ := Drain.joinAll?_moves hjoin
    obtain rfl := (Prod.mk.inj h).2
    exact ⟨_, (hcollect.trans hfill).trans hjoined⟩
  · exact absurd (Prod.mk.inj h).1 (by simp)

theorem runTimers_moves {timers : Nat} {c c' : DrainCourse S}
    (h : c.runTimers timers = (true, c')) : ∃ log, Run Drain.Move c.drain log c'.drain := by
  induction timers generalizing c with
  | zero =>
    obtain rfl := (Prod.mk.inj h).2
    exact ⟨[], .refl _⟩
  | succ timers ih =>
    unfold runTimers at h
    split at h
    · exact absurd (Prod.mk.inj h).1 (by simp)
    · rename_i c₁ hproceed
      obtain ⟨log, hrun⟩ := proceed_moves hproceed
      split at h
      · obtain rfl := (Prod.mk.inj h).2
        exact ⟨log, hrun⟩
      · split at h
        · obtain ⟨log', hrun'⟩ := ih h
          exact ⟨_, hrun.trans hrun'⟩
        · obtain rfl := (Prod.mk.inj h).2
          exact ⟨log, hrun⟩

/-- Wherever its items are processed, a drain that does not break down loses nothing. -/
theorem run_conserves {site : S} {q : RetryQueue} {c : DrainCourse S} (hq : q.Sound)
    (h : run site q = (true, c)) :
    ∃ log, c.drain.Conserves q.policy ((q.pullArrivals (Workplace.now site)).due (Workplace.now site))
      ((q.pullArrivals (Workplace.now site)).later (Workplace.now site)) log := by
  obtain ⟨log, hrun⟩ := runTimers_moves h
  exact ⟨log, Drain.conserves hq hrun⟩

end DrainCourse

/-! ## The course of a queue -/

/-- The stage of a queue that is not gone. -/
def QueuePhase.stage? : QueuePhase → Option QueueStage
  | .idle q => some (.idle q)
  | .draining d _ => some (.draining d)
  | .gone => none

namespace QueueCourse

variable {S : Type} [Workplace S]

/-- A queue that is not gone has come to its stage by a run. -/
def Follows (start : QueueStage) (c : QueueCourse S) : Prop :=
  ∀ s, c.phase.stage? = some s → ∃ log, Run QueueStage.Move start log s

variable {start : QueueStage} {c : QueueCourse S}

theorem arrive_idle (ps : List Peer) (q : RetryQueue) :
    ∃ log, Run QueueStage.Move (.idle q) log (.idle (ps.foldl .enqueue q)) := by
  induction ps generalizing q with
  | nil => exact ⟨[], .refl _⟩
  | cons p ps ih =>
    obtain ⟨log, hrun⟩ := ih (q.enqueue p)
    exact ⟨_, (Run.single (.enqueue q p)).trans hrun⟩

theorem arrive_draining (ps : List Peer) (d : Drain) :
    ∃ log, Run QueueStage.Move (.draining d) log
      (.draining { d with queue := ps.foldl .enqueue d.queue }) := by
  induction ps generalizing d with
  | nil => exact ⟨[], .refl _⟩
  | cons p ps ih =>
    obtain ⟨log, hrun⟩ := ih { d with queue := d.queue.enqueue p }
    exact ⟨_, (Run.single (.work (.arrive d p))).trans hrun⟩

theorem work {d d' : Drain} {log : List QueueEvent} (h : Run Drain.Move d log d') :
    Run QueueStage.Move (.draining d) log (.draining d') := by
  induction h with
  | refl => exact .refl _
  | tail _ step ih => exact ih.tail (.work step)

theorem Follows.receive (h : c.Follows start) : c.receive.Follows start := by
  intro s hs
  unfold QueueCourse.receive at hs
  cases hphase : c.phase with
  | idle q =>
    simp only [hphase] at hs
    obtain ⟨log, hrun⟩ := h (.idle q) (by rw [hphase]; rfl)
    obtain rfl := Option.some.inj hs
    obtain ⟨log', harrive⟩ := arrive_idle _ q
    exact ⟨_, hrun.trans harrive⟩
  | draining d jobs =>
    simp only [hphase] at hs
    obtain ⟨log, hrun⟩ := h (.draining d) (by rw [hphase]; rfl)
    obtain rfl := Option.some.inj hs
    obtain ⟨log', harrive⟩ := arrive_draining _ d
    exact ⟨_, hrun.trans harrive⟩
  | gone =>
    simp only [hphase] at hs
    exact absurd hs (by simp [QueuePhase.stage?])

theorem Follows.wake (h : c.Follows start) : c.wake.Follows start :=
  Follows.receive (c := { c with site := Workplace.wakeAt c.site c.nextTick }) h

theorem Follows.proceed (h : c.Follows start) : c.proceed.2.Follows start := by
  unfold QueueCourse.proceed
  cases hphase : c.phase with
  | gone => exact h
  | idle q =>
    obtain ⟨log, hrun⟩ := h (.idle q) (by rw [hphase]; rfl)
    simp only
    split
    · intro s hs
      obtain rfl := Option.some.inj hs
      exact ⟨_, hrun.tail (.begin q (Nat.le_refl _))⟩
    · exact h
  | draining d jobs =>
    obtain ⟨log, hrun⟩ := h (.draining d) (by rw [hphase]; rfl)
    simp only
    split
    · intro s hs
      exact absurd hs (by simp [QueuePhase.stage?])
    · rename_i d' hproceed
      obtain ⟨log', hrun'⟩ := DrainCourse.proceed_moves hproceed
      have hwork := hrun.trans (work hrun')
      split
      · rename_i hover
        intro s hs
        obtain rfl := Option.some.inj hs
        exact ⟨_, hwork.tail (.close hover)⟩
      · intro s hs
        obtain rfl := Option.some.inj hs
        exact ⟨_, hwork⟩

/-- Whatever happens on a timer is a run of the stages of the queue. -/
theorem Follows.runEvents (events : Nat) (h : c.Follows start) :
    (c.runEvents events).Follows start := by
  induction events generalizing c with
  | zero => exact h
  | succ n ih =>
    unfold QueueCourse.runEvents
    split
    · intro s hs
      unfold cancel at hs
      split at hs <;> exact absurd hs (by simp [QueuePhase.stage?])
    · have hproceed := h.proceed
      split
      · rename_i c' heq
        rw [heq] at hproceed
        exact ih hproceed
      · rename_i c' heq
        rw [heq] at hproceed
        exact ih hproceed.wake

end QueueCourse

end Rendezvous
