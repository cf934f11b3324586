import Mathlib.Tactic.Common

/-!
# Runs

A system moves by steps, each of which shows something: a list of events. A run is a sequence of
steps together with everything they show. What every step preserves holds at the end of every run.
-/

namespace Rendezvous

/-- The runs of a system with the steps `Step`: where they start, what they show, where they end. -/
inductive Run {State Event : Type} (Step : State → List Event → State → Prop) :
    State → List Event → State → Prop where
  /-- No step. -/
  | refl (s : State) : Run Step s [] s
  /-- One step more at the end. -/
  | tail {s t u : State} {log shown : List Event} (run : Run Step s log t)
      (step : Step t shown u) : Run Step s (log ++ shown) u

namespace Run

variable {State Event : Type} {Step : State → List Event → State → Prop} {s t u : State}
  {log log' : List Event}

/-- A run of one step. -/
theorem single (step : Step s log t) : Run Step s log t := by
  have h := (@Run.refl _ _ Step s).tail step
  rwa [List.nil_append] at h

/-- One run after another. -/
theorem trans (first : Run Step s log t) (second : Run Step t log' u) :
    Run Step s (log ++ log') u := by
  induction second with
  | refl => rwa [List.append_nil]
  | tail _ step ih =>
    rw [← List.append_assoc]
    exact ih.tail step

/-- One run for each element of a list. -/
theorem foldl {α : Type} {f : State → α → State} (h : ∀ s a, ∃ log, Run Step s log (f s a))
    (as : List α) (s : State) : ∃ log, Run Step s log (as.foldl f s) := by
  induction as generalizing s with
  | nil => exact ⟨[], .refl s⟩
  | cons a as ih =>
    obtain ⟨log, hone⟩ := h s a
    obtain ⟨log', hrest⟩ := ih (f s a)
    exact ⟨_, hone.trans hrest⟩

/-- A run of a system is one of every system that has its steps. -/
theorem mono {Step' : State → List Event → State → Prop} (run : Run Step s log t)
    (h : ∀ {s shown t}, Step s shown t → Step' s shown t) : Run Step' s log t := by
  induction run with
  | refl => exact .refl _
  | tail _ step ih => exact ih.tail (h step)

/-- What a step preserves, given what was shown before it, holds at the end of a run. -/
theorem preserves {P : List Event → State → Prop} (run : Run Step s log t) (start : P [] s)
    (keep : ∀ {log t shown u}, P log t → Step t shown u → P (log ++ shown) u) : P log t := by
  induction run with
  | refl => exact start
  | tail _ step ih => exact keep ih step

/-- Where a run shows an event, it falls into the run before the step that shows it, this step, and
the run after it. -/
theorem split_at {e : Event} (run : Run Step s log u) {before after : List Event}
    (hlog : log = before ++ e :: after) :
    ∃ t v log₁ shown₁ shown₂ log₂, Run Step s log₁ t ∧ Step t (shown₁ ++ e :: shown₂) v ∧
      Run Step v log₂ u ∧ before = log₁ ++ shown₁ ∧ after = shown₂ ++ log₂ := by
  induction run generalizing after with
  | refl => exact absurd hlog (by simp)
  | @tail t u log shown run step ih =>
    rcases List.append_eq_append_iff.1 hlog with ⟨mid, hbefore, hshown⟩ | ⟨mid, hlog', hafter⟩
    · subst hshown
      exact ⟨t, u, log, mid, after, [], run, step, .refl u, hbefore, (List.append_nil _).symm⟩
    · cases mid with
      | nil =>
        rw [List.nil_append] at hafter
        rw [List.append_nil] at hlog'
        subst hafter hlog'
        exact ⟨t, u, log, [], after, [], run, step, .refl u, (List.append_nil _).symm,
          (List.append_nil _).symm⟩
      | cons e' mid =>
        rw [List.cons_append, List.cons.injEq] at hafter
        obtain ⟨rfl, rfl⟩ := hafter
        obtain ⟨v, w, log₁, shown₁, shown₂, log₂, hfirst, hstep, hsecond, hbefore, hmid⟩ :=
          ih hlog'
        refine ⟨v, w, log₁, shown₁, shown₂, log₂ ++ shown, hfirst, hstep, hsecond.tail step,
          hbefore, ?_⟩
        rw [hmid, List.append_assoc]

end Run

/-- What holds of every event of a log and the events before it, and of one event more and the log,
holds of every event of the longer log. -/
theorem forall_split_snoc {Event : Type} {P : List Event → Event → Prop} {log : List Event}
    {e : Event} (h : ∀ before x after, log = before ++ x :: after → P before x) (he : P log e)
    {before after : List Event} {x : Event} (hlog : log ++ [e] = before ++ x :: after) :
    P before x := by
  rcases List.eq_nil_or_concat after with rfl | ⟨after', e', rfl⟩
  · obtain ⟨rfl, hlast⟩ := List.append_inj' hlog rfl
    rwa [← (List.cons.inj hlast).1]
  · rw [List.concat_eq_append, ← List.cons_append, ← List.append_assoc] at hlog
    obtain ⟨hlog, -⟩ := List.append_inj' hlog rfl
    exact h before x after' hlog

end Rendezvous
