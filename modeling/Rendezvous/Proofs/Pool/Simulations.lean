import Rendezvous.Engine.Simulation
import Rendezvous.Proofs.Pool.Steps

/-!
# Simulations are runs

Whatever a simulation does, from one turn of a task to the end of all of them, its pool goes through a
run of steps. What holds in every run of a pool therefore holds in every simulation.
-/

namespace Rendezvous.Simulation

variable {α : Type}

/-- The pool of one simulation can become that of another by steps. -/
def Goes (s s' : Simulation α) : Prop := ∃ log, Run (Pool.Step .any) s.pool log s'.pool

variable {s s' s'' : Simulation α}

theorem Goes.of_eq (h : s'.pool = s.pool) : Goes s s' :=
  ⟨[], h ▸ .refl _⟩

theorem Goes.trans (first : Goes s s') (second : Goes s' s'') : Goes s s'' := by
  obtain ⟨log, hfirst⟩ := first
  obtain ⟨log', hsecond⟩ := second
  exact ⟨log ++ log', hfirst.trans hsecond⟩

theorem Goes.of_step (h : ∃ shown, Pool.Step .any s.pool shown s'.pool) : Goes s s' := by
  obtain ⟨shown, hstep⟩ := h
  exact ⟨shown, .single hstep⟩

theorem Goes.foldl {β : Type} {f : Simulation α → β → Simulation α} (h : ∀ s b, Goes s (f s b))
    (bs : List β) (s : Simulation α) : Goes s (bs.foldl f s) := by
  induction bs generalizing s with
  | nil => exact .of_eq rfl
  | cons b bs ih => exact (h s b).trans (ih (f s b))

theorem goes_withTurn {pool? : Option (Pool α)} (i : Nat)
    (h : ∀ pool, pool? = some pool → ∃ shown, Pool.Step .any s.pool shown pool) :
    Goes s (s.withTurn i pool?) := by
  cases pool? with
  | none => exact .of_eq rfl
  | some pool => exact .of_step (h pool rfl)

theorem goes_grant (s : Simulation α) : Goes s s.grant := by
  unfold grant
  split
  · rename_i i h
    have hqueue : Goes s { s with lockQueue := s.lockQueue.filter (·.2 != i) } := .of_eq rfl
    exact hqueue.trans (goes_withTurn i fun pool h => Pool.advance?_step trivial h)
  · exact .of_eq rfl

/-! ## Commands -/

theorem goes_endWrite (s : Simulation α) (i id : Nat) (outcome : TrustOutcome) :
    Goes s (s.endWrite i id outcome) := by
  unfold endWrite
  split
  · rename_i pool h
    obtain ⟨pool₁, hfinish, hjoin⟩ := Option.bind_eq_some_iff.1 h
    obtain ⟨shown, hfirst⟩ := Pool.finishWrite?_step (w := .any) hfinish
    obtain ⟨shown', hsecond⟩ := Pool.joinWrite?_step (w := .any) hjoin
    exact ⟨_, (Run.single hfirst).tail hsecond⟩
  · exact .of_eq rfl

theorem goes_deliver (s : Simulation α) (i : Nat) (write : Option Nat)
    (answer : Except ExecError String) : Goes s (s.deliver i write answer) := by
  cases write with
  | none => exact goes_withTurn i fun pool h => Pool.answer?_step (fun _ => trivial) h
  | some id => exact goes_endWrite s i id _

theorem goes_startCall (s : Simulation α) (i : Nat) (write : Option Nat) (r : Request) :
    Goes s (s.startCall i write r) := by
  unfold startCall
  split
  · have hanswer : Goes s (s.answer r).2 := .of_eq rfl
    exact hanswer.trans (goes_deliver _ i write _)
  · exact goes_deliver s i write _
  · exact .of_eq rfl
  · exact .of_eq rfl

theorem goes_fire (s : Simulation α) (t : CallTimer) : Goes s (s.fire t) := by
  unfold fire
  split
  · exact goes_deliver s t.task t.write _
  · have hanswer : Goes s (s.answer t.request).2 := .of_eq rfl
    exact hanswer.trans (goes_deliver _ t.task t.write _)

/-! ## Propagations -/

theorem goes_report (s : Simulation α) (i : Nat) : Goes s (s.report i) :=
  goes_withTurn i fun _ h => Pool.report?_step h

theorem goes_stopPropagation (s : Simulation α) (i : Nat) : Goes s (s.stopPropagation i) := by
  unfold stopPropagation
  split
  · rename_i pool h
    exact .of_step (Pool.stopPropagation?_step h)
  · exact .of_eq rfl

theorem goes_startPropagation (s : Simulation α) (i : Nat) (run : Propagation) :
    Goes s (s.startPropagation i run) := by
  unfold startPropagation
  split
  · exact goes_stopPropagation s i
  · refine Goes.trans ?_ (goes_report _ i)
    exact Goes.foldl (fun s w => goes_startCall s i _ _) run.running s

theorem goes_cancel (s : Simulation α) : Goes s s.cancel := by
  unfold cancel
  have hbegin : Goes s { s with pool := s.pool.cancel, cancelTick := none } :=
    .of_step ⟨_, .cancel s.pool⟩
  exact hbegin.trans (Goes.foldl goes_stopPropagation _ _)

/-! ## Turns -/

theorem goes_visit (s : Simulation α) (i : Nat) : Goes s (s.visit i) := by
  unfold visit
  split
  · split
    · exact .of_eq rfl
    · exact .of_eq rfl
  · rename_i pool h
    have hadvance : Goes s { s with pool } := .of_step (Pool.advance?_step trivial h)
    refine hadvance.trans ?_
    dsimp only
    split
    · exact goes_grant { s with pool, turns := i :: s.turns }
    · exact goes_startCall _ i none _
    · exact goes_startPropagation _ i _
    · exact goes_grant { s with pool, ended := s.ended ++ [i] }
    · exact .of_eq rfl

theorem goes_settle (steps : Nat) (s : Simulation α) : Goes s (s.settle steps) := by
  induction steps generalizing s with
  | zero => exact .of_eq rfl
  | succ steps ih =>
    unfold settle
    split
    · exact .of_eq rfl
    · rename_i i turns h
      have hvisit : Goes { s with turns } ({ s with turns }.visit i) := goes_visit _ i
      exact Goes.trans (.of_eq rfl) (hvisit.trans (ih _))

/-! ## Time -/

theorem goes_wakeAt (s : Simulation α) (tick : Nat) : Goes s (s.wakeAt tick) := by
  have hreport : ∀ (s : Simulation α) (t : CallTimer),
      Goes s (if t.write.isSome then s.report t.task else s) := by
    intro s t
    split
    · exact goes_report s t.task
    · exact .of_eq rfl
  unfold wakeAt
  dsimp only
  refine Goes.trans ?_ (goes_settle courseLimit _)
  refine Goes.trans ?_ (Goes.foldl hreport _ _)
  refine Goes.trans ?_ (Goes.foldl goes_fire _ _)
  split
  · split
    · refine Goes.trans ?_ (goes_cancel _)
      exact .of_eq rfl
    · exact .of_eq rfl
  · exact .of_eq rfl

theorem goes_abort (s : Simulation α) (i : Nat) : Goes s (s.abort i) := by
  unfold abort
  refine Goes.trans ?_ ((goes_grant _).trans (goes_settle courseLimit _))
  rcases Pool.abort_step (w := .any) s.pool i with hsame | hstep
  · exact .of_eq hsame
  · exact .of_step ⟨_, hstep⟩

theorem goes_runTimers (timers : Nat) (s : Simulation α) : Goes s (s.runTimers timers) := by
  induction timers generalizing s with
  | zero => exact .of_eq rfl
  | succ timers ih =>
    unfold runTimers
    split
    · exact .of_eq rfl
    · split
      · rename_i tick h
        exact (goes_wakeAt s tick).trans (ih _)
      · exact .of_eq rfl

/-- A whole simulation is a run of its pool. -/
theorem run_goes (s : Simulation α) : ∃ log, Run (Pool.Step .any) s.pool log s.run.pool :=
  (goes_settle courseLimit s).trans (goes_runTimers courseLimit _)

end Rendezvous.Simulation
