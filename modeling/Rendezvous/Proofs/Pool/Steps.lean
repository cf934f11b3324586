import Mathlib.Data.List.Basic
import Rendezvous.Engine.Pool
import Rendezvous.Proofs.Routine.Traces
import Rendezvous.Proofs.Run

/-!
# The steps of a pool

Everything that can happen to a pool, as one relation: a step of the pool is a step of one task, with
what that does to the memory and to the locks, or something that comes from outside. Which task takes
the next step, when the memory is asked and what a command answers is left open, so the runs of this
relation are all interleavings.
-/

namespace Rendezvous

/-- What the tasks of a pool find outside of it. -/
structure World where
  /-- The instants at which the memory may be asked. -/
  timely : Instant → Prop
  /-- The answers that a command may bring. -/
  brings : Request → Except ExecError String → Prop

/-- A world in which anything may be answered at any time. -/
def World.any : World := ⟨fun _ => True, fun _ _ => True⟩

/-- A world in which the clock stands still and each command has one answer. -/
def World.still (now : Instant) (answers : Request → Except ExecError String) : World :=
  ⟨fun t => t = now, fun request answer => answer = answers request⟩

namespace Pool

variable {α : Type} {w : World} {p p' : Pool α} {i : Nat}

/-- The turns of the tasks of a pool, with what the task that takes the turn goes through. -/
inductive Turn (w : World) : Pool α → List (Nat × TaskEvent) → Pool α → Prop where
  /-- A task ends with its value. -/
  | finish {p : Pool α} {i : Nat} {a : α} (h : p.tasks[i]? = some (.ready (.done a))) :
      Turn w p [] (p.set i (.ended (.value a)))
  /-- A task asks the memory. -/
  | consult {p : Pool α} {i : Nat} {q : Query} {next : q.Answer → Routine α} {now : Instant}
      {answer : q.Answer} {memory : Memory} (h : p.tasks[i]? = some (.ready (.ask (.consult q) next)))
      (hnow : w.timely now) (hm : p.memory.consult now q = some (answer, memory)) :
      Turn w p [(i, .consulted q answer)] ({ p with memory }.set i (.ready (next answer)))
  /-- A task starts a command. -/
  | call {p : Pool α} {i : Nat} {request : Request} {next : Except ExecError String → Routine α}
      (h : p.tasks[i]? = some (.ready (.ask (.run request) next))) :
      Turn w p [(i, .called request)] (p.set i (.calling request next))
  /-- The command of a task is answered. -/
  | answer {p : Pool α} {i : Nat} {request : Request} {next : Except ExecError String → Routine α}
      {answer : Except ExecError String} (h : p.tasks[i]? = some (.calling request next))
      (hbrings : w.brings request answer) :
      Turn w p [(i, .answered request answer)] (p.set i (.ready (next answer)))
  /-- A task takes a lock that is free. -/
  | acquire {p : Pool α} {i : Nat} {node : String} {next : Unit → Routine α}
      (h : p.tasks[i]? = some (.ready (.ask (.acquire node) next)))
      (hfree : p.locks.contains node = false) :
      Turn w p [(i, .acquired node)] ({ p with locks := p.locks.put node i }.set i (.ready (next ())))
  /-- A task gives a lock back. -/
  | release {p : Pool α} {i : Nat} {node : String} {next : Unit → Routine α}
      (h : p.tasks[i]? = some (.ready (.ask (.release node) next))) :
      Turn w p [(i, .released node)] ({ p with locks := p.locks.erase node }.set i (.ready (next ())))
  /-- A task starts a propagation. -/
  | tell {p : Pool α} {i : Nat} {writes : List TrustWrite}
      {next : PropagationReport → Routine α}
      (h : p.tasks[i]? = some (.ready (.ask (.propagate writes) next))) :
      Turn w p [(i, .told writes)] (p.set i (.propagating (.start writes) next))
  /-- A write of a propagation ends or is counted. -/
  | write {p : Pool α} {i : Nat} {run run' : Propagation} {next : PropagationReport → Routine α}
      (h : p.tasks[i]? = some (.propagating run next))
      (hrun : (∃ id outcome, run' = run.finish id outcome) ∨ run.join? = some run') :
      Turn w p [] (p.set i (.propagating run' next))
  /-- A task goes on with the report of a propagation that is over or was stopped. -/
  | report {p : Pool α} {i : Nat} {run run' : Propagation} {next : PropagationReport → Routine α}
      (h : p.tasks[i]? = some (.propagating run next))
      (hrun : (run.isOver = true ∧ run' = run) ∨ run' = run.stop) :
      Turn w p [(i, .reported run'.report)] (p.set i (.ready (next run'.report)))

/-- The steps of a pool: the turns of its tasks, and what comes from outside. -/
inductive Step (w : World) : Pool α → List (Nat × TaskEvent) → Pool α → Prop where
  /-- A task has its turn. -/
  | turn {p p' : Pool α} {shown : List (Nat × TaskEvent)} (h : Turn w p shown p') :
      Step w p shown p'
  /-- A task breaks down or is aborted. -/
  | drop {p : Pool α} {i : Nat} {a : Activity α} (h : p.tasks[i]? = some a)
      (hon : ∀ ending, a ≠ .ended ending) {ending : Ending α} (hcut : ending.value? = none) :
      Step w p [] (p.drop i ending)
  /-- The controller begins to shut down. -/
  | cancel (p : Pool α) : Step w p [] p.cancel
  /-- What is noted about a node is dropped. -/
  | forget (p : Pool α) (node : String) : Step w p [] (p.forget node)

/-- A turn shows nothing or one event. -/
theorem Turn.shown_cases {shown : List (Nat × TaskEvent)} (h : Turn w p shown p') :
    shown = [] ∨ ∃ e, shown = [e] := by
  cases h <;> simp

theorem Turn.length_shown {shown : List (Nat × TaskEvent)} (h : Turn w p shown p') :
    shown.length ≤ 1 := by
  rcases h.shown_cases with rfl | ⟨e, rfl⟩ <;> simp

/-! ## The moves that are carried out are steps -/

theorem advance?_step {now : Instant} (hnow : w.timely now) (h : p.advance? now i = some p') :
    ∃ shown, Step w p shown p' := by
  unfold advance? at h
  split at h
  · rename_i a ht
    obtain rfl := Option.some.inj h
    exact ⟨_, .turn (.finish ht)⟩
  · rename_i q next ht
    split at h
    · rename_i answer memory hm
      obtain rfl := Option.some.inj h
      exact ⟨_, .turn (.consult ht hnow hm)⟩
    · obtain rfl := Option.some.inj h
      exact ⟨_, .drop ht (by simp) rfl⟩
  · rename_i request next ht
    obtain rfl := Option.some.inj h
    exact ⟨_, .turn (.call ht)⟩
  · rename_i node next ht
    split at h
    · exact absurd h (by simp)
    · rename_i hfree
      obtain rfl := Option.some.inj h
      exact ⟨_, .turn (.acquire ht (by simpa using hfree))⟩
  · rename_i node next ht
    obtain rfl := Option.some.inj h
    exact ⟨_, .turn (.release ht)⟩
  · rename_i writes next ht
    obtain rfl := Option.some.inj h
    exact ⟨_, .turn (.tell ht)⟩
  · exact absurd h (by simp)

theorem answer?_turn {answer : Except ExecError String} (hbrings : ∀ request, w.brings request answer)
    (h : p.answer? i answer = some p') :
    ∃ request, Turn w p [(i, .answered request answer)] p' := by
  unfold answer? at h
  split at h
  · rename_i request next ht
    obtain rfl := Option.some.inj h
    exact ⟨request, .answer ht (hbrings request)⟩
  · exact absurd h (by simp)

theorem answer?_step {answer : Except ExecError String} (hbrings : ∀ request, w.brings request answer)
    (h : p.answer? i answer = some p') : ∃ shown, Step w p shown p' := by
  obtain ⟨_, turn⟩ := answer?_turn hbrings h
  exact ⟨_, .turn turn⟩

theorem finishWrite?_step {id : Nat} {outcome : TrustOutcome}
    (h : p.finishWrite? i id outcome = some p') : ∃ shown, Step w p shown p' := by
  unfold finishWrite? at h
  split at h
  · rename_i run next ht
    obtain rfl := Option.some.inj h
    exact ⟨_, .turn (.write ht (Or.inl ⟨id, outcome, rfl⟩))⟩
  · exact absurd h (by simp)

theorem joinWrite?_step (h : p.joinWrite? i = some p') : ∃ shown, Step w p shown p' := by
  unfold joinWrite? at h
  split at h
  · rename_i run next ht
    obtain ⟨run', hrun, rfl⟩ := Option.map_eq_some_iff.1 h
    exact ⟨_, .turn (.write ht (Or.inr hrun))⟩
  · exact absurd h (by simp)

theorem report?_step (h : p.report? i = some p') : ∃ shown, Step w p shown p' := by
  unfold report? at h
  split at h
  · rename_i run next ht
    split at h
    · rename_i hover
      obtain rfl := Option.some.inj h
      exact ⟨_, .turn (.report ht (Or.inl ⟨hover, rfl⟩))⟩
    · exact absurd h (by simp)
  · exact absurd h (by simp)

theorem stopPropagation?_step (h : p.stopPropagation? i = some p') : ∃ shown, Step w p shown p' := by
  unfold stopPropagation? at h
  split at h
  · rename_i run next ht
    obtain rfl := Option.some.inj h
    exact ⟨_, .turn (.report ht (Or.inr rfl))⟩
  · exact absurd h (by simp)

theorem abort_step (p : Pool α) (i : Nat) : p.abort i = p ∨ Step w p [] (p.abort i) := by
  unfold abort
  split
  · exact Or.inl rfl
  · exact Or.inl rfl
  · rename_i hnone hended
    cases ht : p.tasks[i]? with
    | none => exact absurd ht hnone
    | some a =>
      refine Or.inr (.drop ht ?_ rfl)
      rintro ending rfl
      exact hended ending ht

end Pool

end Rendezvous
