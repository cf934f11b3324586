import Rendezvous.Proofs.Resolve.SingleFlight

/-!
# A service in use

Calls come in while others go on, tasks break down or are aborted, and what is noted about a node is
dropped when the node has become ready anew. The runs of this relation are all that can come of it,
and show when something was forgotten.
-/

namespace Rendezvous

/-- What came of a call. -/
abbrev Upshot : Type := Except ResolveError (Resolution ⊕ Connections)

/-- What a service goes through. -/
inductive ServiceEvent where
  /-- An event of a task. -/
  | task (i : Nat) (e : TaskEvent)
  /-- What was noted about a node has been dropped. -/
  | forgot (node : String)

namespace Pool

variable {s : Settings} {w : World} {g : Nat → Stance}

/-- What happens to the pool of a service. -/
inductive Service (s : Settings) (w : World) :
    Pool Upshot → List ServiceEvent → Pool Upshot → Prop where
  /-- A task has its turn. -/
  | turn {p p' : Pool Upshot} {shown : List (Nat × TaskEvent)} (h : Turn w p shown p') :
      Service s w p (shown.map fun e => .task e.1 e.2) p'
  /-- A call comes in. -/
  | call (p : Pool Upshot) (c : Errand) : Service s w p [] (p.spawn (c.routine s))
  /-- A task breaks down or is aborted. -/
  | drop {p : Pool Upshot} {i : Nat} {a : Activity Upshot} (h : p.tasks[i]? = some a)
      (hon : ∀ ending, a ≠ .ended ending) {ending : Ending Upshot} (hcut : ending.value? = none) :
      Service s w p [] (p.drop i ending)
  /-- The controller begins to shut down. -/
  | cancel (p : Pool Upshot) : Service s w p [] p.cancel
  /-- A node has become ready anew. -/
  | forget (p : Pool Upshot) (node : String) : Service s w p [.forgot node] (p.forget node)

section Turn

variable {α : Type} {p p' : Pool α} {shown : List (Nat × TaskEvent)}

/-- A turn leaves the memory alone, or is a question to it. -/
theorem Turn.memory_cases (h : Turn w p shown p') :
    (p'.memory = p.memory ∧ ∀ i q answer, (i, .consulted q answer) ∉ shown) ∨
      ∃ i q answer now, shown = [(i, .consulted q answer)] ∧
        p.memory.consult now q = some (answer, p'.memory) := by
  cases h with
  | consult ht hnow hm => exact .inr ⟨_, _, _, _, rfl, hm⟩
  | _ => exact .inl ⟨rfl, by simp⟩

/-- A new task has no lock. -/
theorem Orderly.spawn (h : Orderly p g) {r : Routine α} (hr : r.Minded .free) :
    Orderly (p.spawn r) g := by
  refine ⟨fun {j a} ha => ?_, fun {j} hnone => ?_, h.distinct, h.locks, h.seeks⟩
  · rw [tasks_spawn] at ha
    split at ha
    · rename_i hj
      obtain rfl := Option.some.inj ha
      rw [h.absent (hj ▸ List.getElem?_eq_none (Nat.le_refl _))]
      exact hr
    · exact h.minds ha
  · rw [tasks_spawn] at hnone
    split at hnone
    · exact absurd hnone (by simp)
    · exact h.absent hnone

end Turn

variable {p p' : Pool Upshot} {shown : List ServiceEvent}

/-- A step of a service is a step of its pool, or a call comes in. -/
theorem Service.step_or_call (h : Service s w p shown p') :
    (∃ events, Step w p events p' ∧ ∀ i e, .task i e ∈ shown ↔ (i, e) ∈ events) ∨
      ∃ c : Errand, p' = p.spawn (c.routine s) ∧ shown = [] := by
  cases h with
  | @turn _ events h =>
    refine .inl ⟨events, .turn h, fun i e => ?_⟩
    rw [List.mem_map]
    constructor
    · rintro ⟨⟨i', e'⟩, hmem, heq⟩
      obtain ⟨rfl, rfl⟩ := ServiceEvent.task.inj heq
      exact hmem
    · intro hmem
      exact ⟨(i, e), hmem, rfl⟩
  | call c => exact .inr ⟨c, rfl, rfl⟩
  | drop ht hon hcut => exact .inl ⟨[], .drop ht hon hcut, by simp⟩
  | cancel => exact .inl ⟨[], .cancel p, by simp⟩
  | forget node => exact .inl ⟨[], .forget p node, by simp⟩

/-- Whatever happens, the pool of a service stays in order. -/
theorem Service.orderly (h : Service s w p shown p') (ho : Orderly p g) : ∃ g', Orderly p' g' := by
  rcases h.step_or_call with ⟨events, step, -⟩ | ⟨c, rfl, -⟩
  · exact step.orderly ho
  · exact ⟨g, ho.spawn (c.minded s)⟩

/-- A step of a service shows nothing or one event. -/
theorem Service.shown_cases (h : Service s w p shown p') : shown = [] ∨ ∃ e, shown = [e] := by
  cases h with
  | turn h =>
    rcases h.shown_cases with rfl | ⟨e, rfl⟩
    · exact .inl rfl
    · exact .inr ⟨_, rfl⟩
  | forget node => exact .inr ⟨_, rfl⟩
  | _ => exact .inl rfl

/-- A run up to an event that it shows. -/
theorem Service.run_upTo {log before after : List ServiceEvent} {e : ServiceEvent}
    (run : Run (Service s w) p log p') (hlog : log = before ++ e :: after) :
    ∃ q, Run (Service s w) p (before ++ [e]) q := by
  obtain ⟨t, u, log₁, shown₁, shown₂, log₂, first, step, -, hbefore, -⟩ := run.split_at hlog
  have hshown : shown₁ ++ [e] = shown₁ ++ e :: shown₂ := by
    rcases step.shown_cases with hnone | ⟨x, hone⟩
    · exact absurd hnone (by simp)
    · rcases List.append_eq_singleton_iff.1 hone with ⟨-, hrest⟩ | ⟨-, hrest⟩
      · rw [(List.cons.inj hrest).2]
      · exact absurd hrest (by simp)
  refine ⟨u, ?_⟩
  rw [hbefore, List.append_assoc, hshown]
  exact first.tail step

/-! ## Turns -/

/-- The turns of its tasks are a run of a service. -/
theorem Service.run_of_turns {log : List (Nat × TaskEvent)} (run : Run (Turn w) p log p') :
    Run (Service s w) p (log.map fun e => .task e.1 e.2) p' := by
  induction run with
  | refl => exact .refl _
  | tail _ step ih =>
    rw [List.map_append]
    exact ih.tail (.turn step)

/-- A call that comes in, and the turns that follow. -/
theorem Service.run_of_call {c : Errand} {log : List (Nat × TaskEvent)}
    (run : Run (Turn w) (p.spawn (c.routine s)) log p') :
    Run (Service s w) p (log.map fun e => .task e.1 e.2) p' := by
  have hcall : Run (Service s w) p [] (p.spawn (c.routine s)) := .single (.call p c)
  exact hcall.trans (run_of_turns run)

/-- A call that comes in and is gone through in one go. -/
theorem Service.run_of_finish? {c : Errand} {now : Instant}
    {answers : Request → Except ExecError String} {log : List (Nat × TaskEvent)}
    (hnow : w.timely now) (hbrings : ∀ request, w.brings request (answers request))
    (h : finish? now answers p.tasks.length (c.routine s) (p.spawn (c.routine s)) =
      some (log, p')) : Run (Service s w) p (log.map fun e => .task e.1 e.2) p' := by
  have hready : (p.spawn (c.routine s)).tasks[p.tasks.length]? = some (.ready (c.routine s)) := by
    rw [tasks_spawn, if_pos rfl]
  exact run_of_call (finish?_run hnow hbrings h hready)

end Pool

end Rendezvous
