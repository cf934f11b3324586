import Rendezvous.Proofs.Pool.Steps

/-!
# What a task goes through

A run of a pool is, for each of its tasks, a run of that task alone, with whatever it is answered; and
what a task that runs a routine goes through is a trace of the routine.
-/

namespace Rendezvous

/-- The events of one task. -/
def own (i : Nat) (log : List (Nat × TaskEvent)) : List TaskEvent :=
  log.filterMap fun e => if e.1 = i then some e.2 else none

@[simp] theorem own_nil (i : Nat) : own i [] = [] := rfl

@[simp] theorem own_append (i : Nat) (log log' : List (Nat × TaskEvent)) :
    own i (log ++ log') = own i log ++ own i log' :=
  List.filterMap_append

@[simp] theorem own_self (i : Nat) (e : TaskEvent) : own i [(i, e)] = [e] := by
  simp [own]

theorem own_other {i j : Nat} (h : j ≠ i) (e : TaskEvent) : own j [(i, e)] = [] := by
  simp [own, Ne.symm h]

theorem own_eq_map {i : Nat} {log : List (Nat × TaskEvent)} (h : ∀ e ∈ log, e.1 = i) :
    own i log = log.map (·.2) := by
  unfold own
  rw [← List.filterMap_eq_map]
  refine List.filterMap_congr fun e he => ?_
  simp [h e he]

theorem own_eq_nil_of {i : Nat} {log : List (Nat × TaskEvent)} (h : ∀ e ∈ log, e.1 ≠ i) :
    own i log = [] := by
  refine List.filterMap_eq_nil_iff.2 fun e he => ?_
  simp [h e he]

theorem mem_own {i : Nat} {e : TaskEvent} {log : List (Nat × TaskEvent)} :
    e ∈ own i log ↔ (i, e) ∈ log := by
  unfold own
  rw [List.mem_filterMap]
  constructor
  · rintro ⟨⟨j, e'⟩, hmem, h⟩
    by_cases hj : j = i
    · subst hj
      rw [if_pos rfl, Option.some.injEq] at h
      rwa [← h]
    · rw [if_neg hj] at h
      exact absurd h (by simp)
  · intro h
    exact ⟨(i, e), h, if_pos rfl⟩

/-- Where an event of a task stands among all events. -/
theorem eq_append_of_own {i : Nat} {log : List (Nat × TaskEvent)} {t₁ t₂ : List TaskEvent}
    {e : TaskEvent} (h : own i log = t₁ ++ e :: t₂) :
    ∃ before after, log = before ++ (i, e) :: after ∧ own i before = t₁ := by
  obtain ⟨l₁, l₂, rfl, h₁, h₂⟩ := List.filterMap_eq_append_iff.1 h
  obtain ⟨l₃, ⟨j, e'⟩, l₄, rfl, hskip, hj, -⟩ := List.filterMap_eq_cons_iff.1 h₂
  by_cases hij : j = i
  · subst hij
    rw [if_pos rfl, Option.some.injEq] at hj
    subst hj
    refine ⟨l₁ ++ l₃, l₄, (List.append_assoc ..).symm, ?_⟩
    have hnone : own j l₃ = [] := List.filterMap_eq_nil_iff.2 hskip
    rw [own_append, hnone, List.append_nil]
    exact h₁
  · rw [if_neg hij] at hj
    exact absurd hj (by simp)

namespace Activity

variable {α : Type}

/-- What can happen to one task, whatever it is answered. -/
inductive Move : Activity α → List TaskEvent → Activity α → Prop where
  /-- It ends with its value. -/
  | finish (a : α) : Move (.ready (.done a)) [] (.ended (.value a))
  /-- The memory answers. -/
  | consult {q : Query} (next : q.Answer → Routine α) (answer : q.Answer) :
      Move (.ready (.ask (.consult q) next)) [.consulted q answer] (.ready (next answer))
  /-- It starts a command. -/
  | call (request : Request) (next : Except ExecError String → Routine α) :
      Move (.ready (.ask (.run request) next)) [.called request] (.calling request next)
  /-- Its command is answered. -/
  | answer (request : Request) (next : Except ExecError String → Routine α)
      (answer : Except ExecError String) :
      Move (.calling request next) [.answered request answer] (.ready (next answer))
  /-- It takes a lock. -/
  | acquire (node : String) (next : Unit → Routine α) :
      Move (.ready (.ask (.acquire node) next)) [.acquired node] (.ready (next ()))
  /-- It gives a lock back. -/
  | release (node : String) (next : Unit → Routine α) :
      Move (.ready (.ask (.release node) next)) [.released node] (.ready (next ()))
  /-- It starts a propagation. -/
  | tell (writes : List TrustWrite) (next : PropagationReport → Routine α) :
      Move (.ready (.ask (.propagate writes) next)) [.told writes]
        (.propagating (.start writes) next)
  /-- Its propagation goes on. -/
  | write (run run' : Propagation) (next : PropagationReport → Routine α) :
      Move (.propagating run next) [] (.propagating run' next)
  /-- It goes on with a report. -/
  | report (run : Propagation) (next : PropagationReport → Routine α) (report : PropagationReport) :
      Move (.propagating run next) [.reported report] (.ready (next report))
  /-- It breaks down or is aborted. -/
  | drop {a : Activity α} (hon : ∀ ending, a ≠ .ended ending) {ending : Ending α}
      (hcut : ending.value? = none) : Move a [] (.ended ending)

/-- What a task has gone through is a trace of its routine: up to where it is, or up to where it was
when it broke down. -/
def Follows (r : Routine α) (t : List TaskEvent) : Activity α → Prop
  | .ready r' => r.Reaches t r'
  | .calling request next =>
    ∃ t', t = t' ++ [.called request] ∧ r.Reaches t' (.ask (.run request) next)
  | .propagating _ next =>
    ∃ t' writes, t = t' ++ [.told writes] ∧ r.Reaches t' (.ask (.propagate writes) next)
  | .ended (.value a) => r.Ends t a
  | .ended _ =>
    ∃ t' r' started, t = t' ++ started ∧ r.Reaches t' r' ∧
      ∀ e ∈ started, (∃ request, e = .called request) ∨ ∃ writes, e = .told writes

variable {r : Routine α} {t shown : List TaskEvent} {a a' : Activity α}

/-- Up to what it has last started, every task follows its routine. -/
theorem Follows.cut (h : a.Follows r t) :
    ∃ t' r' started, t = t' ++ started ∧ r.Reaches t' r' ∧
      ∀ e ∈ started, (∃ request, e = .called request) ∨ ∃ writes, e = .told writes := by
  cases a with
  | ready r' => exact ⟨t, r', [], (List.append_nil t).symm, h, by simp⟩
  | calling request next =>
    obtain ⟨t', rfl, hr⟩ := h
    exact ⟨t', _, _, rfl, hr, by simp⟩
  | propagating run next =>
    obtain ⟨t', writes, rfl, hr⟩ := h
    exact ⟨t', _, _, rfl, hr, by simp⟩
  | ended ending =>
    cases ending with
    | value a => exact ⟨t, _, [], (List.append_nil t).symm, h, by simp⟩
    | crashed => exact h
    | aborted => exact h

theorem Follows.move (h : a.Follows r t) (move : Move a shown a') : a'.Follows r (t ++ shown) := by
  cases move with
  | finish a =>
    rw [List.append_nil]
    exact h
  | @consult q next answer => exact Routine.Reaches.snoc (e := .consult q) h answer
  | call request next => exact ⟨t, rfl, h⟩
  | answer request next answer =>
    obtain ⟨t', rfl, hr⟩ := h
    rw [List.append_assoc]
    exact Routine.Reaches.snoc (e := .run request) hr answer
  | acquire node next => exact Routine.Reaches.snoc (e := .acquire node) h ()
  | release node next => exact Routine.Reaches.snoc (e := .release node) h ()
  | tell writes next => exact ⟨t, writes, rfl, h⟩
  | write run run' next =>
    rw [List.append_nil]
    exact h
  | report run next report =>
    obtain ⟨t', writes, rfl, hr⟩ := h
    rw [List.append_assoc]
    exact Routine.Reaches.snoc (e := .propagate writes) hr report
  | @drop _ _ ending hcut =>
    rw [List.append_nil]
    cases ending with
    | value a => exact absurd hcut (by simp [Ending.value?])
    | crashed => exact h.cut
    | aborted => exact h.cut

/-- What a task that runs a routine goes through is a trace of the routine. -/
theorem follows_of_run (h : Run Move (.ready r) t a) : a.Follows r t := by
  refine h.preserves (P := fun t a => Follows r t a) (.refl r) ?_
  intro log t shown u hfollows move
  exact hfollows.move move

end Activity

namespace Pool

variable {α : Type} {w : World} {p p' : Pool α} {shown log : List (Nat × TaskEvent)}

theorem ending?_eq_some {i : Nat} {ending : Ending α} :
    p.ending? i = some ending ↔ p.tasks[i]? = some (.ended ending) := by
  unfold ending?
  constructor
  · intro h
    split at h
    · rename_i ending' ht
      rw [ht, Option.some.inj h]
    · exact absurd h (by simp)
  · intro h
    rw [h]

/-- A task that is changed and one that is not. -/
theorem set_tasks (p : Pool α) {i : Nat} {a : Activity α} (h : p.tasks[i]? = some a)
    (a' : Activity α) (j : Nat) :
    (p.set i a').tasks[j]? = if i = j then some a' else p.tasks[j]? := by
  obtain ⟨hi, -⟩ := List.getElem?_eq_some_iff.1 h
  unfold set
  rw [List.getElem?_set]
  by_cases hj : i = j
  · rw [if_pos hj, if_pos hj, if_pos hi]
  · rw [if_neg hj, if_neg hj]

/-- The tasks after a new one has been started. -/
theorem tasks_spawn (p : Pool α) (r : Routine α) (j : Nat) :
    (p.spawn r).tasks[j]? = if j = p.tasks.length then some (.ready r) else p.tasks[j]? := by
  unfold spawn
  by_cases hnew : j = p.tasks.length
  · rw [if_pos hnew, hnew, List.getElem?_concat_length]
  · rw [if_neg hnew]
    by_cases hlt : j < p.tasks.length
    · exact List.getElem?_append_left hlt
    · rw [List.getElem?_eq_none (by simp; omega), List.getElem?_eq_none (by omega)]

/-- A step of a pool is a step of one task, or of none. -/
theorem Step.move (h : Step w p shown p') (j : Nat) :
    (p'.tasks[j]? = p.tasks[j]? ∧ own j shown = []) ∨
      ∃ a a', p.tasks[j]? = some a ∧ p'.tasks[j]? = some a' ∧ Activity.Move a (own j shown) a' := by
  have hset : ∀ {p : Pool α} {i : Nat} {a a' : Activity α} {p' : Pool α}
      {shown : List (Nat × TaskEvent)} {evs : List TaskEvent}, p.tasks[i]? = some a →
      (∀ j, p'.tasks[j]? = if i = j then some a' else p.tasks[j]?) →
      (∀ j, own j shown = if i = j then evs else []) → Activity.Move a evs a' →
      (p'.tasks[j]? = p.tasks[j]? ∧ own j shown = []) ∨
        ∃ a a', p.tasks[j]? = some a ∧ p'.tasks[j]? = some a' ∧
          Activity.Move a (own j shown) a' := by
    intro p i a a' p' shown evs ha htasks hown hmove
    by_cases hj : i = j
    · subst hj
      refine Or.inr ⟨a, a', ha, ?_, ?_⟩
      · rw [htasks, if_pos rfl]
      · rwa [hown, if_pos rfl]
    · refine Or.inl ⟨?_, ?_⟩
      · rw [htasks, if_neg hj]
      · rw [hown, if_neg hj]
  have hone : ∀ (i : Nat) (e : TaskEvent) (j : Nat), own j [(i, e)] = if i = j then [e] else [] := by
    intro i e j
    by_cases hj : i = j
    · subst hj
      rw [if_pos rfl, own_self]
    · rw [if_neg hj, own_other (Ne.symm hj)]
  cases h with
  | turn h =>
    cases h with
    | @finish i a ht => exact hset ht (p.set_tasks ht _) (by simp) (.finish a)
    | @consult i q next now answer memory ht hnow hm =>
      exact hset ht (set_tasks { p with memory } ht _) (hone i _) (.consult next answer)
    | @call i request next ht => exact hset ht (p.set_tasks ht _) (hone i _) (.call request next)
    | @answer i request next answer ht hbrings =>
      exact hset ht (p.set_tasks ht _) (hone i _) (.answer request next answer)
    | @acquire i node next ht hfree =>
      exact hset ht (set_tasks { p with locks := p.locks.put node i } ht _) (hone i _)
        (.acquire node next)
    | @release i node next ht =>
      exact hset ht (set_tasks { p with locks := p.locks.erase node } ht _) (hone i _)
        (.release node next)
    | @tell i writes next ht => exact hset ht (p.set_tasks ht _) (hone i _) (.tell writes next)
    | @write i run run' next ht hrun =>
      exact hset ht (p.set_tasks ht _) (by simp) (.write run run' next)
    | @report i run run' next ht hrun =>
      exact hset ht (p.set_tasks ht _) (hone i _) (.report run next run'.report)
  | @drop i a ht hon ending hcut =>
    exact hset ht (p.set_tasks ht _) (by simp) (.drop hon hcut)
  | cancel => exact Or.inl ⟨rfl, rfl⟩
  | forget node => exact Or.inl ⟨rfl, rfl⟩

/-- A run of a pool is a run of each of its tasks. -/
theorem task_run (h : Run (Step w) p log p') {j : Nat} {a' : Activity α} (ha' : p'.tasks[j]? = some a') :
    ∃ a, p.tasks[j]? = some a ∧ Run Activity.Move a (own j log) a' := by
  induction h generalizing a' with
  | refl => exact ⟨_, ha', .refl _⟩
  | tail _ step ih =>
    rw [own_append]
    rcases step.move j with ⟨hsame, hnone⟩ | ⟨a₁, a₂, h₁, h₂, hmove⟩
    · rw [hsame] at ha'
      rw [hnone, List.append_nil]
      exact ih ha'
    · rw [h₂] at ha'
      obtain rfl := Option.some.inj ha'
      obtain ⟨a, ha, hrun⟩ := ih h₁
      exact ⟨a, ha, hrun.tail hmove⟩

/-- Tasks stay where they are, and there are no new ones. -/
theorem isSome_task (h : Run (Step w) p log p') (j : Nat) :
    p'.tasks[j]?.isSome = p.tasks[j]?.isSome := by
  induction h with
  | refl => rfl
  | tail _ step ih =>
    rw [← ih]
    rcases step.move j with ⟨hsame, -⟩ | ⟨a, a', ha, ha', -⟩
    · rw [hsame]
    · rw [ha, ha']
      rfl

/-- What happens in a pool happens to one of its tasks. -/
theorem own_eq_nil {j : Nat} (h : Run (Step w) p log p') (hnone : p.tasks[j]? = none) :
    own j log = [] := by
  induction h with
  | refl => rfl
  | @tail t u log shown run step ih =>
    rw [own_append, ih, List.nil_append]
    rcases step.move j with ⟨-, hown⟩ | ⟨a, a', ha, -, -⟩
    · exact hown
    · have hsome := isSome_task run j
      rw [ha, hnone] at hsome
      exact absurd hsome (by simp)

/-- What a task of a pool goes through is a trace of its routine. -/
theorem task_follows {j : Nat} {r : Routine α} {a' : Activity α} (h : Run (Step w) p log p')
    (hr : p.tasks[j]? = some (.ready r)) (ha' : p'.tasks[j]? = some a') :
    a'.Follows r (own j log) := by
  obtain ⟨a, ha, hrun⟩ := task_run h ha'
  rw [hr] at ha
  obtain rfl := Option.some.inj ha
  exact Activity.follows_of_run hrun

end Pool

end Rendezvous
