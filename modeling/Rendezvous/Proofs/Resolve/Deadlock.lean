import Rendezvous.Proofs.Resolve.Discipline
import Rendezvous.Proofs.Resolve.SingleFlight

/-!
# No deadlock

A task that waits for a lock has none, so whoever has a lock does not wait for one, and gives it back
in the end. However the calls are interleaved and whatever depends on what, some call that has not
ended can go on, as long as commands and the memory answer.
-/

namespace Rendezvous

/-- What a propagation still has to go through. -/
def Propagation.remaining (run : Propagation) : Nat :=
  2 * run.running.length + run.ended.length

/-- The lock for which a task asks. -/
def Activity.asked? {α : Type} : Activity α → Option String
  | .ready (.ask (.acquire node) _) => some node
  | _ => none

theorem Activity.asked?_eq_some {α : Type} {a : Activity α} {node : String}
    (h : a.asked? = some node) : ∃ next, a = .ready (.ask (.acquire node) next) := by
  unfold asked? at h
  split at h
  · exact ⟨_, by rw [Option.some.inj h]⟩
  · exact absurd h (by simp)

/-- A memory whose cache takes nothing answers every question. -/
theorem Memory.isSome_consult {m : Memory} (h : m.faults.set = true) (now : Instant) (q : Query) :
    (m.consult now q).isSome := by
  cases q <;> simp [consult, h]

namespace Pool

variable {α : Type} {w : World} {p : Pool α} {g : Nat → Stance} {log : List (Nat × TaskEvent)}

/-- Whatever the tasks of a pool are waiting for comes in the end, except locks. -/
structure Returns (w : World) (p : Pool α) : Prop where
  /-- Commands return. -/
  commands : ∀ {i : Nat} {request : Request} {next : Except ExecError String → Routine α},
    p.tasks[i]? = some (.calling request next) → ∃ answer, w.brings request answer
  /-- The memory answers. -/
  memory : ∀ {i : Nat} {q : Query} {next : q.Answer → Routine α},
    p.tasks[i]? = some (.ready (.ask (.consult q) next)) →
    ∃ now, w.timely now ∧ (p.memory.consult now q).isSome

/-- A task can take a turn that brings it further: it goes through something, it ends, or its
propagation has less before it. -/
def CanGoOn (w : World) (p : Pool α) (i : Nat) : Prop :=
  ∃ shown p', Turn w p shown p' ∧
    ((∃ e, (i, e) ∈ shown) ∨ (∃ ending, p'.tasks[i]? = some (.ended ending)) ∨
      ∃ run run' next, p.tasks[i]? = some (.propagating run next) ∧
        p'.tasks[i]? = some (.propagating run' next) ∧ run'.remaining < run.remaining)

/-- A propagation goes on: a write ends, one that has ended is counted, or all are. -/
theorem canGoOn_of_propagating {i : Nat} {run : Propagation} {next : PropagationReport → Routine α}
    (ha : p.tasks[i]? = some (.propagating run next)) : CanGoOn w p i := by
  have hwrite : ∀ run', ((∃ id outcome, run' = run.finish id outcome) ∨ run.join? = some run') →
      run'.remaining < run.remaining → CanGoOn w p i := by
    intro run' hrun hless
    refine ⟨_, _, .write ha hrun, Or.inr (Or.inr ⟨run, run', next, ha, ?_, hless⟩)⟩
    rw [p.set_tasks ha, if_pos rfl]
  cases hrunning : run.running with
  | cons x rest =>
    refine hwrite (run.finish x.1 .written) (Or.inl ⟨_, _, rfl⟩) ?_
    have hlength := List.length_filter_le (fun y => y.1 != x.1) rest
    simp only [Propagation.finish, hrunning, List.find?_cons_of_pos, beq_self_eq_true,
      Propagation.remaining, List.filter_cons, bne_self_eq_false, Bool.false_eq_true, if_false,
      List.length_append, List.length_cons, List.length_nil]
    omega
  | nil =>
    cases hended : run.ended with
    | cons x rest =>
      refine hwrite _ (Or.inr (by simp only [Propagation.join?, hended]; rfl)) ?_
      simp only [Propagation.remaining, hended, List.length_cons]
      omega
    | nil =>
      have hover : run.isOver = true := by simp [Propagation.isOver, hrunning, hended]
      exact ⟨_, _, .report ha (Or.inl ⟨hover, rfl⟩), Or.inl ⟨_, List.mem_cons_self⟩⟩

/-- A task that has not ended can go on, unless it waits for a lock that another one has. -/
theorem canGoOn_or_waits {i : Nat} {a : Activity α} (ha : p.tasks[i]? = some a)
    (hon : ∀ ending, a ≠ .ended ending) (hreturns : p.Returns w) :
    CanGoOn w p i ∨ ∃ node next j, a = .ready (.ask (.acquire node) next) ∧
      p.locks.get? node = some j := by
  cases a with
  | ready r =>
    cases r with
    | done value =>
      refine Or.inl ⟨_, _, .finish ha, Or.inr (Or.inl ⟨.value value, ?_⟩)⟩
      rw [p.set_tasks ha, if_pos rfl]
    | ask e next =>
      cases e with
      | consult q =>
        obtain ⟨now, hnow, hsome⟩ := hreturns.memory ha
        obtain ⟨⟨answer, memory⟩, hm⟩ := Option.isSome_iff_exists.1 hsome
        exact Or.inl ⟨_, _, .consult ha hnow hm, Or.inl ⟨_, List.mem_cons_self⟩⟩
      | run request => exact Or.inl ⟨_, _, .call ha, Or.inl ⟨_, List.mem_cons_self⟩⟩
      | acquire node =>
        cases hlock : p.locks.get? node with
        | none =>
          have hfree : p.locks.contains node = false := by simp [Table.contains, hlock]
          exact Or.inl ⟨_, _, .acquire ha hfree, Or.inl ⟨_, List.mem_cons_self⟩⟩
        | some j => exact Or.inr ⟨node, next, j, rfl, hlock⟩
      | release node => exact Or.inl ⟨_, _, .release ha, Or.inl ⟨_, List.mem_cons_self⟩⟩
      | propagate writes => exact Or.inl ⟨_, _, .tell ha, Or.inl ⟨_, List.mem_cons_self⟩⟩
  | calling request next =>
    obtain ⟨answer, hbrings⟩ := hreturns.commands ha
    exact Or.inl ⟨_, _, .answer ha hbrings, Or.inl ⟨_, List.mem_cons_self⟩⟩
  | propagating run next => exact Or.inl (canGoOn_of_propagating ha)
  | ended ending => exact absurd rfl (hon ending)

/-- In a pool in order, a task that waits for a lock has none. -/
theorem Orderly.free_of_acquire (ho : Orderly p g) {i : Nat} {node : String}
    {next : Unit → Routine α} (ha : p.tasks[i]? = some (.ready (.ask (.acquire node) next))) :
    g i = .free :=
  Stance.eq_free_of_allows_acquire (Routine.minded_ask.1 (ho.minds ha)).1

/-- In a pool in order, some task that has not ended can go on: if one waits for a lock, the one that
has it does not wait for a lock. -/
theorem Orderly.progress (ho : Orderly p g) {i : Nat} {a : Activity α} (ha : p.tasks[i]? = some a)
    (hon : ∀ ending, a ≠ .ended ending) (hreturns : p.Returns w) :
    ∃ j b, p.tasks[j]? = some b ∧ (∀ ending, b ≠ .ended ending) ∧ CanGoOn w p j := by
  rcases canGoOn_or_waits ha hon hreturns with hi | ⟨node, next, j, rfl, hlock⟩
  · exact ⟨i, a, ha, hon, hi⟩
  · have hj : (g j).node? = some node := ho.locks.1 hlock
    cases hb : p.tasks[j]? with
    | none =>
      rw [ho.absent hb] at hj
      exact absurd hj (by simp [Stance.node?])
    | some b =>
      have hon' : ∀ ending, b ≠ .ended ending := by
        rintro ending rfl
        have hfree : g j = .free := ho.minds hb
        rw [hfree] at hj
        exact absurd hj (by simp [Stance.node?])
      refine ⟨j, b, hb, hon', ?_⟩
      rcases canGoOn_or_waits hb hon' hreturns with hgo | ⟨node', next', k, rfl, -⟩
      · exact hgo
      · rw [ho.free_of_acquire hb] at hj
        exact absurd hj (by simp [Stance.node?])

/-- What is promised about locks. -/
structure DeadlockFree (w : World) (s : Settings) (p : Pool α) : Prop where
  /-- A task that waits for a lock has none. -/
  waits_free : ∀ {i : Nat} {node : String} {next : Unit → Routine α},
    p.tasks[i]? = some (.ready (.ask (.acquire node) next)) →
    ∀ other, p.locks.get? other ≠ some i
  /-- Finding the own address of a peer gives back the lock that it takes, however it ends. -/
  own_released : ∀ {peer : Peer} {t result}, (Resolve.ownAddress peer).run.Ends t result →
    Routine.Paired none t
  /-- Finding the address of a dependency gives back the lock that it takes, however it ends. -/
  dependency_released : ∀ {peer : Peer} {dns : Option String} {t result},
    (Resolve.dependencyAddress s peer dns).run.Ends t result → Routine.Paired none t
  /-- A task that has ended has no lock. -/
  ended_free : ∀ {i : Nat} {ending : Ending α}, p.tasks[i]? = some (.ended ending) →
    ∀ node, p.locks.get? node ≠ some i
  /-- As long as a task has not ended, some such task can go on. -/
  progress : ∀ {i : Nat} {a : Activity α}, p.tasks[i]? = some a → (∀ ending, a ≠ .ended ending) →
    p.Returns w → ∃ j b, p.tasks[j]? = some b ∧ (∀ ending, b ≠ .ended ending) ∧ CanGoOn w p j

/-- However many peers are resolved, processed or connected at once, whatever depends on what, and
whichever calls are cut off: no call waits for a lock while it has one, every lock is given back by
the step that has taken it, and as long as commands and the memory answer, some call that has not
ended can go on. -/
theorem resolving_deadlock_free {s : Settings} {memory : Memory} {calls : List Errand}
    {p : Pool (Except ResolveError (Resolution ⊕ Connections))}
    (h : Run (Step w) (errands s memory calls) log p) : DeadlockFree w s p := by
  obtain ⟨g, ho⟩ : ∃ g, Orderly p g := by
    refine h.preserves (P := fun _ p => ∃ g, Orderly p g) ⟨_, errands_orderly s memory calls⟩ ?_
    rintro log p shown p' ⟨g, ho⟩ step
    exact step.orderly ho
  have hno : ∀ {i}, g i = .free → ∀ node, p.locks.get? node ≠ some i := by
    intro i hi node hlock
    rw [ho.locks, hi] at hlock
    exact absurd hlock (by simp [Stance.node?])
  refine ⟨fun ha => hno (ho.free_of_acquire ha), ?_, ?_, fun ha => hno (ho.minds ha), ?_⟩
  · intro peer t result hends
    have htidy := Resolve.tidy_ownAddress (fun _ => True) peer
    exact Routine.Ensures.paired (fun _ _ h => h) htidy hends
  · intro peer dns t result hends
    have htidy : Routine.Tidy (fun _ => True) none (Resolve.dependencyAddress s peer dns).run :=
      Resolve.tidy_dependencyAddress s dns trivial
    exact Routine.Ensures.paired (fun _ _ h => h) htidy hends
  · intro i a ha hon hreturns
    exact ho.progress ha hon hreturns

/-- Two calls need the same dependency; while the first has its lock, the second waits for it, and
something can go on. -/
theorem resolving_deadlock_free_waiting :
    ∃ log p next, Run (Step (.still 0 sampleAnswer))
        (errands { config := ⟨[]⟩ } { faults := { set := true } }
          [.assemble { nodeName := "a", connectsTo := ["b"] },
            .assemble { nodeName := "c", connectsTo := ["b"] }]) log p ∧
      p.locks.get? "b" = some 0 ∧ p.tasks[1]? = some (.ready (.ask (.acquire "b") next)) ∧
      (∀ other, p.locks.get? other ≠ some 1) ∧
      ∃ j b, p.tasks[j]? = some b ∧ (∀ ending, b ≠ .ended ending) ∧
        CanGoOn (.still 0 sampleAnswer) p j := by
  have hmoves : ∃ p₁ ∈ (errands { config := ⟨[]⟩ } { faults := { set := true } }
      [.assemble { nodeName := "a", connectsTo := ["b"] },
        .assemble { nodeName := "c", connectsTo := ["b"] }]).advance? 0 0,
      ∃ p₂ ∈ p₁.advance? 0 0, ∃ p ∈ p₂.advance? 0 1, p.memory.faults.set = true ∧
        p.locks.get? "b" = some 0 ∧ p.tasks[1]?.bind Activity.asked? = some "b" := by
    decide +kernel
  obtain ⟨p₁, h₁, p₂, h₂, p, h₃, hfault, hlock, hasked⟩ := hmoves
  obtain ⟨a, ha, hasked⟩ := Option.bind_eq_some_iff.1 hasked
  obtain ⟨next, rfl⟩ := Activity.asked?_eq_some hasked
  have hstep : ∀ {i} {p p' : Pool (Except ResolveError (Resolution ⊕ Connections))},
      p' ∈ p.advance? 0 i → ∃ shown, Step (.still 0 sampleAnswer) p shown p' :=
    fun h => advance?_step rfl h
  obtain ⟨_, hstep₁⟩ := hstep h₁
  obtain ⟨_, hstep₂⟩ := hstep h₂
  obtain ⟨_, hstep₃⟩ := hstep h₃
  have hrun := ((Run.single hstep₁).tail hstep₂).tail hstep₃
  have hfree := resolving_deadlock_free hrun
  have hreturns : p.Returns (.still 0 sampleAnswer) :=
    ⟨fun _ => ⟨_, rfl⟩, fun _ => ⟨0, rfl, Memory.isSome_consult hfault ..⟩⟩
  exact ⟨_, p, next, hrun, hlock, ha, hfree.waits_free ha, hfree.progress ha (by simp) hreturns⟩

end Pool

end Rendezvous
