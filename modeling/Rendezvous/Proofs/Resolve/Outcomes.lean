import Rendezvous.Proofs.Pool.Alone
import Rendezvous.Proofs.Resolve.Probes

/-!
# What an attempt comes to

An attempt that runs while nothing else does comes to a result, leaves the memory in some state and has
run some commands. What can be said of the three together is put together from what can be said of the
parts of the attempt, in the order in which they run.
-/

namespace Rendezvous

namespace Attempt

open Routine

variable {α β : Type} {w : World} {m : Memory} {x : Attempt α}
  {R R' : Except ResolveError α → Memory → List Exchange → Prop}

/-- Whatever the nodes answer, the attempt comes to a result, a memory and exchanges that satisfy `R`
if it runs alone. -/
def Comes (w : World) (m : Memory) (x : Attempt α)
    (R : Except ResolveError α → Memory → List Exchange → Prop) : Prop :=
  ∀ calls, x.run.Ensures w.noting
    (fun result st => ∃ made, st.2 = calls ++ made ∧ R result st.1 made) (m, calls)

theorem Comes.mono (h : Comes w m x R)
    (hR : ∀ result m' made, R result m' made → R' result m' made) : Comes w m x R' := by
  intro calls
  refine (h calls).mono ?_
  rintro result st ⟨made, hmade, hr⟩
  exact ⟨made, hmade, hR result st.1 made hr⟩

theorem comes_pure {a : α} (h : R (.ok a) m []) : Comes w m (pure a) R :=
  fun _ => ensures_run_pure.2 ⟨[], by simp, h⟩

/-- One attempt after another: a failure of the first one is a failure of both. -/
theorem Comes.bind {f : α → Attempt β}
    {Q : Except ResolveError β → Memory → List Exchange → Prop} (h : Comes w m x R)
    (hok : ∀ a m' made, R (.ok a) m' made →
      Comes w m' (f a) fun result m'' made' => Q result m'' (made ++ made'))
    (herror : ∀ e m' made, R (.error e) m' made → Q (.error e) m' made) :
    Comes w m (x >>= f) Q := by
  intro calls
  refine ensures_run_bind.2 ((h calls).mono ?_)
  rintro result ⟨m', calls'⟩ ⟨made, hmade, hr⟩
  obtain rfl : calls' = calls ++ made := hmade
  cases result with
  | error e => exact ⟨made, rfl, herror e m' made hr⟩
  | ok a =>
    refine (hok a m' made hr (calls ++ made)).mono ?_
    rintro result st ⟨made', hmade', hq⟩
    exact ⟨made ++ made', by rw [hmade', List.append_assoc], hq⟩

theorem Comes.map {f : α → β} {Q : Except ResolveError β → Memory → List Exchange → Prop}
    (h : Comes w m x R) (hR : ∀ result m' made, R result m' made → Q (result.map f) m' made) :
    Comes w m (f <$> x) Q := by
  intro calls
  refine ensures_run_map.2 ((h calls).mono ?_)
  rintro result st ⟨made, hmade, hr⟩
  exact ⟨made, hmade, hR result st.1 made hr⟩

/-- The memory is asked at some instant and always answers. -/
theorem Comes.ask {q : Query} {f : q.Answer → Attempt α}
    (h : ∀ now answer m', w.timely now → m.consult now q = some (answer, m') →
      Comes w m' (f answer) R) : Comes w m (liftM (consult q) >>= f) R := by
  intro calls
  refine ensures_run_bind.2 (ensures_run_lift.2 (ensures_consult.2 ⟨trivial, ?_⟩))
  rintro answer ⟨m', calls'⟩ ⟨now, hnow, hm, hcalls⟩
  obtain rfl : calls' = calls := hcalls
  exact h now answer m' hnow hm calls'

theorem comes_ofFormat {node : String} {y : Except FormatError α}
    (h : R (y.mapError (.format node)) m []) : Comes w m (ofFormat node y) R :=
  fun _ => ensures_ofFormat.2 ⟨[], by simp, h⟩

/-- What was read is gone on with. -/
theorem Comes.format {node : String} {y : Except FormatError β} {f : β → Attempt α}
    (hok : ∀ b, y = .ok b → Comes w m (f b) R)
    (herror : ∀ e, y = .error e → R (.error (.format node e)) m []) :
    Comes w m (ofFormat node y >>= f) R := by
  cases y with
  | ok b =>
    show Comes w m (pure b >>= f) R
    rw [pure_bind]
    exact hok b rfl
  | error e =>
    show Comes w m (throw (.format node e) >>= f) R
    rw [ExceptT.bind_throw]
    exact fun _ => ensures_run_throw.2 ⟨[], by simp, herror e rfl⟩

theorem comes_execute {request : Request} {R : Except ResolveError String → Memory → List Exchange → Prop}
    (h : ∀ answer, R (answer.mapError (.execution request.node)) m [(request, answer)]) :
    Comes w m (execute request) R := by
  intro calls
  refine ensures_execute.2 ⟨trivial, ?_⟩
  rintro answer st ⟨-, rfl⟩
  exact ⟨[(request, answer)], rfl, h answer⟩

/-- A command whose output does not matter. -/
theorem comes_execute_pure {request : Request} {a : α} :
    Comes w m (do let _ ← execute request; pure a) fun result m' made => ∃ answer,
      result = (answer.mapError (.execution request.node)).map (fun _ => a) ∧ m' = m ∧
        made = [(request, answer)] := by
  have hcall : Comes w m (execute request) fun result m' made => ∃ answer,
      result = answer.mapError (.execution request.node) ∧ m' = m ∧ made = [(request, answer)] :=
    comes_execute fun answer => ⟨answer, rfl, rfl, rfl⟩
  refine hcall.bind ?_ ?_
  · rintro output m' made ⟨answer, hanswer, rfl, rfl⟩
    exact comes_pure ⟨answer, by rw [← hanswer]; rfl, rfl, rfl⟩
  · rintro e m' made ⟨answer, hanswer, rfl, rfl⟩
    exact ⟨answer, by rw [← hanswer]; rfl, rfl, rfl⟩

/-- A probe runs one command and comes to what is read from the answer. -/
theorem comes_probe {p : Peer} {command : Command} {read : String → Except FormatError α}
    (h : ∀ answer, R (Probes.reading p.nodeName answer read) m [(.main p command, answer)]) :
    Comes w m
      (do
        let output ← execute (.main p command)
        if (Text.trim output).isEmpty then throw (.emptyIdentity p.nodeName)
        ofFormat p.nodeName (read output)) R := by
  intro calls
  refine ensures_probe.2 ⟨trivial, ?_⟩
  rintro answer st ⟨-, rfl⟩
  refine ⟨[(.main p command, answer)], rfl, ?_⟩
  have hread := h answer
  cases answer with
  | error e => exact hread
  | ok output => exact hread

/-- The lock of a node is free for what runs alone. -/
theorem Comes.locked {node : String} (h : Comes w m x R) : Comes w m (locked node x) R := by
  intro calls
  refine ensures_locked.2 ⟨trivial, ?_⟩
  rintro st rfl
  refine (h calls).mono ?_
  rintro result st hr
  refine ⟨trivial, ?_⟩
  rintro st' rfl
  exact hr

/-- What an attempt comes to is what a task has come to that has run it alone. -/
theorem comes_alone {log : List (Nat × TaskEvent)} {pool : Pool (Except ResolveError α)}
    {result : Except ResolveError α} (h : Comes w m x R)
    (hrun : Run (Pool.Turn w) (Pool.alone m x.run) log pool)
    (hended : pool.tasks[0]? = some (.ended (.value result))) :
    R result pool.memory (exchanges log) ∧ requests log = (exchanges log).map Prod.fst := by
  obtain ⟨⟨made, hmade, hr⟩, hrequests⟩ := Pool.noted_of_alone (h []) hrun hended
  obtain rfl : exchanges log = made := hmade
  exact ⟨hr, hrequests⟩

end Attempt

end Rendezvous
