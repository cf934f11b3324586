import Rendezvous.Proofs.Pool.Tasks
import Rendezvous.Proofs.Resolve.Conduct
import Rendezvous.Proofs.Routine.Outages

/-!
# Tasks that keep to the commands they are allowed

Surroundings that answer anything, and let a routine have no other commands run than those that are
allowed, neither by itself nor in a propagation. A routine that gets along there is confined to these
commands whatever it is answered, and so is a task that runs it: in any run of a pool the task starts
none but them, up to where it ends or is cut off.
-/

namespace Rendezvous

open Routine

/-- Surroundings in which only some commands are allowed. -/
def confined (allowed : Request → Prop) : Surroundings Unit where
  allows _
    | .run request => allowed request
    | .propagate writes => ∀ w ∈ writes, allowed w.request
    | _ => True
  answers _ _ _ _ := True

variable {α β : Type} {allowed : Request → Prop}

/-! ## Routines -/

/-- Whatever it is answered, the routine has no other commands run. -/
def Routine.Confined (allowed : Request → Prop) (r : Routine α) : Prop :=
  r.Ensures (confined allowed) (fun _ _ => True) ()

namespace Routine

variable {r : Routine α}

theorem confined_of_keeps (h : Keeps (confined allowed) (fun _ => True) r) : r.Confined allowed :=
  h () trivial

theorem confined_ask {e : Effect} {next : e.Answer → Routine α} :
    Confined allowed (.ask e next) ↔
      (confined allowed).allows () e ∧ ∀ answer, (next answer).Confined allowed := by
  refine ensures_ask.trans (and_congr_right fun _ => ?_)
  exact ⟨fun h answer => h answer () trivial, fun h answer _ _ => h answer⟩

theorem Confined.mapValue (h : r.Confined allowed) (f : α → β) :
    (r.mapValue f).Confined allowed :=
  ensures_bind.2 (h.mono fun _ _ _ => .done trivial)

end Routine

/-! ## Tasks -/

/-- Whatever a task is answered where it is, it starts no other commands from then on. -/
def Activity.Confined (allowed : Request → Prop) : Activity α → Prop
  | .ready r => r.Confined allowed
  | .calling _ next => ∀ answer, (next answer).Confined allowed
  | .propagating _ next => ∀ report, (next report).Confined allowed
  | .ended _ => True

/-- A task that moves starts an allowed command or none. -/
theorem Activity.Confined.move {a a' : Activity α} {shown : List TaskEvent}
    (h : a.Confined allowed) (move : Move a shown a') :
    a'.Confined allowed ∧ ∀ e ∈ shown, ∀ request ∈ e.requests, allowed request := by
  cases move with
  | finish a => exact ⟨trivial, by simp⟩
  | consult next answer =>
    exact ⟨(confined_ask.1 h).2 answer, by simp [TaskEvent.requests]⟩
  | call request next =>
    obtain ⟨hallowed, hnext⟩ := confined_ask.1 h
    refine ⟨hnext, ?_⟩
    simp only [List.mem_singleton, forall_eq, TaskEvent.requests]
    exact hallowed
  | answer request next answer => exact ⟨h answer, by simp [TaskEvent.requests]⟩
  | acquire node next => exact ⟨(confined_ask.1 h).2 (), by simp [TaskEvent.requests]⟩
  | release node next => exact ⟨(confined_ask.1 h).2 (), by simp [TaskEvent.requests]⟩
  | tell writes next =>
    obtain ⟨hallowed, hnext⟩ := confined_ask.1 h
    refine ⟨hnext, ?_⟩
    simp only [List.mem_singleton, forall_eq, TaskEvent.requests, List.forall_mem_map]
    exact hallowed
  | write run run' next => exact ⟨h, by simp⟩
  | report run next report => exact ⟨h report, by simp [TaskEvent.requests]⟩
  | drop hon hcut => exact ⟨trivial, by simp⟩

theorem Activity.Confined.run {a a' : Activity α} {log : List TaskEvent} (h : a.Confined allowed)
    (run : Run Move a log a') : ∀ e ∈ log, ∀ request ∈ e.requests, allowed request := by
  have hboth : a'.Confined allowed ∧ ∀ e ∈ log, ∀ request ∈ e.requests, allowed request := by
    refine run.preserves (P := fun log a => Confined allowed a ∧
      ∀ e ∈ log, ∀ request ∈ e.requests, allowed request) ⟨h, by simp⟩ ?_
    rintro log a shown a' ⟨hconfined, hlog⟩ move
    obtain ⟨hconfined', hshown⟩ := hconfined.move move
    refine ⟨hconfined', fun e he => ?_⟩
    rcases List.mem_append.1 he with he | he
    · exact hlog e he
    · exact hshown e he
  exact hboth.2

/-- In whatever pool, a task that runs a confined routine starts no other commands. -/
theorem Pool.allowed_of_run {w : World} {p p' : Pool α} {log : List (Nat × TaskEvent)} {i : Nat}
    {r : Routine α} (run : Run (Step w) p log p') (hr : p.tasks[i]? = some (.ready r))
    (h : r.Confined allowed) {e : TaskEvent} (he : (i, e) ∈ log) :
    ∀ request ∈ e.requests, allowed request := by
  obtain ⟨a', ha'⟩ : ∃ a', p'.tasks[i]? = some a' := by
    rw [← Option.isSome_iff_exists, isSome_task run i, hr]
    rfl
  obtain ⟨a, ha, hrun⟩ := task_run run ha'
  rw [hr] at ha
  obtain rfl := Option.some.inj ha
  have hconfined : (Activity.ready r).Confined allowed := h
  exact hconfined.run hrun e (mem_own.2 he)

/-! ## Resolving -/

/-- To these surroundings, asking a node for its identifier is a command like any other. -/
theorem confined_peerIdOf {p : Peer} (h : allowed (.main p .peerInfo)) :
    Keeps (confined allowed) (fun _ => True) (Resolve.peerIdOf p).run := by
  have hconsult : ∀ q, Keeps (confined allowed) (fun _ => True) (consult q) := fun q s _ =>
    ensures_consult.2 ⟨trivial, fun _ _ _ => trivial⟩
  unfold Resolve.peerIdOf
  refine (hconsult _).run_lift.run_bind fun known => ?_
  cases known with
  | some id => exact keeps_run_pure id
  | none =>
    refine Keeps.run_bind (Attempt.keeps_probe ?_) fun id => ?_
    · exact fun s _ => ensures_perform.2 ⟨h, fun _ _ _ => trivial⟩
    · exact (hconsult _).run_lift.run_bind fun _ => keeps_run_pure id

/-- The surroundings let a task have whatever is allowed. -/
theorem confined_leeway {scope : Scope}
    (hprobes : ∀ p, scope.probes p → allowed (.main p .peerInfo) ∧ allowed (.main p .nodeIp))
    (hconfigures : ∀ request, scope.configures request → allowed request)
    (htells : ∀ writes, scope.tells writes → ∀ w ∈ writes, allowed w.request) :
    Leeway (confined allowed) scope fun _ _ => True where
  asks _ := fun _ _ => ensures_consult.2 ⟨trivial, fun _ _ _ => trivial⟩
  locates h := fun _ _ => ensures_perform.2 ⟨(hprobes _ h).2, fun _ _ _ => trivial⟩
  identifies h := confined_peerIdOf (hprobes _ h).1
  configures h := fun _ _ => ensures_perform.2 ⟨hconfigures _ h, fun _ _ _ => trivial⟩
  takes _ := ⟨trivial, fun _ _ => trivial⟩
  gives _ := ⟨trivial, fun _ _ => trivial⟩
  tells h := fun _ _ => ensures_perform.2 ⟨htells _ h, fun _ _ _ => trivial⟩

end Rendezvous
