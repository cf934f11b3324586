import Rendezvous.Proofs.Resolve.Conduct

/-!
# The lock of a node is the custody of its identifier

A task asks a node for its identifier only with the lock of the node, after it has found none noted;
and when the node tells one that is accepted, the task notes it before it does anything else.
-/

namespace Rendezvous

open Routine Attempt

/-- The identifier that the answer to a command brings, if the command asks for one and the answer is
accepted. -/
def toldId? (request : Request) (answer : Except ExecError String) : Option String :=
  match answer with
  | .ok output =>
    if request.command = .peerInfo then (truncatePeerId (Text.trim output) peerIdLength).toOption
    else none
  | .error _ => none

theorem toldId?_eq_some {request : Request} {answer : Except ExecError String} {id : String} :
    toldId? request answer = some id ↔
      request.command = .peerInfo ∧ ∃ output, answer = .ok output ∧
        truncatePeerId (Text.trim output) peerIdLength = .ok id := by
  unfold toldId?
  cases answer with
  | error e => simp
  | ok output =>
    by_cases hcommand : request.command = .peerInfo
    · cases htold : truncatePeerId (Text.trim output) peerIdLength with
      | error e => simp [hcommand, htold, Except.toOption]
      | ok id' => simp [hcommand, htold, Except.toOption]
    · simp [hcommand]

/-- Where a task stands with the lock and the identifier of a node. -/
inductive Stance where
  /-- It has no lock. -/
  | free
  /-- It has the lock of a node. -/
  | holding (node : String)
  /-- It has the lock of a node and has found that no identifier of it is noted. -/
  | seeking (node : String)
  /-- It has the lock of a node and was told its identifier. -/
  | told (node id : String)
deriving DecidableEq, Repr

namespace Stance

/-- The node whose lock a task has. -/
def node? : Stance → Option String
  | .free => none
  | .holding node => some node
  | .seeking node => some node
  | .told node _ => some node

/-- What a task may ask for. -/
def Allows : Stance → Effect → Prop
  | .told node id, e => e = .consult (.noteId node id)
  | _, .consult (.noteId ..) => False
  | s, .consult (.recallId node) => s.node? = some node
  | _, .consult _ => True
  | s, .run request => request.command = .peerInfo → s = .seeking request.node
  | s, .acquire _ => s = .free
  | s, .release node => s.node? = some node
  | s, .propagate _ => s = .free

/-- Where a task stands when it has been answered. -/
def after (s : Stance) : (e : Effect) → e.Answer → Stance
  | .consult (.recallId node), known => known.elim (.seeking node) fun _ => s
  | .consult (.noteId node _), _ => .holding node
  | .consult _, _ => s
  | .run request, answer => (toldId? request answer).elim s (.told request.node)
  | .acquire node, _ => .holding node
  | .release _, _ => .free
  | .propagate _, _ => s

theorem after_run (s : Stance) (request : Request) (answer : Except ExecError String) :
    s.after (.run request) answer =
      (toldId? request answer).elim s (.told request.node) := rfl

/-- The states of a task between its errands, by the lock that it has. -/
def At (held : Option String) (s : Stance) : Prop :=
  s.node? = held ∧ ∀ node id, s ≠ .told node id

theorem at_none {s : Stance} : At none s ↔ s = .free := by
  cases s <;> simp [At, node?]

theorem at_some {s : Stance} {node : String} :
    At (some node) s ↔ s = .holding node ∨ s = .seeking node := by
  cases s <;> simp [At, node?]

end Stance

/-- Surroundings that keep an eye on where a task stands. -/
def custody : Surroundings Stance where
  allows := Stance.Allows
  answers s e answer s' := s' = s.after e answer

theorem custody_asks {held : Option String} {q : Query} (hq : q.Plain fun _ => True) :
    Keeps custody (Stance.At held) (consult q) := by
  intro s hs
  have hallows : s.Allows (.consult q) ∧ ∀ answer, s.after (.consult q) answer = s := by
    cases s with
    | told node id => exact absurd rfl (hs.2 node id)
    | _ =>
      cases q with
      | recallId node => exact absurd hq (by simp [Query.Plain])
      | noteId node id => exact absurd hq (by simp [Query.Plain])
      | _ => exact ⟨trivial, fun _ => rfl⟩
  refine ensures_consult.2 ⟨hallows.1, ?_⟩
  rintro answer s' rfl
  rw [hallows.2]
  exact hs

theorem custody_runs {held : Option String} {request : Request}
    (h : request.command ≠ .peerInfo) :
    Keeps custody (Stance.At held) (perform (.run request)) := by
  intro s hs
  have hallows : s.Allows (.run request) := by
    cases s with
    | told node id => exact absurd rfl (hs.2 node id)
    | _ => exact fun hcommand => absurd hcommand h
  refine ensures_perform.2 ⟨hallows, ?_⟩
  rintro answer s' rfl
  have hnone : toldId? request answer = none := by
    cases htold : toldId? request answer with
    | none => rfl
    | some id => exact absurd (toldId?_eq_some.1 htold).1 h
  rwa [Stance.after_run, hnone]

/-- A node that is asked for its identifier either tells one that is accepted, or the attempt fails
and the task stands where it stood. -/
theorem custody_probeIdentity (p : Peer) :
    Ensures custody
      (fun result s =>
        match result with
        | .ok id => s = .told p.nodeName id
        | .error _ => s = .seeking p.nodeName)
      (.seeking p.nodeName) (Resolve.probeIdentity p).run := by
  refine ensures_probe.2 ⟨fun _ => rfl, ?_⟩
  rintro answer s' rfl
  rw [Stance.after_run]
  cases answer with
  | error e => exact rfl
  | ok output =>
    have htold : toldId? (.main p .peerInfo) (.ok output) =
        (truncatePeerId (Text.trim output) peerIdLength).toOption := by
      simp only [toldId?, Request.main, if_true]
    rw [htold]
    by_cases hempty : (Text.trim output).isEmpty = true
    · have hshort : (Text.trim output).length < peerIdLength := by
        rw [String.isEmpty_iff.1 hempty]
        decide
      rw [truncatePeerId, if_pos hshort]
      simp only [if_pos hempty]
      rfl
    · simp only [if_neg hempty]
      cases truncatePeerId (Text.trim output) peerIdLength with
      | ok id => exact rfl
      | error e => exact rfl

theorem custody_peerIdOf (p : Peer) :
    Keeps custody (Stance.At (some p.nodeName)) (Resolve.peerIdOf p).run := by
  intro s hs
  unfold Resolve.peerIdOf
  rw [ensures_run_bind, ensures_run_lift, ensures_consult]
  refine ⟨?_, ?_⟩
  · rcases Stance.at_some.1 hs with rfl | rfl
    · exact rfl
    · exact rfl
  · rintro known s' rfl
    cases known with
    | some id => exact ensures_run_pure.2 hs
    | none =>
      dsimp only
      rw [ensures_run_bind]
      refine (custody_probeIdentity p).mono fun result s' hs' => ?_
      cases result with
      | error e => exact Stance.at_some.2 (Or.inr hs')
      | ok id =>
        subst hs'
        dsimp only
        rw [ensures_run_bind, ensures_run_lift, ensures_consult]
        refine ⟨rfl, ?_⟩
        rintro answer s' rfl
        exact ensures_run_pure.2 (Stance.at_some.2 (Or.inl rfl))

theorem custody_conduct : Conduct custody (fun _ => True) Stance.At where
  asks := custody_asks
  runs := custody_runs
  takes {node s} hs := by
    rw [Stance.at_none] at hs
    subst hs
    refine ⟨rfl, ?_⟩
    rintro s' rfl
    exact Stance.at_some.2 (Or.inl rfl)
  gives {node s} hs := by
    refine ⟨?_, ?_⟩
    · rcases Stance.at_some.1 hs with rfl | rfl
      · exact rfl
      · exact rfl
    · rintro s' rfl
      exact Stance.at_none.2 rfl
  tells {writes} s hs := by
    rw [Stance.at_none] at hs
    subst hs
    refine ensures_perform.2 ⟨rfl, ?_⟩
    rintro report s' rfl
    exact Stance.at_none.2 rfl
  identifies := custody_peerIdOf

end Rendezvous
