import Rendezvous.Proofs.Routine.Surroundings
import Rendezvous.Resolve.Address

/-!
# What attempts ensure

The three things that an attempt does besides asking the memory: it reads what a node has answered, it
runs a command, and it does something under the lock of a node.
-/

namespace Rendezvous.Attempt

open Routine

variable {α σ : Type} {M : Surroundings σ} {s : σ}

theorem ensures_ofFormat {node : String} {x : Except FormatError α}
    {Q : Except ResolveError α → σ → Prop} :
    Ensures M Q s (ofFormat node x).run ↔ Q (x.mapError (.format node)) s := by
  cases x with
  | ok a => exact ensures_done
  | error e => exact ensures_done

theorem ensures_execute {request : Request} {Q : Except ResolveError String → σ → Prop} :
    Ensures M Q s (execute request).run ↔
      M.allows s (.run request) ∧ ∀ answer s', M.answers s (.run request) answer s' →
        Q (answer.mapError (.execution request.node)) s' := by
  unfold execute
  rw [ensures_run_bind, ensures_run_lift]
  refine (@ensures_perform σ M s (.run request) _).trans (and_congr_right fun _ => ?_)
  refine forall_congr' fun answer => forall_congr' fun s' => imp_congr_right fun _ => ?_
  cases answer with
  | ok output => exact ensures_done
  | error e => exact ensures_done

/-- A probe comes to what is read from the answer of the node, unless the answer is blank. -/
theorem ensures_probe {p : Peer} {command : Command} {read : String → Except FormatError α}
    {Q : Except ResolveError α → σ → Prop} :
    Ensures M Q s
        (do
          let output ← execute (.main p command)
          if (Text.trim output).isEmpty then throw (.emptyIdentity p.nodeName)
          ofFormat p.nodeName (read output) : Attempt α).run ↔
      M.allows s (.run (.main p command)) ∧
        ∀ answer s', M.answers s (.run (.main p command)) answer s' →
          Q (match answer with
            | .error e => .error (.execution p.nodeName e)
            | .ok output =>
              if (Text.trim output).isEmpty then .error (.emptyIdentity p.nodeName)
              else (read output).mapError (.format p.nodeName)) s' := by
  rw [ensures_run_bind, ensures_execute]
  refine and_congr_right fun _ => forall_congr' fun answer => ?_
  refine forall_congr' fun s' => imp_congr_right fun _ => ?_
  cases answer with
  | error e => exact Iff.rfl
  | ok output =>
    dsimp only [Except.mapError]
    by_cases hempty : (Text.trim output).isEmpty = true
    · rw [if_pos hempty, if_pos hempty, ExceptT.bind_throw]
      exact ensures_run_throw
    · rw [if_neg hempty, if_neg hempty]
      exact ensures_ofFormat

/-- Under the lock of a node, an attempt ensures what it does between taking the lock and giving it
back, however it ends. -/
theorem ensures_locked {node : String} {body : Attempt α}
    {Q : Except ResolveError α → σ → Prop} :
    Ensures M Q s (locked node body).run ↔
      M.allows s (.acquire node) ∧ ∀ s', M.answers s (.acquire node) () s' →
        Ensures M (fun result s₁ => M.allows s₁ (.release node) ∧
          ∀ s₂, M.answers s₁ (.release node) () s₂ → Q result s₂) s' body.run := by
  unfold locked
  rw [ExceptT.run_mk, ensures_bind]
  refine (@ensures_perform σ M s (.acquire node) _).trans (and_congr_right fun _ => ?_)
  constructor
  · intro h s' ha
    have hbody := ensures_bind.1 (h () s' ha)
    refine hbody.mono fun result s₁ hr => ?_
    obtain ⟨hallowed, hrest⟩ := (@ensures_perform σ M s₁ (.release node) _).1 (ensures_bind.1 hr)
    exact ⟨hallowed, fun s₂ hs₂ => ensures_done.1 (hrest () s₂ hs₂)⟩
  · intro h _ s' ha
    refine ensures_bind.2 ((h s' ha).mono fun result s₁ hr => ?_)
    obtain ⟨hallowed, hrest⟩ := hr
    refine ensures_bind.2 ((@ensures_perform σ M s₁ (.release node) _).2 ⟨hallowed, ?_⟩)
    intro _ s₂ hs₂
    exact .done (hrest s₂ hs₂)

theorem keeps_ofFormat {I : σ → Prop} (node : String) (x : Except FormatError α) :
    Keeps M I (ofFormat node x).run :=
  fun _ hs => ensures_ofFormat.2 hs

theorem keeps_execute {I : σ → Prop} {request : Request}
    (h : Keeps M I (perform (.run request))) : Keeps M I (execute request).run := by
  intro s hs
  exact ensures_execute.2 (ensures_perform.1 (h s hs))

theorem keeps_probe {I : σ → Prop} {p : Peer} {command : Command}
    {read : String → Except FormatError α} (h : Keeps M I (perform (.run (.main p command)))) :
    Keeps M I
      (do
        let output ← execute (.main p command)
        if (Text.trim output).isEmpty then throw (.emptyIdentity p.nodeName)
        ofFormat p.nodeName (read output) : Attempt α).run := by
  intro s hs
  exact ensures_probe.2 (ensures_perform.1 (h s hs))

end Rendezvous.Attempt

namespace Rendezvous.Resolve

open Routine

variable {t : List TaskEvent}

theorem ends_execute {request : Request} {output : String}
    (h : Ends (Attempt.execute request).run t (.ok output)) :
    t = [.called request, .answered request (.ok output)] := by
  unfold Attempt.execute at h
  obtain ⟨t₁, answer, t₂, rfl, h₁, h₂⟩ := ends_run_bind_ok.1 h
  rw [ends_run_lift] at h₁
  obtain rfl := (@ends_perform _ (.run request) _).1 h₁
  cases answer with
  | ok output' =>
    obtain ⟨rfl, hout⟩ := ends_run_pure.1 h₂
    obtain rfl := Except.ok.inj hout
    rfl
  | error e =>
    obtain ⟨-, h₂⟩ := ends_run_throw.1 h₂
    exact absurd h₂ (by simp)

/-- What is known is what the cache has answered. -/
theorem knownValue_eq_some {answer : Except CacheError (Option String)} {value : String}
    (h : knownValue answer = some value) : answer = .ok (some value) := by
  unfold knownValue at h
  split at h
  · split at h
    · exact absurd h (by simp)
    · rw [Option.some.inj h]
  · exact absurd h (by simp)

end Rendezvous.Resolve
