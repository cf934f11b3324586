import Rendezvous.Proofs.Resolve.Attempts

/-!
# What attempts yield

What an attempt ends with depends on what it has been answered. If all that it goes through is of one
kind, its value is of another; such facts are put together along the attempt, whatever it asks.
-/

namespace Rendezvous.Attempt

open Routine

variable {α β : Type} {E : TaskEvent → Prop} {P : α → Prop} {P' : β → Prop} {x : Attempt α}

/-- Whenever the attempt ends with a value after events that all satisfy `E`, the value satisfies
`P`. -/
def Yields (E : TaskEvent → Prop) (P : α → Prop) (x : Attempt α) : Prop :=
  ∀ t a, Ends x.run t (.ok a) → (∀ e ∈ t, E e) → P a

theorem yields_pure {a : α} (h : P a) : Yields E P (pure a) := by
  intro t a' hends _
  rw [Except.ok.inj (ends_run_pure.1 hends).2]
  exact h

theorem yields_throw (e : ResolveError) : Yields E P (throw e) := by
  intro t a hends _
  exact absurd (ends_run_throw.1 hends).2 (by simp)

theorem Yields.bind {f : α → Attempt β} (h : Yields E P x) (hf : ∀ a, P a → Yields E P' (f a)) :
    Yields E P' (x >>= f) := by
  intro t b hends hE
  obtain ⟨t₁, a, t₂, rfl, h₁, h₂⟩ := ends_run_bind_ok.1 hends
  rw [List.forall_mem_append] at hE
  exact hf a (h t₁ a h₁ hE.1) t₂ b h₂ hE.2

theorem Yields.map {f : α → β} (h : Yields E P x) (hf : ∀ a, P a → P' (f a)) :
    Yields E P' (f <$> x) := by
  rw [map_eq_pure_bind]
  exact h.bind fun a ha => yields_pure (hf a ha)

theorem yields_lift {r : Routine α} (h : ∀ t a, Ends r t a → (∀ e ∈ t, E e) → P a) :
    Yields E P (liftM r : Attempt α) := by
  intro t a hends hE
  exact h t a (ends_run_lift.1 hends) hE

theorem yields_ofFormat {node : String} {y : Except FormatError α} (h : ∀ a, y = .ok a → P a) :
    Yields E P (ofFormat node y) := by
  cases y with
  | ok a => exact yields_pure (h a rfl)
  | error e => exact yields_throw _

theorem yields_execute {request : Request} {P : String → Prop}
    (h : ∀ output, E (.answered request (.ok output)) → P output) :
    Yields E P (execute request) := by
  intro t output hends hE
  obtain rfl := Resolve.ends_execute hends
  exact h output (hE _ (by simp))

/-- A probe yields what is read from the answer of the node. -/
theorem yields_probe {p : Peer} {command : Command} {read : String → Except FormatError α}
    (h : ∀ output a, E (.answered (.main p command) (.ok output)) → read output = .ok a → P a) :
    Yields E P (do
      let output ← execute (.main p command)
      if (Text.trim output).isEmpty then throw (.emptyIdentity p.nodeName)
      ofFormat p.nodeName (read output)) := by
  refine (yields_execute fun output hE => hE).bind fun output hE => ?_
  by_cases hempty : (Text.trim output).isEmpty = true
  · rw [if_pos hempty, ExceptT.bind_throw]
    exact yields_throw _
  · rw [if_neg hempty]
    exact yields_ofFormat fun a ha => h output a hE ha

/-- Under the lock of a node, an attempt yields what it yields without. -/
theorem Yields.locked {node : String} (h : Yields E P x) : Yields E P (locked node x) := by
  intro t a hends hE
  unfold Attempt.locked at hends
  rw [ExceptT.run_mk] at hends
  obtain ⟨t₁, _, t', rfl, -, hrest⟩ := ends_bind.1 hends
  obtain ⟨t₂, result, t₃, rfl, hbody, hrest⟩ := ends_bind.1 hrest
  obtain ⟨t₄, _, t₅, rfl, -, hvalue⟩ := ends_bind.1 hrest
  obtain ⟨-, rfl⟩ := ends_pure.1 hvalue
  exact h t₂ a hbody fun e he => hE e (by simp [he])

end Rendezvous.Attempt
