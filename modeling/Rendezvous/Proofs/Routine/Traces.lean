import Mathlib.Tactic.Common
import Rendezvous.Resolve.Routine

/-!
# Traces of routines

What a routine goes through is a list of events: what it has asked for and what it was answered. A
routine after some events is another routine, and the events of one routine after another are those
of the one and then those of the other.
-/

namespace Rendezvous

/-- What a routine goes through. -/
inductive TaskEvent where
  /-- The memory has answered. -/
  | consulted (q : Query) (answer : q.Answer)
  /-- A command has been started. -/
  | called (request : Request)
  /-- A command has been answered. -/
  | answered (request : Request) (answer : Except ExecError String)
  /-- The lock of a node has been taken. -/
  | acquired (node : String)
  /-- The lock of a node has been given back. -/
  | released (node : String)
  /-- A propagation has been started. -/
  | told (writes : List TrustWrite)
  /-- A propagation has come to a report. -/
  | reported (report : PropagationReport)

/-- The command that has been started. -/
def TaskEvent.called? : TaskEvent → Option Request
  | .called request => some request
  | _ => none

/-- The command that has been answered, with the answer. -/
def TaskEvent.answered? : TaskEvent → Option (Request × Except ExecError String)
  | .answered request answer => some (request, answer)
  | _ => none

theorem TaskEvent.answered?_eq_some {e : TaskEvent} {request : Request}
    {answer : Except ExecError String} :
    e.answered? = some (request, answer) ↔ e = .answered request answer := by
  cases e <;> simp [answered?]

theorem TaskEvent.called?_eq_some {e : TaskEvent} {request : Request} :
    e.called? = some request ↔ e = .called request := by
  cases e <;> simp [called?]

/-- What a routine goes through when it asks for something and is answered. -/
def Effect.events : (e : Effect) → e.Answer → List TaskEvent
  | .consult q, answer => [.consulted q answer]
  | .run request, answer => [.called request, .answered request answer]
  | .acquire node, _ => [.acquired node]
  | .release node, _ => [.released node]
  | .propagate writes, report => [.told writes, .reported report]

namespace Routine

variable {α β : Type}

/-! ## Routines as a monad -/

theorem andThen_done (r : Routine α) : r.andThen .done = r := by
  induction r with
  | done a => rfl
  | ask e next ih => exact congrArg (Routine.ask e) (funext ih)

theorem andThen_assoc {γ : Type} (r : Routine α) (f : α → Routine β) (g : β → Routine γ) :
    (r.andThen f).andThen g = r.andThen fun a => (f a).andThen g := by
  induction r with
  | done a => rfl
  | ask e next ih => exact congrArg (Routine.ask e) (funext ih)

instance : LawfulMonad Routine :=
  LawfulMonad.mk' Routine andThen_done (fun _ _ => rfl) andThen_assoc

theorem ask_bind (e : Effect) (next : e.Answer → Routine α) (f : α → Routine β) :
    Routine.ask e next >>= f = .ask e fun answer => next answer >>= f := rfl

/-! ## Traces -/

/-- What is left of a routine after some events. -/
inductive Reaches : Routine α → List TaskEvent → Routine α → Prop where
  /-- Nothing has happened. -/
  | refl (r : Routine α) : Reaches r [] r
  /-- It has asked for something and gone on with the answer. -/
  | step {e : Effect} {next : e.Answer → Routine α} (answer : e.Answer) {t : List TaskEvent}
      {r : Routine α} (rest : Reaches (next answer) t r) :
      Reaches (.ask e next) (e.events answer ++ t) r

/-- A routine ends with a value after some events. -/
def Ends (r : Routine α) (t : List TaskEvent) (a : α) : Prop := Reaches r t (.done a)

variable {r r' : Routine α} {t t' : List TaskEvent}

theorem Reaches.snoc {e : Effect} {next : e.Answer → Routine α}
    (h : Reaches r t (.ask e next)) (answer : e.Answer) :
    Reaches r (t ++ e.events answer) (next answer) := by
  generalize hr : Routine.ask e next = goal at h
  induction h with
  | refl r =>
    subst hr
    rw [List.nil_append, ← List.append_nil (e.events answer)]
    exact .step answer (.refl _)
  | step first rest ih =>
    rw [List.append_assoc]
    exact .step first (ih hr)

theorem ends_done {a b : α} : Ends (.done a : Routine α) t b ↔ t = [] ∧ b = a := by
  constructor
  · intro h
    cases h
    exact ⟨rfl, rfl⟩
  · rintro ⟨rfl, rfl⟩
    exact .refl _

@[simp] theorem ends_pure {a b : α} : Ends (pure a : Routine α) t b ↔ t = [] ∧ b = a := ends_done

theorem ends_ask {e : Effect} {next : e.Answer → Routine α} {a : α} :
    Ends (.ask e next) t a ↔ ∃ answer t', t = e.events answer ++ t' ∧ Ends (next answer) t' a := by
  constructor
  · intro h
    cases h with
    | step answer rest => exact ⟨answer, _, rfl, rest⟩
  · rintro ⟨answer, t', rfl, rest⟩
    exact .step answer rest

@[simp] theorem ends_perform {e : Effect} {answer : e.Answer} :
    Ends (perform e) t answer ↔ t = e.events answer := by
  unfold perform
  rw [ends_ask]
  constructor
  · rintro ⟨answer', t', rfl, h⟩
    obtain ⟨rfl, rfl⟩ := ends_done.1 h
    exact List.append_nil _
  · rintro rfl
    exact ⟨answer, [], (List.append_nil _).symm, ends_done.2 ⟨rfl, rfl⟩⟩

@[simp] theorem ends_consult {q : Query} {answer : q.Answer} :
    Ends (consult q) t answer ↔ t = [.consulted q answer] :=
  @ends_perform t (.consult q) answer

/-- One routine after another goes through what the one and what the other goes through. -/
theorem ends_bind {f : α → Routine β} {b : β} :
    Ends (r >>= f) t b ↔ ∃ t₁ a t₂, t = t₁ ++ t₂ ∧ Ends r t₁ a ∧ Ends (f a) t₂ b := by
  induction r generalizing t with
  | done a =>
    constructor
    · intro h
      exact ⟨[], a, t, rfl, .refl _, h⟩
    · rintro ⟨t₁, a', t₂, rfl, h₁, h₂⟩
      obtain ⟨rfl, rfl⟩ := ends_done.1 h₁
      exact h₂
  | ask e next ih =>
    rw [ask_bind, ends_ask]
    constructor
    · rintro ⟨answer, t', rfl, h⟩
      obtain ⟨t₁, a, t₂, rfl, h₁, h₂⟩ := ih answer |>.1 h
      exact ⟨_, a, t₂, (List.append_assoc ..).symm, ends_ask.2 ⟨answer, t₁, rfl, h₁⟩, h₂⟩
    · rintro ⟨t₁, a, t₂, rfl, h₁, h₂⟩
      obtain ⟨answer, t', rfl, h⟩ := ends_ask.1 h₁
      exact ⟨answer, t' ++ t₂, List.append_assoc .., (ih answer).2 ⟨t', a, t₂, rfl, h, h₂⟩⟩

/-- A value at the end of an attempt after another one comes from both. -/
theorem ends_run_bind_ok {x : Attempt α} {f : α → Attempt β} {b : β} :
    Ends (x >>= f).run t (.ok b) ↔
      ∃ t₁ a t₂, t = t₁ ++ t₂ ∧ Ends x.run t₁ (.ok a) ∧ Ends (f a).run t₂ (.ok b) := by
  rw [ExceptT.run_bind, ends_bind]
  constructor
  · rintro ⟨t₁, result, t₂, rfl, h₁, h₂⟩
    cases result with
    | ok a => exact ⟨t₁, a, t₂, rfl, h₁, h₂⟩
    | error e => exact absurd (ends_pure.1 h₂).2 (by simp)
  · rintro ⟨t₁, a, t₂, rfl, h₁, h₂⟩
    exact ⟨t₁, .ok a, t₂, rfl, h₁, h₂⟩

@[simp] theorem ends_run_pure {a : α} {result : Except ResolveError α} :
    Ends (pure a : Attempt α).run t result ↔ t = [] ∧ result = .ok a := ends_done

@[simp] theorem ends_run_throw {e : ResolveError} {result : Except ResolveError α} :
    Ends (throw e : Attempt α).run t result ↔ t = [] ∧ result = .error e := ends_done

theorem ends_run_lift {x : Routine α} {a : α} :
    Ends (liftM x : Attempt α).run t (.ok a) ↔ Ends x t a := by
  rw [ExceptT.run_liftM, map_eq_pure_bind, ends_bind]
  constructor
  · rintro ⟨t₁, a', t₂, rfl, h₁, h₂⟩
    obtain ⟨rfl, h⟩ := ends_pure.1 h₂
    rw [List.append_nil, Except.ok.inj h]
    exact h₁
  · intro h
    exact ⟨t, a, [], (List.append_nil t).symm, h, ends_pure.2 ⟨rfl, rfl⟩⟩

end Routine

end Rendezvous
