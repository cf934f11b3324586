import Rendezvous.Proofs.Routine.Traces

/-!
# Routines in their surroundings

What a routine achieves depends on what answers it. Surroundings say, for each of their states, what
may be asked and what may come back. In given surroundings a routine ensures something if it only
asks what it may, whatever it is answered, and if what it ensures holds whenever it ends.
-/

namespace Rendezvous

/-- What answers a routine. -/
structure Surroundings (σ : Type) where
  /-- What may be asked for. -/
  allows : σ → Effect → Prop
  /-- What may be answered, and in which state the surroundings are then. -/
  answers : σ → (e : Effect) → e.Answer → σ → Prop

namespace Routine

variable {α β σ : Type} {M : Surroundings σ} {Q Q' : α → σ → Prop} {s s' : σ} {r r' : Routine α}

/-- In these surroundings, the routine only asks what it may, and `Q` holds whenever it ends. -/
inductive Ensures (M : Surroundings σ) (Q : α → σ → Prop) : σ → Routine α → Prop where
  /-- It has ended. -/
  | done {s : σ} {a : α} (h : Q a s) : Ensures M Q s (.done a)
  /-- It asks for something that it may ask for, and goes on with any answer. -/
  | ask {s : σ} {e : Effect} {next : e.Answer → Routine α} (allowed : M.allows s e)
      (rest : ∀ answer s', M.answers s e answer s' → Ensures M Q s' (next answer)) :
      Ensures M Q s (.ask e next)

theorem ensures_done {a : α} : Ensures M Q s (.done a) ↔ Q a s := by
  constructor
  · rintro ⟨h⟩
    exact h
  · exact .done

@[simp] theorem ensures_pure {a : α} : Ensures M Q s (pure a) ↔ Q a s := ensures_done

theorem ensures_ask {e : Effect} {next : e.Answer → Routine α} :
    Ensures M Q s (.ask e next) ↔
      M.allows s e ∧ ∀ answer s', M.answers s e answer s' → Ensures M Q s' (next answer) := by
  constructor
  · rintro ⟨⟩
    rename_i allowed rest
    exact ⟨allowed, rest⟩
  · rintro ⟨allowed, rest⟩
    exact .ask allowed rest

@[simp] theorem ensures_perform {e : Effect} {Q : e.Answer → σ → Prop} :
    Ensures M Q s (perform e) ↔
      M.allows s e ∧ ∀ answer s', M.answers s e answer s' → Q answer s' := by
  unfold perform
  simp only [ensures_ask, ensures_done]

@[simp] theorem ensures_consult {q : Query} {Q : q.Answer → σ → Prop} :
    Ensures M Q s (consult q) ↔
      M.allows s (.consult q) ∧
        ∀ answer s', M.answers s (.consult q) answer s' → Q answer s' :=
  @ensures_perform σ M s (.consult q) Q

/-- One routine after another ensures what the other one does after what the one ensures. -/
theorem ensures_bind {f : α → Routine β} {Q : β → σ → Prop} :
    Ensures M Q s (r >>= f) ↔ Ensures M (fun a s' => Ensures M Q s' (f a)) s r := by
  induction r generalizing s with
  | done a =>
    rw [ensures_done]
    exact Iff.rfl
  | ask e next ih =>
    rw [ask_bind, ensures_ask, ensures_ask]
    refine and_congr_right fun _ => ?_
    exact forall_congr' fun answer => forall_congr' fun s' => imp_congr_right fun _ => ih answer

theorem Ensures.mono (h : Ensures M Q s r) (hQ : ∀ a s', Q a s' → Q' a s') : Ensures M Q' s r := by
  induction r generalizing s with
  | done a => exact .done (hQ a s (ensures_done.1 h))
  | ask e next ih =>
    obtain ⟨allowed, rest⟩ := ensures_ask.1 h
    exact .ask allowed fun answer s' ha => ih answer (rest answer s' ha)

/-! ## Attempts -/

/-- What an attempt ensures when it goes on with a value if there is one. -/
theorem ensures_run_bind {x : Attempt α} {f : α → Attempt β}
    {Q : Except ResolveError β → σ → Prop} :
    Ensures M Q s (x >>= f).run ↔
      Ensures M (fun result s' =>
        match result with
        | .ok a => Ensures M Q s' (f a).run
        | .error e => Q (.error e) s') s x.run := by
  rw [ExceptT.run_bind, ensures_bind]
  constructor
  · intro h
    refine h.mono fun result s' hr => ?_
    cases result with
    | ok a => exact hr
    | error e =>
      have hdone : Ensures M Q s' (.done (.error e)) := hr
      show Q (.error e) s'
      exact ensures_done.1 hdone
  · intro h
    refine h.mono fun result s' hr => ?_
    cases result with
    | ok a => exact hr
    | error e =>
      show Ensures M Q s' (.done (.error e))
      exact .done hr

@[simp] theorem ensures_run_pure {a : α} {Q : Except ResolveError α → σ → Prop} :
    Ensures M Q s (pure a : Attempt α).run ↔ Q (.ok a) s := ensures_done

@[simp] theorem ensures_run_throw {e : ResolveError} {Q : Except ResolveError α → σ → Prop} :
    Ensures M Q s (throw e : Attempt α).run ↔ Q (.error e) s := ensures_done

@[simp] theorem ensures_run_lift {x : Routine α} {Q : Except ResolveError α → σ → Prop} :
    Ensures M Q s (liftM x : Attempt α).run ↔ Ensures M (fun a s' => Q (.ok a) s') s x := by
  rw [ExceptT.run_liftM, map_eq_pure_bind, ensures_bind]
  simp only [ensures_pure]

@[simp] theorem ensures_run_map {x : Attempt α} {f : α → β} {Q : Except ResolveError β → σ → Prop} :
    Ensures M Q s (f <$> x).run ↔ Ensures M (fun result s' => Q (result.map f) s') s x.run := by
  rw [ExceptT.run_map, map_eq_pure_bind, ensures_bind]
  simp only [ensures_pure]

/-! ## What is kept -/

/-- From every state in which `I` holds, the routine only asks what it may, and `I` holds again
whenever it ends. -/
def Keeps (M : Surroundings σ) (I : σ → Prop) (r : Routine α) : Prop :=
  ∀ s, I s → r.Ensures M (fun _ s' => I s') s

variable {I : σ → Prop}

theorem keeps_pure (a : α) : Keeps M I (pure a : Routine α) := fun _ hs => .done hs

theorem Keeps.bind {f : α → Routine β} (h : Keeps M I r) (hf : ∀ a, Keeps M I (f a)) :
    Keeps M I (r >>= f) := by
  intro s hs
  rw [ensures_bind]
  exact (h s hs).mono fun a s' hs' => hf a s' hs'

theorem Keeps.map {f : α → β} (h : Keeps M I r) : Keeps M I (f <$> r) := by
  rw [map_eq_pure_bind]
  exact h.bind fun a => keeps_pure (f a)

theorem keeps_run_pure (a : α) : Keeps M I (pure a : Attempt α).run := fun _ hs => .done hs

theorem keeps_run_throw (e : ResolveError) : Keeps M I (throw e : Attempt α).run :=
  fun _ hs => .done hs

theorem Keeps.run_bind {x : Attempt α} {f : α → Attempt β} (h : Keeps M I x.run)
    (hf : ∀ a, Keeps M I (f a).run) : Keeps M I (x >>= f).run := by
  intro s hs
  rw [ensures_run_bind]
  refine (h s hs).mono fun result s' hs' => ?_
  cases result with
  | ok a => exact hf a s' hs'
  | error e => exact hs'

theorem Keeps.run_lift {x : Routine α} (h : Keeps M I x) : Keeps M I (liftM x : Attempt α).run := by
  intro s hs
  rw [ensures_run_lift]
  exact h s hs

theorem Keeps.run_map {x : Attempt α} {f : α → β} (h : Keeps M I x.run) :
    Keeps M I (f <$> x).run := by
  intro s hs
  rw [ensures_run_map]
  exact h s hs

end Routine

end Rendezvous
