import Rendezvous.Proofs.Routine.Surroundings

/-!
# Discipline

A disciplined routine holds at most one lock at a time, gives back what it has taken, tells nobody
anything while it holds a lock, and records only values of keys that it is entitled to.
-/

namespace Rendezvous

/-- Surroundings that keep an eye on the lock that is held and on the keys that are recorded. -/
def discipline (keys : String → Prop) : Surroundings (Option String) where
  allows held
    | .consult (.cacheSet key _ _) => keys key
    | .consult _ => True
    | .run _ => True
    | .acquire _ => held = none
    | .release node => held = some node
    | .propagate _ => held = none
  answers held e _ held' :=
    match e with
    | .acquire node => held' = some node
    | .release _ => held' = none
    | _ => held' = held

/-- Whether a question is none that records a value of a key outside `keys`. -/
def Query.Within (keys : String → Prop) (q : Query) : Prop :=
  ∀ key value lifetime, q = .cacheSet key value lifetime → keys key

namespace Routine

variable {α β : Type} {keys : String → Prop} {held : Option String} {r r' : Routine α}
  {t : List TaskEvent}

/-- The routine is disciplined, and holds at its end the lock that it held before. -/
def Tidy (keys : String → Prop) (held : Option String) (r : Routine α) : Prop :=
  r.Ensures (discipline keys) (fun _ held' => held' = held) held

theorem tidy_iff : Tidy keys held r ↔ Keeps (discipline keys) (· = held) r := by
  constructor
  · rintro h s rfl
    exact h
  · intro h
    exact h held rfl

/-! ## What a disciplined routine has done -/

/-- Wherever it has come to, a disciplined routine is one, and what it has recorded it was entitled
to. -/
theorem Ensures.reaches {Q : α → Option String → Prop} (h : r.Ensures (discipline keys) Q held)
    (ht : r.Reaches t r') :
    (∃ held', r'.Ensures (discipline keys) Q held') ∧
      ∀ q answer, TaskEvent.consulted q answer ∈ t → q.Within keys := by
  induction ht generalizing held with
  | refl r => exact ⟨⟨held, h⟩, by simp⟩
  | @step e next answer t r _ ih =>
    obtain ⟨hallows, hnext⟩ := ensures_ask.1 h
    have hon : ∃ held', (next answer).Ensures (discipline keys) Q held' := by
      cases e with
      | consult q => exact ⟨held, hnext answer held rfl⟩
      | run request => exact ⟨held, hnext answer held rfl⟩
      | acquire node => exact ⟨some node, hnext answer (some node) rfl⟩
      | release node => exact ⟨none, hnext answer none rfl⟩
      | propagate writes => exact ⟨held, hnext answer held rfl⟩
    obtain ⟨held', hheld'⟩ := hon
    obtain ⟨hrest, hkeys⟩ := ih hheld'
    refine ⟨hrest, fun q answer' hmem => ?_⟩
    rcases List.mem_append.1 hmem with hmem | hmem
    · cases e with
      | consult q' =>
        obtain ⟨rfl, -⟩ := TaskEvent.consulted.inj (List.mem_singleton.1 hmem)
        rintro key value lifetime rfl
        exact hallows
      | run request => simp [Effect.events] at hmem
      | acquire node => simp [Effect.events] at hmem
      | release node => simp [Effect.events] at hmem
      | propagate writes => simp [Effect.events] at hmem
    · exact hkeys q answer' hmem

/-- Along a trace that begins with `held`, no lock is taken while another one is held, only what is
held is given back, and in the end nothing is held. -/
def Paired : Option String → List TaskEvent → Prop
  | held, [] => held = none
  | held, .acquired node :: t => held = none ∧ Paired (some node) t
  | held, .released node :: t => held = some node ∧ Paired none t
  | held, _ :: t => Paired held t

/-- A disciplined routine that ends without a lock has given back every lock that it has taken, before
it has taken the next one. -/
theorem Ensures.paired {Q : α → Option String → Prop} (hQ : ∀ a held', Q a held' → held' = none)
    (h : r.Ensures (discipline keys) Q held) {a : α} (ht : r.Ends t a) : Paired held t := by
  unfold Ends at ht
  generalize hend : Routine.done a = last at ht
  induction ht generalizing held with
  | refl r =>
    subst hend
    exact hQ a held (ensures_done.1 h)
  | @step e next answer t r _ ih =>
    obtain ⟨hallows, hnext⟩ := ensures_ask.1 h
    cases e with
    | consult q => exact ih (hnext answer held rfl) hend
    | run request => exact ih (hnext answer held rfl) hend
    | acquire node => exact ⟨hallows, ih (hnext answer (some node) rfl) hend⟩
    | release node => exact ⟨hallows, ih (hnext answer none rfl) hend⟩
    | propagate writes => exact ih (hnext answer held rfl) hend

end Routine

end Rendezvous
