import Rendezvous.Engine.Ending
import Rendezvous.Proofs.Routine.Traces
import Rendezvous.Resolve.Memory

/-!
# Routines and caches that fail

A routine does not care whether the cache fails if it goes on after a failure just as it would after
a blank answer: no record, a record taken, no records at all. The one thing that it may do after the
blank answer only is to tell nobody anything. Such a routine comes to the same end, has the same
commands run and leaves the same behind, whichever calls of the cache fail.
-/

namespace Rendezvous

namespace Query

/-- What a cache that fails answers, if it is asked. -/
def failure (e : CacheError) : (q : Query) → Option q.Answer
  | .cacheGet _ => some (.error e)
  | .cacheSet .. => some (.error e)
  | .cacheList => some (.error e)
  | _ => none

/-- What a cache that has nothing and keeps nothing answers in the place of a failure, if it is
asked. -/
def blank (_ : CacheError) : (q : Query) → Option q.Answer
  | .cacheGet _ => some (.ok none)
  | .cacheSet .. => some (.ok ())
  | .cacheList => some (.ok [])
  | _ => none

/-- A question is for the cache or it is not, whatever the failure. -/
theorem failure_blank_cases (e : CacheError) (q : Query) :
    (q.failure e = none ∧ q.blank e = none) ∨
      ∃ a b, q.failure e = some a ∧ q.blank e = some b := by
  cases q with
  | cacheGet _ => exact .inr ⟨_, _, rfl, rfl⟩
  | cacheSet _ _ _ => exact .inr ⟨_, _, rfl, rfl⟩
  | cacheList => exact .inr ⟨_, _, rfl, rfl⟩
  | _ => exact .inl ⟨rfl, rfl⟩

end Query

namespace Routine

variable {α β : Type} {P : α → Prop} {P' : β → Prop} {r : Routine α}

/-! ## Indifference -/

/-- What comes after a failure is what comes after a blank answer, where telling nobody anything may
come before it. -/
def Alike (afterFailure afterBlank : Routine α) : Prop :=
  afterBlank = afterFailure ∨ afterBlank = .ask (.propagate []) fun _ => afterFailure

theorem Alike.bind {r r' : Routine α} (h : Alike r r') (f : α → Routine β) :
    Alike (r >>= f) (r' >>= f) := by
  rcases h with rfl | rfl
  · exact .inl rfl
  · exact .inr rfl

/-- A routine does not care whether the cache fails, and `P` holds of what it ends with. -/
inductive Indifferent (P : α → Prop) : Routine α → Prop where
  | done {a : α} (h : P a) : Indifferent P (.done a)
  | consult {q : Query} {next : q.Answer → Routine α}
      (alike : ∀ e a b, q.failure e = some a → q.blank e = some b → Alike (next a) (next b))
      (rest : ∀ answer, Indifferent P (next answer)) :
      Indifferent P (.ask (.consult q) next)
  | other {e : Effect} {next : e.Answer → Routine α} (he : ∀ q, e ≠ .consult q)
      (rest : ∀ answer, Indifferent P (next answer)) : Indifferent P (.ask e next)

theorem indifferent_pure {a : α} (h : P a) : Indifferent P (pure a : Routine α) := .done h

theorem Indifferent.bind {f : α → Routine β} (h : Indifferent P r)
    (hf : ∀ a, P a → Indifferent P' (f a)) : Indifferent P' (r >>= f) := by
  induction h with
  | done h => exact hf _ h
  | consult alike _ ih =>
    exact .consult (fun e a b ha hb => (alike e a b ha hb).bind f) ih
  | other he _ ih => exact .other he ih

/-- A question that is not for the cache. -/
theorem indifferent_consult {q : Query} (hq : ∀ e, q.failure e = none) :
    Indifferent (fun _ => True) (Routine.consult q) := by
  refine .consult (fun e a b ha _ => ?_) fun _ => .done trivial
  exact absurd ((hq e).symm.trans ha) (by simp)

/-- A question for the cache whose failure is taken as a blank answer at once. -/
theorem indifferent_consult_bind {q : Query} {f : q.Answer → Routine β}
    (alike : ∀ e a b, q.failure e = some a → q.blank e = some b → Alike (f a) (f b))
    (hf : ∀ answer, Indifferent P' (f answer)) : Indifferent P' (Routine.consult q >>= f) :=
  .consult alike hf

theorem indifferent_perform {e : Effect} (he : ∀ q, e ≠ .consult q) :
    Indifferent (fun _ => True) (perform e) :=
  .other he fun _ => .done trivial

/-- What holds of the ends of an indifferent routine. -/
theorem Indifferent.of_ends (h : Indifferent P r) {t : List TaskEvent} {a : α} (hends : Ends r t a) :
    P a := by
  induction h generalizing t with
  | done h =>
    obtain ⟨-, rfl⟩ := ends_done.1 hends
    exact h
  | consult _ _ ih =>
    obtain ⟨answer, t', -, hrest⟩ := ends_ask.1 hends
    exact ih answer hrest
  | other _ _ ih =>
    obtain ⟨answer, t', -, hrest⟩ := ends_ask.1 hends
    exact ih answer hrest

end Routine

/-! ## Playing a routine -/

/-- What is outside the controller: a clock, nodes that answer commands, each time as it has come to
be by then, and nodes to which the writes of a propagation are spread. Where there is nothing to
write, nothing happens. -/
structure Outside (σ : Type) where
  /-- The clock. -/
  now : σ → Instant
  /-- The answer to a command. -/
  answer : σ → Request → Except ExecError String × σ
  /-- What comes of the writes of a propagation. -/
  spread : σ → List TrustWrite → PropagationReport × σ
  /-- Nothing comes of no writes. -/
  spread_nil : ∀ s, (spread s []).2 = s

/-- Nodes that always answer the same, and keep all writes that are spread to them. -/
def Outside.steady (answer : Request → Except ExecError String) : Outside (List TrustWrite) where
  now _ := 0
  answer kept request := (answer request, kept)
  spread kept writes :=
    ({ attempted := writes.length, succeeded := writes.length }, kept ++ writes)
  spread_nil kept := List.append_nil kept

/-- The controller and what is outside of it. -/
structure ControllerState (σ : Type) where
  /-- The memory of the controller. -/
  memory : Memory
  /-- What is outside. -/
  outside : σ
  /-- How many questions the cache has been asked. -/
  asked : Nat := 0
  /-- The commands that have been run, those of one propagation in the order of its writes. -/
  requests : List Request := []

/-- The commands that an event stands for. -/
def TaskEvent.requests : TaskEvent → List Request
  | .called request => [request]
  | .told writes => writes.map (·.request)
  | _ => []

namespace ControllerState

variable {σ α : Type}

/-- The memory answers a question. The cache fails at the questions that `fault` names by their
number, and then answers what `amiss` says and changes nothing. -/
def consult? (w : Outside σ) (fault : Nat → Option CacheError)
    (amiss : CacheError → (q : Query) → Option q.Answer) (s : ControllerState σ) (q : Query) :
    Option (q.Answer × ControllerState σ) :=
  let asked := if (q.failure cacheDown).isSome then s.asked + 1 else s.asked
  match (fault s.asked).bind fun e => amiss e q with
  | some answer => some (answer, { s with asked })
  | none =>
    (s.memory.consult (w.now s.outside) q).map fun x => (x.1, { s with memory := x.2, asked })

/-- Play a routine to its end, with nobody else around. -/
def play (w : Outside σ) (fault : Nat → Option CacheError)
    (amiss : CacheError → (q : Query) → Option q.Answer) :
    Routine α → ControllerState σ → Ending α × ControllerState σ
  | .done a, s => (.value a, s)
  | .ask (.consult q) next, s =>
    match s.consult? w fault amiss q with
    | some (answer, s') => play w fault amiss (next answer) s'
    | none => (.crashed, s)
  | .ask (.run request) next, s =>
    let answered := w.answer s.outside request
    play w fault amiss (next answered.1)
      { s with outside := answered.2, requests := s.requests ++ [request] }
  | .ask (.acquire _) next, s => play w fault amiss (next ()) s
  | .ask (.release _) next, s => play w fault amiss (next ()) s
  | .ask (.propagate writes) next, s =>
    let told := w.spread s.outside writes
    play w fault amiss (next told.1)
      { s with outside := told.2, requests := s.requests ++ writes.map (·.request) }

variable {w : Outside σ} {fault : Nat → Option CacheError} {P : α → Prop} {r : Routine α}

/-- The memory gives the same answer, or a failure on the one side and a blank answer on the other,
and is the same afterwards. -/
theorem consult?_cases (w : Outside σ) (fault : Nat → Option CacheError) (s : ControllerState σ)
    (q : Query) :
    s.consult? w fault Query.failure q = s.consult? w fault Query.blank q ∨
      ∃ e a b s', q.failure e = some a ∧ q.blank e = some b ∧
        s.consult? w fault Query.failure q = some (a, s') ∧
        s.consult? w fault Query.blank q = some (b, s') := by
  unfold consult?
  cases fault s.asked with
  | none => exact .inl rfl
  | some e =>
    rcases q.failure_blank_cases e with ⟨hfailure, hblank⟩ | ⟨a, b, hfailure, hblank⟩
    · left
      rw [Option.bind_some, Option.bind_some, hfailure, hblank]
    · right
      rw [Option.bind_some, Option.bind_some, hfailure, hblank]
      exact ⟨e, a, b, _, hfailure, hblank, rfl, rfl⟩

/-- A question to the memory runs no command. -/
theorem requests_consult? {amiss : CacheError → (q : Query) → Option q.Answer}
    {s s' : ControllerState σ} {q : Query} {answer : q.Answer} (h : s.consult? w fault amiss q = some (answer, s')) :
    s'.requests = s.requests := by
  unfold consult? at h
  dsimp only at h
  split at h
  · rw [← (Prod.mk.inj (Option.some.inj h)).2]
  · obtain ⟨x, -, hx⟩ := Option.map_eq_some_iff.1 h
    rw [← (Prod.mk.inj hx).2]

/-- What is played is something that the routine goes through, with the commands of its events. -/
theorem ends_of_play {amiss : CacheError → (q : Query) → Option q.Answer}
    {s s' : ControllerState σ} {a : α} (h : play w fault amiss r s = (.value a, s')) :
    ∃ t, r.Ends t a ∧ s'.requests = s.requests ++ t.flatMap TaskEvent.requests := by
  -- One event more in front of what is played afterwards.
  have hstep : ∀ {e : Effect} {next : e.Answer → Routine α} (answer : e.Answer)
      {requests : List Request}, (∃ t, (next answer).Ends t a ∧ s'.requests =
        (requests ++ (e.events answer).flatMap TaskEvent.requests) ++ t.flatMap TaskEvent.requests) →
      ∃ t, (Routine.ask e next).Ends t a ∧
        s'.requests = requests ++ t.flatMap TaskEvent.requests := by
    rintro e next answer requests ⟨t, ht, hrequests⟩
    refine ⟨e.events answer ++ t, Routine.ends_ask.2 ⟨answer, t, rfl, ht⟩, ?_⟩
    rw [hrequests, List.flatMap_append, List.append_assoc]
  induction r generalizing s with
  | done b =>
    obtain ⟨hb, rfl⟩ := Prod.mk.inj h
    obtain rfl := Ending.value.inj hb
    exact ⟨[], .refl _, (List.append_nil _).symm⟩
  | ask e next ih =>
    cases e with
    | consult q =>
      rw [play] at h
      cases hconsult : s.consult? w fault amiss q with
      | none =>
        rw [hconsult] at h
        exact absurd (Prod.mk.inj h).1 (by simp)
      | some x =>
        obtain ⟨answer, s₁⟩ := x
        rw [hconsult] at h
        have hsame := requests_consult? hconsult
        have hrest := ih answer h
        rw [hsame] at hrest
        refine hstep answer ?_
        simpa [Effect.events, TaskEvent.requests] using hrest
    | run request =>
      rw [play] at h
      refine hstep (w.answer s.outside request).1 ?_
      simpa [Effect.events, TaskEvent.requests] using ih _ h
    | acquire node =>
      rw [play] at h
      refine hstep () ?_
      simpa [Effect.events, TaskEvent.requests] using ih () h
    | release node =>
      rw [play] at h
      refine hstep () ?_
      simpa [Effect.events, TaskEvent.requests] using ih () h
    | propagate writes =>
      rw [play] at h
      refine hstep (w.spread s.outside writes).1 ?_
      simpa [Effect.events, TaskEvent.requests] using ih _ h

/-- Telling nobody anything changes nothing. -/
theorem play_propagate_nil (amiss : CacheError → (q : Query) → Option q.Answer)
    (s : ControllerState σ) :
    play w fault amiss (.ask (.propagate []) fun _ => r) s = play w fault amiss r s := by
  rw [play, w.spread_nil, List.map_nil, List.append_nil]

/-- An indifferent routine plays the same whether the cache fails or answers blanks. -/
theorem play_eq_of_indifferent (h : r.Indifferent P) (s : ControllerState σ) :
    play w fault Query.failure r s = play w fault Query.blank r s := by
  induction h generalizing s with
  | done _ => rfl
  | @consult q next alike _ ih =>
    rw [play, play]
    rcases consult?_cases w fault s q with
      hsame | ⟨e, a, b, s', hfailure, hblank, ha, hb⟩
    · rw [hsame]
      cases s.consult? w fault Query.blank q with
      | none => rfl
      | some x => exact ih x.1 x.2
    · rw [ha, hb]
      dsimp only
      rw [ih a s']
      rcases alike e a b hfailure hblank with hnext | hnext
      · rw [hnext]
      · rw [hnext, play_propagate_nil]
  | @other e next he _ ih =>
    cases e with
    | consult q => exact absurd rfl (he q)
    | run request =>
      rw [play, play]
      exact ih _ _
    | acquire node =>
      rw [play, play]
      exact ih _ _
    | release node =>
      rw [play, play]
      exact ih _ _
    | propagate writes =>
      rw [play, play]
      exact ih _ _

end ControllerState

end Rendezvous
