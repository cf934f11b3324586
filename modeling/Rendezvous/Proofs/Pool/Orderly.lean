import Mathlib.Logic.Function.Basic
import Rendezvous.Proofs.Pool.Tasks
import Rendezvous.Proofs.Resolve.Custody

/-!
# Orderly pools

In a pool whose tasks mind the custody of identifiers, the table of locks says who has which lock, a
task that asks for a lock has none, and a task that seeks an identifier is alone in seeking it, for no
identifier is noted. This holds whatever happens to the pool. As long as nothing is forgotten and tasks
are cut off only where they wait, an identifier that was told stays noted, or is about to be.
-/

namespace Rendezvous

namespace Routine

variable {α : Type}

/-- From where the task stands, the routine minds the custody of identifiers and ends without a
lock. -/
def Minded (stance : Stance) (r : Routine α) : Prop :=
  r.Ensures custody (fun _ s => s = .free) stance

theorem minded_done {stance : Stance} {a : α} :
    Minded stance (.done a) ↔ stance = .free := ensures_done

theorem minded_ask {stance : Stance} {e : Effect} {next : e.Answer → Routine α} :
    Minded stance (.ask e next) ↔
      stance.Allows e ∧ ∀ answer, Minded (stance.after e answer) (next answer) := by
  unfold Minded
  rw [ensures_ask]
  refine and_congr_right fun _ => forall_congr' fun answer => ?_
  constructor
  · intro h
    exact h _ rfl
  · rintro h s' rfl
    exact h

end Routine

namespace Stance

theorem ne_told_of_allows_run {s : Stance} {request : Request} (h : s.Allows (.run request))
    (node id : String) : s ≠ .told node id := by
  rintro rfl
  exact absurd (show Effect.run request = .consult (.noteId node id) from h) (by simp)

theorem eq_seeking_of_allows {s : Stance} {request : Request} (h : s.Allows (.run request))
    (hcommand : request.command = .peerInfo) : s = .seeking request.node := by
  cases s with
  | told node id => exact absurd rfl (ne_told_of_allows_run h node id)
  | _ => exact h hcommand

theorem eq_free_of_allows_acquire {s : Stance} {node : String} (h : s.Allows (.acquire node)) :
    s = .free := by
  cases s with
  | told node id => exact absurd (show Effect.acquire _ = .consult (.noteId node id) from h) (by simp)
  | _ => exact h

theorem eq_free_of_allows_propagate {s : Stance} {writes : List TrustWrite}
    (h : s.Allows (.propagate writes)) : s = .free := by
  cases s with
  | told node id =>
    exact absurd (show Effect.propagate writes = .consult (.noteId node id) from h) (by simp)
  | _ => exact h

theorem node?_of_allows_release {s : Stance} {node : String} (h : s.Allows (.release node)) :
    s.node? = some node := by
  cases s with
  | told node id => exact absurd (show Effect.release _ = .consult (.noteId node id) from h) (by simp)
  | _ => exact h

theorem node?_of_allows_recall {s : Stance} {node : String} (h : s.Allows (.consult (.recallId node))) :
    s.node? = some node ∧ ∀ node' id, s ≠ .told node' id := by
  cases s with
  | told node' id =>
    exact absurd (show Effect.consult (.recallId node) = .consult (.noteId node' id) from h) (by simp)
  | _ => exact ⟨h, by simp⟩

theorem eq_told_of_allows_note {s : Stance} {node id : String}
    (h : s.Allows (.consult (.noteId node id))) : s = .told node id := by
  cases s with
  | told node' id' =>
    have heq : Effect.consult (.noteId node id) = .consult (.noteId node' id') := h
    simp only [Effect.consult.injEq, Query.noteId.injEq] at heq
    rw [heq.1, heq.2]
  | _ => exact absurd h (by simp [Allows])

end Stance

namespace Activity

variable {α : Type}

/-- What a task is at goes with where it stands. -/
def Minds (stance : Stance) : Activity α → Prop
  | .ready r => r.Minded stance
  | .calling request next => (Routine.ask (.run request) next).Minded stance
  | .propagating _ next => stance = .free ∧ ∀ report, (next report).Minded .free
  | .ended _ => stance = .free

/-- Whether a task is at a place where it may have to wait for something outside: a command, a lock, a
propagation or the cache. -/
def Waits : Activity α → Prop
  | .ready (.ask (.consult q) _) =>
    match q with
    | .cacheGet _ => True
    | .cacheSet .. => True
    | .cacheList => True
    | _ => False
  | .ready (.ask (.release _) _) => False
  | .ready (.ask _ _) => True
  | .ready (.done _) => False
  | .calling .. => True
  | .propagating .. => True
  | .ended _ => False

/-- A task that was told an identifier does not wait. -/
theorem ne_told_of_waits {a : Activity α} {stance : Stance} (h : a.Minds stance) (hwaits : a.Waits)
    (node id : String) : stance ≠ .told node id := by
  rintro rfl
  cases a with
  | ready r =>
    cases r with
    | done value => exact hwaits
    | ask e next =>
      obtain rfl : e = .consult (.noteId node id) := (Routine.minded_ask.1 h).1
      exact hwaits
  | calling request next => exact Stance.ne_told_of_allows_run (Routine.minded_ask.1 h).1 node id rfl
  | propagating run next => exact absurd h.1 (by simp)
  | ended ending => exact hwaits

end Activity

namespace Memory

variable {m m' : Memory} {now : Instant} {q : Query} {answer : q.Answer}

/-- Recording a value changes nothing that is noted. -/
theorem consult_set_memos {key value : String} {lifetime : Duration}
    {answer : (Query.cacheSet key value lifetime).Answer}
    (h : m.consult now (.cacheSet key value lifetime) = some (answer, m')) : m'.memos = m.memos := by
  simp only [consult] at h
  split at h
  · simp only [Option.some.injEq, Prod.mk.injEq] at h
    rw [← h.2]
  · simp only [Option.map_eq_some_iff, Prod.mk.injEq] at h
    obtain ⟨cache, -, -, rfl⟩ := h
    rfl

/-- Only noting an identifier changes the identifiers that are noted. -/
theorem consult_ids (h : m.consult now q = some (answer, m')) :
    m'.memos.ids = m.memos.ids ∨
      ∃ node id, q = .noteId node id ∧ m'.memos.ids = m.memos.ids.put node id := by
  cases q with
  | noteId node id =>
    simp only [consult, Option.some.injEq, Prod.mk.injEq] at h
    exact Or.inr ⟨node, id, rfl, by rw [← h.2]⟩
  | cacheSet key value lifetime => exact Or.inl (by rw [consult_set_memos h])
  | _ =>
    simp only [consult, Option.some.injEq, Prod.mk.injEq] at h
    exact Or.inl (by rw [← h.2])

end Memory

namespace Pool

variable {α : Type} {w : World} {p p' : Pool α} {g g' : Nat → Stance}
  {shown log : List (Nat × TaskEvent)} {i : Nat}

/-- The identifier that is noted for a node. -/
def noted? (p : Pool α) (node : String) : Option String := p.memory.memos.ids.get? node

/-- The pool is in order, its tasks standing at `g`. -/
structure Orderly (p : Pool α) (g : Nat → Stance) : Prop where
  /-- Tasks mind the custody of identifiers. -/
  minds : ∀ {i} {a : Activity α}, p.tasks[i]? = some a → a.Minds (g i)
  /-- A task that does not exist has no lock. -/
  absent : ∀ {i}, p.tasks[i]? = none → g i = .free
  /-- No lock has two entries. -/
  distinct : p.locks.Distinct
  /-- A lock is with the task that the table says. -/
  locks : ∀ {node i}, p.locks.get? node = some i ↔ (g i).node? = some node
  /-- No identifier is noted for a node whose identifier is sought. -/
  seeks : ∀ {i node}, g i = .seeking node → p.noted? node = none

/-- A step takes the pool from order to order, and keeps track of identifiers. -/
structure Shift (p : Pool α) (g : Nat → Stance) (shown : List (Nat × TaskEvent)) (p' : Pool α)
    (g' : Nat → Stance) : Prop where
  /-- The pool is in order. -/
  orderly : Orderly p' g'
  /-- What was noted stays noted. -/
  noted : ∀ {node}, (p.noted? node).isSome → (p'.noted? node).isSome
  /-- What was told is noted next. -/
  told : ∀ {i node id}, g i = .told node id → g' i = .told node id ∨ (p'.noted? node).isSome
  /-- A task that is answered with an identifier was told it. -/
  answered : ∀ {i request answer id}, (i, .answered request answer) ∈ shown →
    toldId? request answer = some id → g' i = .told request.node id
  /-- A task that asks for an identifier was seeking it. -/
  called : ∀ {i request}, (i, .called request) ∈ shown → request.command = .peerInfo →
    g i = .seeking request.node

theorem Orderly.eq_of_node? (h : Orderly p g) {i j : Nat} {node : String}
    (hi : (g i).node? = some node) (hj : (g j).node? = some node) : i = j := by
  have hlock := h.locks.2 hi
  rw [h.locks.2 hj] at hlock
  exact (Option.some.inj hlock).symm

/-- One task goes on to something that goes with where it stands then. -/
theorem Orderly.step (h : Orderly p g) {a' : Activity α} {stance : Stance}
    (htasks : ∀ j, p'.tasks[j]? = if i = j then some a' else p.tasks[j]?)
    (hminds : a'.Minds stance) (hdistinct : p'.locks.Distinct)
    (hlocks : ∀ {node j}, p'.locks.get? node = some j ↔
      (Function.update g i stance j).node? = some node)
    (hseeks : ∀ {j node}, Function.update g i stance j = .seeking node → p'.noted? node = none) :
    Orderly p' (Function.update g i stance) := by
  refine ⟨?_, ?_, hdistinct, hlocks, hseeks⟩
  · intro j b hb
    rw [htasks] at hb
    by_cases hij : i = j
    · subst hij
      rw [if_pos rfl, Option.some.injEq] at hb
      subst hb
      rwa [Function.update_self]
    · rw [if_neg hij] at hb
      rw [Function.update_of_ne (Ne.symm hij)]
      exact h.minds hb
  · intro j hnone
    rw [htasks] at hnone
    by_cases hij : i = j
    · rw [if_pos hij] at hnone
      exact absurd hnone (by simp)
    · rw [if_neg hij] at hnone
      rw [Function.update_of_ne (Ne.symm hij)]
      exact h.absent hnone

/-- A task goes on and has the lock that it had before. -/
theorem Orderly.go_on (h : Orderly p g) {a' : Activity α} {stance : Stance}
    (htasks : ∀ j, p'.tasks[j]? = if i = j then some a' else p.tasks[j]?)
    (hminds : a'.Minds stance) (hlocks : p'.locks = p.locks)
    (hnode : stance.node? = (g i).node?)
    (hseeks : ∀ {j node}, Function.update g i stance j = .seeking node → p'.noted? node = none) :
    Orderly p' (Function.update g i stance) := by
  refine h.step htasks hminds (by rw [hlocks]; exact h.distinct) ?_ hseeks
  intro node j
  rw [hlocks, h.locks]
  by_cases hij : i = j
  · subst hij
    rw [Function.update_self, hnode]
  · rw [Function.update_of_ne (Ne.symm hij)]

/-- A task that goes on without noting an identifier. -/
theorem Shift.of_orderly {stance : Stance} (h : Orderly p' (Function.update g i stance))
    (hids : p'.memory.memos.ids = p.memory.memos.ids)
    (htold : ∀ node id, g i = .told node id → stance = .told node id)
    (hanswered : ∀ {j request answer id}, (j, .answered request answer) ∈ shown →
      toldId? request answer = some id → Function.update g i stance j = .told request.node id)
    (hcalled : ∀ {j request}, (j, .called request) ∈ shown → request.command = .peerInfo →
      g j = .seeking request.node) :
    Shift p g shown p' (Function.update g i stance) := by
  refine ⟨h, ?_, ?_, hanswered, hcalled⟩
  · intro node hsome
    rwa [noted?, hids]
  · intro j node id hj
    by_cases hij : i = j
    · subst hij
      rw [Function.update_self]
      exact Or.inl (htold node id hj)
    · rw [Function.update_of_ne (Ne.symm hij)]
      exact Or.inl hj

theorem Orderly.seeks_update (h : Orderly p g) {stance : Stance}
    (hids : p'.memory.memos.ids = p.memory.memos.ids)
    (hstance : ∀ node, stance = .seeking node → p.noted? node = none) {j : Nat} {node : String}
    (hj : Function.update g i stance j = .seeking node) : p'.noted? node = none := by
  rw [noted?, hids]
  by_cases hij : i = j
  · subst hij
    rw [Function.update_self] at hj
    exact hstance node hj
  · rw [Function.update_of_ne (Ne.symm hij)] at hj
    exact h.seeks hj

/-- A task goes on and stands where it stood. -/
theorem Orderly.stay (h : Orderly p g) {a' : Activity α}
    (htasks : ∀ j, p'.tasks[j]? = if i = j then some a' else p.tasks[j]?)
    (hminds : a'.Minds (g i)) (hlocks : p'.locks = p.locks)
    (hids : p'.memory.memos.ids = p.memory.memos.ids)
    (hanswered : ∀ j request answer, (j, .answered request answer) ∉ shown)
    (hcalled : ∀ {j request}, (j, .called request) ∈ shown → request.command = .peerInfo →
      g j = .seeking request.node) : ∃ g', Shift p g shown p' g' := by
  refine ⟨Function.update g i (g i), .of_orderly ?_ hids (fun _ _ h => h) ?_ hcalled⟩
  · exact h.go_on htasks hminds hlocks rfl (h.seeks_update hids fun node hseeks => h.seeks hseeks)
  · intro j request answer id hmem
    exact absurd hmem (hanswered j request answer)

section Consult

variable {now : Instant} {memory : Memory}

/-- A task asks whether an identifier is noted. -/
theorem Orderly.recall (ho : Orderly p g) {node : String} {next : Option String → Routine α}
    {answer : Option String} (ht : p.tasks[i]? = some (.ready (.ask (.consult (.recallId node)) next)))
    (hm : p.memory.consult now (.recallId node) = some (answer, memory)) :
    ∃ g', Shift p g [(i, .consulted (.recallId node) answer)]
      ({ p with memory }.set i (.ready (next answer))) g' := by
  obtain ⟨hallows, hnext⟩ := Routine.minded_ask.1 (ho.minds ht)
  obtain ⟨hnode, hno⟩ := Stance.node?_of_allows_recall hallows
  obtain ⟨rfl, rfl⟩ := Prod.mk.inj (Option.some.inj hm)
  have htasks := p.set_tasks ht (.ready (next (p.noted? node)))
  have hstance : ∀ known, ((g i).after (.consult (.recallId node)) known).node? = (g i).node? ∧
      ∀ node', (g i).after (.consult (.recallId node)) known = .seeking node' →
        p.noted? node' = none ∨ known = none ∧ node' = node := by
    intro known
    cases known with
    | some id => exact ⟨rfl, fun node' h => Or.inl (ho.seeks h)⟩
    | none => exact ⟨hnode.symm, fun node' h => Or.inr ⟨rfl, (Stance.seeking.inj h).symm⟩⟩
  obtain ⟨hsame, hseeking⟩ := hstance (p.noted? node)
  refine ⟨_, .of_orderly (ho.go_on htasks (hnext _) rfl hsame ?_) rfl ?_ (by simp) (by simp)⟩
  · refine ho.seeks_update rfl fun node' h => ?_
    rcases hseeking node' h with hnone | ⟨hnone, rfl⟩
    · exact hnone
    · exact hnone
  · intro node' id h
    exact absurd h (hno node' id)

/-- A task notes an identifier that it was told. No other task seeks it, for none has the lock. -/
theorem Orderly.note (ho : Orderly p g) {node id : String} {next : Unit → Routine α} {answer : Unit}
    (ht : p.tasks[i]? = some (.ready (.ask (.consult (.noteId node id)) next)))
    (hm : p.memory.consult now (.noteId node id) = some (answer, memory)) :
    ∃ g', Shift p g [(i, .consulted (.noteId node id) answer)]
      ({ p with memory }.set i (.ready (next answer))) g' := by
  obtain ⟨hallows, hnext⟩ := Routine.minded_ask.1 (ho.minds ht)
  have htold := Stance.eq_told_of_allows_note hallows
  obtain ⟨-, rfl⟩ := Prod.mk.inj (Option.some.inj hm)
  have hnoted : ∀ other, Pool.noted? ({ p with
      memory := { p.memory with
        memos := { p.memory.memos with ids := p.memory.memos.ids.put node id } } }.set i
          (.ready (next answer))) other = if other = node then some id else p.noted? other :=
    fun other => Table.get?_put ..
  refine ⟨Function.update g i (.holding node), ?_, ?_, ?_, by simp, by simp⟩
  · refine ho.go_on (set_tasks { p with memory := _ } ht _) (hnext answer) rfl (by rw [htold]; rfl) ?_
    intro j other hj
    have hij : i ≠ j := by
      rintro rfl
      rw [Function.update_self] at hj
      exact absurd hj (by simp)
    rw [Function.update_of_ne (Ne.symm hij)] at hj
    have hother : other ≠ node := by
      rintro rfl
      have hi' : (g i).node? = some other := by
        rw [htold]
        rfl
      have hj' : (g j).node? = some other := by
        rw [hj]
        rfl
      exact hij (ho.eq_of_node? hi' hj')
    rw [hnoted, if_neg hother]
    exact ho.seeks hj
  · intro other hsome
    rw [hnoted]
    split
    · rfl
    · exact hsome
  · intro j other id' hj
    by_cases hij : i = j
    · subst hij
      rw [htold] at hj
      obtain ⟨rfl, rfl⟩ := Stance.told.inj hj
      exact Or.inr (by rw [hnoted, if_pos rfl]; rfl)
    · rw [Function.update_of_ne (Ne.symm hij)]
      exact Or.inl hj

/-- A task asks for something that has nothing to do with identifiers. -/
theorem Orderly.consult_other (ho : Orderly p g) {q : Query} {next : q.Answer → Routine α}
    {answer : q.Answer} (ht : p.tasks[i]? = some (.ready (.ask (.consult q) next)))
    (hids : memory.memos.ids = p.memory.memos.ids)
    (hstays : (g i).after (.consult q) answer = g i) :
    ∃ g', Shift p g [(i, .consulted q answer)] ({ p with memory }.set i (.ready (next answer)))
      g' := by
  obtain ⟨-, hnext⟩ := Routine.minded_ask.1 (ho.minds ht)
  have hminded := hnext answer
  rw [hstays] at hminded
  exact ho.stay (set_tasks { p with memory } ht _) hminded rfl hids (by simp) (by simp)

theorem Orderly.consult (ho : Orderly p g) {q : Query} {next : q.Answer → Routine α}
    {answer : q.Answer} (ht : p.tasks[i]? = some (.ready (.ask (.consult q) next)))
    (hm : p.memory.consult now q = some (answer, memory)) :
    ∃ g', Shift p g [(i, .consulted q answer)] ({ p with memory }.set i (.ready (next answer)))
      g' := by
  have hids := Memory.consult_ids hm
  cases q with
  | recallId node => exact ho.recall ht hm
  | noteId node id => exact ho.note ht hm
  | _ => exact ho.consult_other ht (hids.resolve_right (by simp)) rfl

end Consult

/-- A command of a task is answered. An identifier can only come to a task that was seeking it. -/
theorem Orderly.answer (ho : Orderly p g) {request : Request}
    {next : Except ExecError String → Routine α} (answer : Except ExecError String)
    (ht : p.tasks[i]? = some (.calling request next)) :
    ∃ g', Shift p g [(i, .answered request answer)] (p.set i (.ready (next answer))) g' := by
  obtain ⟨hallows, hnext⟩ := Routine.minded_ask.1 (ho.minds ht)
  have hminded := hnext answer
  rw [Stance.after_run] at hminded
  have hstance : ((toldId? request answer).elim (g i) (.told request.node)).node? = (g i).node? ∧
      ∀ node, (toldId? request answer).elim (g i) (.told request.node) = .seeking node →
        p.noted? node = none := by
    cases htold : toldId? request answer with
    | none => exact ⟨rfl, fun node h => ho.seeks h⟩
    | some id =>
      rw [Stance.eq_seeking_of_allows hallows (toldId?_eq_some.1 htold).1]
      exact ⟨rfl, fun node h => absurd h (by simp)⟩
  refine ⟨_, .of_orderly (ho.go_on (p.set_tasks ht _) hminded rfl hstance.1 ?_) rfl ?_ ?_ (by simp)⟩
  · exact ho.seeks_update rfl hstance.2
  · intro node id h
    exact absurd h (Stance.ne_told_of_allows_run hallows node id)
  · intro j request' answer' id hmem htold
    simp only [List.mem_singleton, Prod.mk.injEq, TaskEvent.answered.injEq] at hmem
    obtain ⟨rfl, rfl, rfl⟩ := hmem
    rw [Function.update_self, htold]
    rfl

/-- A task takes a lock that is free. -/
theorem Orderly.acquire (ho : Orderly p g) {node : String} {next : Unit → Routine α}
    (ht : p.tasks[i]? = some (.ready (.ask (.acquire node) next)))
    (hfree : p.locks.contains node = false) :
    ∃ g', Shift p g [(i, .acquired node)]
      ({ p with locks := p.locks.put node i }.set i (.ready (next ()))) g' := by
  obtain ⟨hallows, hnext⟩ := Routine.minded_ask.1 (ho.minds ht)
  have hi := Stance.eq_free_of_allows_acquire hallows
  have hnone : p.locks.get? node = none := by simpa [Table.contains] using hfree
  refine ⟨Function.update g i (.holding node), .of_orderly ?_ rfl ?_ (by simp) (by simp)⟩
  · refine ho.step (set_tasks { p with locks := _ } ht _) (hnext ()) (ho.distinct.put node i) ?_ ?_
    · intro other j
      show (p.locks.put node i).get? other = some j ↔ _
      rw [Table.get?_put]
      by_cases hij : i = j
      · subst hij
        rw [Function.update_self]
        by_cases hother : other = node
        · simp [hother, Stance.node?]
        · have hno : p.locks.get? other ≠ some i := by
            rw [Ne, ho.locks, hi]
            simp [Stance.node?]
          simp [hother, hno, Stance.node?, Ne.symm hother]
      · rw [Function.update_of_ne (Ne.symm hij), ← ho.locks]
        by_cases hother : other = node
        · simp [hother, hnone, hij]
        · rw [if_neg hother]
    · exact ho.seeks_update rfl fun other h => absurd h (by simp)
  · intro other id h
    rw [hi] at h
    exact absurd h (by simp)

/-- A task is left without its locks. -/
theorem Orderly.leave (ho : Orderly p g) {a' : Activity α}
    (htasks : ∀ j, p'.tasks[j]? = if i = j then some a' else p.tasks[j]?) (hminds : a'.Minds .free)
    (hids : p'.memory.memos.ids = p.memory.memos.ids) (hdistinct : p'.locks.Distinct)
    (hlocks : ∀ node j, p'.locks.get? node = some j ↔ p.locks.get? node = some j ∧ j ≠ i) :
    Orderly p' (Function.update g i .free) := by
  refine ho.step htasks hminds hdistinct ?_ ?_
  · intro node j
    rw [hlocks, ho.locks]
    by_cases hij : i = j
    · subst hij
      simp [Stance.node?]
    · rw [Function.update_of_ne (Ne.symm hij)]
      simp [Ne.symm hij]
  · exact ho.seeks_update hids fun node h => absurd h (by simp)

/-- A task gives back the lock that it has. -/
theorem Orderly.release (ho : Orderly p g) {node : String} {next : Unit → Routine α}
    (ht : p.tasks[i]? = some (.ready (.ask (.release node) next))) :
    ∃ g', Shift p g [(i, .released node)]
      ({ p with locks := p.locks.erase node }.set i (.ready (next ()))) g' := by
  obtain ⟨hallows, hnext⟩ := Routine.minded_ask.1 (ho.minds ht)
  have hi := Stance.node?_of_allows_release hallows
  have hno : ∀ other id, g i ≠ .told other id := by
    intro other id h
    rw [h] at hallows
    exact absurd (show Effect.release node = .consult (.noteId other id) from hallows) (by simp)
  refine ⟨Function.update g i .free, .of_orderly ?_ rfl ?_ (by simp) (by simp)⟩
  · refine ho.leave (set_tasks { p with locks := _ } ht _) (hnext ()) rfl (ho.distinct.erase node) ?_
    intro other j
    show (p.locks.erase node).get? other = some j ↔ _
    rw [Table.get?_erase]
    by_cases hother : other = node
    · subst hother
      rw [if_pos rfl]
      constructor
      · intro h
        exact absurd h (by simp)
      · rintro ⟨hlock, hij⟩
        exact absurd (ho.eq_of_node? (ho.locks.1 hlock) hi) hij
    · rw [if_neg hother]
      refine ⟨fun h => ⟨h, ?_⟩, fun h => h.1⟩
      rintro rfl
      rw [ho.locks, hi] at h
      exact hother (Option.some.inj h).symm
  · intro other id h
    exact absurd h (hno other id)

/-- Whose turn it is, the pool stays in order. -/
theorem Turn.shift (h : Turn w p shown p') (ho : Orderly p g) : ∃ g', Shift p g shown p' g' := by
  cases h with
  | @finish i a ht =>
    have hi := Routine.minded_done.1 (ho.minds ht)
    exact ho.stay (p.set_tasks ht _) hi rfl rfl (by simp) (by simp)
  | consult ht hnow hm => exact ho.consult ht hm
  | @call i request next ht =>
    have hminds := ho.minds ht
    have hallows := (Routine.minded_ask.1 hminds).1
    refine ho.stay (p.set_tasks ht _) hminds rfl rfl (by simp) ?_
    intro j request' hmem hcommand
    simp only [List.mem_singleton, Prod.mk.injEq, TaskEvent.called.injEq] at hmem
    obtain ⟨rfl, rfl⟩ := hmem
    exact Stance.eq_seeking_of_allows hallows hcommand
  | answer ht hbrings => exact ho.answer _ ht
  | acquire ht hfree => exact ho.acquire ht hfree
  | release ht => exact ho.release ht
  | @tell i writes next ht =>
    obtain ⟨hallows, hnext⟩ := Routine.minded_ask.1 (ho.minds ht)
    have hi := Stance.eq_free_of_allows_propagate hallows
    rw [hi] at hnext
    exact ho.stay (p.set_tasks ht _) ⟨hi, hnext⟩ rfl rfl (by simp) (by simp)
  | @write i run run' next ht hrun =>
    obtain ⟨hi, hnext⟩ := ho.minds ht
    exact ho.stay (p.set_tasks ht _) ⟨hi, hnext⟩ rfl rfl (by simp) (by simp)
  | @report i run run' next ht hrun =>
    obtain ⟨hi, hnext⟩ := ho.minds ht
    refine ho.stay (p.set_tasks ht _) ?_ rfl rfl (by simp) (by simp)
    rw [hi]
    exact hnext run'.report

/-- A task that is cut off leaves its locks to others. -/
theorem Orderly.drop (ho : Orderly p g) {a : Activity α} (ht : p.tasks[i]? = some a)
    (ending : Ending α) : Orderly (p.drop i ending) (Function.update g i .free) := by
  refine ho.leave (p.set_tasks ht _) rfl rfl (ho.distinct.filter _) fun node j => ?_
  show (p.locks.filter fun _ holder => holder != i).get? node = some j ↔ _
  rw [ho.distinct.get?_filter, Option.filter_eq_some_iff]
  simp

/-- Whatever happens, the pool stays in order. -/
theorem Step.orderly (h : Step w p shown p') (ho : Orderly p g) : ∃ g', Orderly p' g' := by
  cases h with
  | turn h =>
    obtain ⟨g', hshift⟩ := h.shift ho
    exact ⟨g', hshift.orderly⟩
  | @drop i a ht hon ending hcut => exact ⟨_, ho.drop ht ending⟩
  | cancel => exact ⟨g, ho.minds, ho.absent, ho.distinct, ho.locks, ho.seeks⟩
  | forget node =>
    refine ⟨g, ho.minds, ho.absent, ho.distinct, ho.locks, ?_⟩
    intro j other hj
    have hnone : p.memory.memos.ids.get? other = none := ho.seeks hj
    show (p.memory.memos.ids.erase node).get? other = none
    rw [Table.get?_erase]
    split
    · rfl
    · exact hnone

/-- What happens to a pool of which nothing is forgotten, and whose tasks are cut off only where they
wait for something outside. -/
inductive Undisturbed (w : World) : Pool α → List (Nat × TaskEvent) → Pool α → Prop where
  /-- A task has its turn. -/
  | turn {p p' : Pool α} {shown : List (Nat × TaskEvent)} (h : Turn w p shown p') :
      Undisturbed w p shown p'
  /-- A task that waits is aborted, or breaks down. -/
  | drop {p : Pool α} {i : Nat} {a : Activity α} (h : p.tasks[i]? = some a) (hwaits : a.Waits)
      {ending : Ending α} (hcut : ending.value? = none) : Undisturbed w p [] (p.drop i ending)
  /-- The controller begins to shut down. -/
  | cancel (p : Pool α) : Undisturbed w p [] p.cancel

theorem Undisturbed.shift (h : Undisturbed w p shown p') (ho : Orderly p g) :
    ∃ g', Shift p g shown p' g' := by
  cases h with
  | turn h => exact h.shift ho
  | @drop i a ht hwaits ending hcut =>
    have hno := Activity.ne_told_of_waits (ho.minds ht) hwaits
    refine ⟨_, .of_orderly (ho.drop ht ending) rfl ?_ (by simp) (by simp)⟩
    intro node id h
    exact absurd h (hno node id)
  | cancel =>
    refine ⟨g, ⟨ho.minds, ho.absent, ho.distinct, ho.locks, ho.seeks⟩, fun h => h, Or.inl, ?_, ?_⟩
    · simp
    · simp

end Pool

end Rendezvous
