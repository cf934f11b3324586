import Rendezvous.Proofs.Pool.Tasks

/-!
# Records come from tasks

In a pool whose cache was empty at first, a task that is answered with a record is answered with what
a task has recorded before.
-/

namespace Rendezvous

/-- A task has recorded a value of a key. -/
def Recorded (log : List (Nat × TaskEvent)) (key value : String) : Prop :=
  ∃ i lifetime, (i, TaskEvent.consulted (.cacheSet key value lifetime) (.ok ())) ∈ log

theorem Recorded.mono {log log' : List (Nat × TaskEvent)} {key value : String}
    (h : Recorded log key value) : Recorded (log ++ log') key value := by
  obtain ⟨i, lifetime, hmem⟩ := h
  exact ⟨i, lifetime, List.mem_append_left _ hmem⟩

/-- Every record that a task was answered with had been recorded before. -/
def Backed (log : List (Nat × TaskEvent)) : Prop :=
  ∀ before i key value after,
    log = before ++ (i, TaskEvent.consulted (.cacheGet key) (.ok (some value))) :: after →
    Recorded before key value

theorem Backed.snoc {log : List (Nat × TaskEvent)} {e : Nat × TaskEvent} (h : Backed log)
    (he : ∀ i key value, e = (i, .consulted (.cacheGet key) (.ok (some value))) →
      Recorded log key value) : Backed (log ++ [e]) := by
  intro before i key value after hlog
  refine forall_split_snoc (P := fun before x => ∀ i key value,
    x = (i, .consulted (.cacheGet key) (.ok (some value))) → Recorded before key value)
    ?_ he hlog i key value rfl
  rintro before x after rfl i key value rfl
  exact h before i key value after rfl

/-- A record that is known is there. -/
theorem TimedCache.get?_eq_some {c : TimedCache} {now : Instant} {key value : String}
    (h : c.get? now key = some value) :
    ∃ r, c.records.get? key = some r ∧ r.value = value := by
  unfold TimedCache.get? at h
  split at h
  · rename_i r hr
    split at h
    · exact ⟨r, hr, Option.some.inj h⟩
    · exact absurd h (by simp)
  · exact absurd h (by simp)

namespace Memory

variable {m m' : Memory} {now : Instant} {q : Query} {answer : q.Answer}

/-- Only recording a value changes the cache. -/
theorem consult_cache (h : m.consult now q = some (answer, m')) :
    m'.cache = m.cache ∨ ∃ key value lifetime expiry,
      TaskEvent.consulted q answer = .consulted (.cacheSet key value lifetime) (.ok ()) ∧
        m'.cache = ⟨m.cache.records.put key ⟨value, expiry⟩⟩ := by
  cases q with
  | cacheSet key value lifetime =>
    by_cases hfault : m.faults.set = true
    · simp only [consult, hfault, if_true, Option.some.injEq, Prod.mk.injEq] at h
      exact Or.inl (by rw [← h.2])
    · simp only [consult, hfault, Bool.false_eq_true, if_false, Option.map_eq_some_iff,
        Prod.mk.injEq] at h
      obtain ⟨cache, hcache, rfl, rfl⟩ := h
      obtain ⟨expiry, -, rfl⟩ := Option.map_eq_some_iff.1 hcache
      exact Or.inr ⟨key, value, lifetime, expiry, rfl, rfl⟩
  | _ =>
    simp only [consult, Option.some.injEq, Prod.mk.injEq] at h
    exact Or.inl (by rw [← h.2])

/-- The cache answers with a record that it has. -/
theorem consult_get {key value : String} (h : m.consult now q = some (answer, m'))
    (he : TaskEvent.consulted q answer = .consulted (.cacheGet key) (.ok (some value))) :
    m.cache.get? now key = some value := by
  cases he
  simp only [consult, Option.some.injEq, Prod.mk.injEq] at h
  by_cases hfault : m.faults.get = true
  · simp [hfault] at h
  · simpa [hfault] using h.1

end Memory

namespace Pool

variable {α : Type} {w : World} {p p' : Pool α} {log shown : List (Nat × TaskEvent)}

/-- Every record in the cache was recorded by a task. -/
def Kept (log : List (Nat × TaskEvent)) (cache : TimedCache) : Prop :=
  ∀ key r, cache.records.get? key = some r → Recorded log key r.value

theorem Kept.append {cache : TimedCache} (h : Kept log cache) : Kept (log ++ shown) cache :=
  fun key r hr => (h key r hr).mono

/-- Putting a value into the cache puts it into the log. -/
theorem Kept.put {cache : TimedCache} (h : Kept log cache) (i : Nat) (key value : String)
    (lifetime : Duration) (expiry : Instant) :
    Kept (log ++ [(i, .consulted (.cacheSet key value lifetime) (.ok ()))])
      ⟨cache.records.put key ⟨value, expiry⟩⟩ :=
  Table.forall_put h.append ⟨i, lifetime, List.mem_append_right _ List.mem_cons_self⟩

/-- Steps that ask for something else leave the cache alone. -/
theorem Step.records (h : Step w p shown p') (hbacked : Backed log) (hkept : Kept log p.memory.cache) :
    Backed (log ++ shown) ∧ Kept (log ++ shown) p'.memory.cache := by
  have hquiet : ∀ {e : Nat × TaskEvent} {cache : TimedCache},
      (∀ q answer, e.2 ≠ .consulted q answer) → cache = p.memory.cache →
      Backed (log ++ [e]) ∧ Kept (log ++ [e]) cache := by
    intro e cache hno hcache
    subst hcache
    refine ⟨hbacked.snoc ?_, hkept.append⟩
    rintro i key value rfl
    exact absurd rfl (hno _ _)
  have hsilent : ∀ {cache : TimedCache}, cache = p.memory.cache →
      Backed (log ++ []) ∧ Kept (log ++ []) cache := by
    intro cache hcache
    subst hcache
    rw [List.append_nil]
    exact ⟨hbacked, hkept⟩
  cases h with
  | drop ht hon hcut => exact hsilent rfl
  | cancel => exact hsilent rfl
  | forget node => exact hsilent rfl
  | turn h =>
    cases h with
    | @consult i q next now answer memory ht hnow hm =>
      refine ⟨hbacked.snoc ?_, ?_⟩
      · intro j key value he
        obtain ⟨-, he⟩ := Prod.mk.inj he
        obtain ⟨r, hr, rfl⟩ := TimedCache.get?_eq_some (Memory.consult_get hm he)
        exact hkept key r hr
      · show Kept _ memory.cache
        rcases Memory.consult_cache hm with hsame | ⟨key, value, lifetime, expiry, he, hput⟩
        · rw [hsame]
          exact hkept.append
        · rw [hput, he]
          exact hkept.put i key value lifetime expiry
    | finish ht => exact hsilent rfl
    | write ht hrun => exact hsilent rfl
    | call ht => exact hquiet (by simp) rfl
    | answer ht hbrings => exact hquiet (by simp) rfl
    | acquire ht hfree => exact hquiet (by simp) rfl
    | release ht => exact hquiet (by simp) rfl
    | tell ht => exact hquiet (by simp) rfl
    | report ht hrun => exact hquiet (by simp) rfl

/-- A task is only answered with records that tasks have made, if the cache was empty at first. -/
theorem backed_of_run (h : Run (Step w) p log p') (hempty : p.memory.cache = {}) : Backed log := by
  have hall : Backed log ∧ Kept log p'.memory.cache := by
    refine h.preserves (P := fun log p' => Backed log ∧ Kept log p'.memory.cache) ?_ ?_
    · refine ⟨by simp [Backed], ?_⟩
      rw [hempty]
      intro key r hr
      exact absurd hr (by simp)
    · rintro log t shown u ⟨hbacked, hkept⟩ step
      exact step.records hbacked hkept
  exact hall.1

end Pool

end Rendezvous
