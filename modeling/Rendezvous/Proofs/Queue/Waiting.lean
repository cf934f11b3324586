import Mathlib.Data.List.Nodup
import Mathlib.Data.List.Perm.Basic
import Mathlib.Tactic.Common
import Rendezvous.Queue.Basic

/-!
# What waits in a queue

The index of a queue and the slots in which items wait are kept in step by three operations:
scheduling, pulling arrivals and taking out what is due. As long as they are in step, scheduling an
item replaces the waiting item of its node and touches no other, and taking out what is due splits
the waiting items in two.
-/

namespace Rendezvous

/-- An item with one retry more. -/
def WorkItem.retry (w : WorkItem) : WorkItem := { w with retries := w.retries + 1 }

namespace RetryQueue

open scoped List

/-- The items that wait. -/
def items (q : RetryQueue) : List WorkItem := q.pending.map (·.2)

/-- The index and the waiting items are in step. -/
structure Sound (q : RetryQueue) : Prop where
  /-- No node waits twice. -/
  nodes_nodup : (q.pending.map (·.2.node)).Nodup
  /-- No two items were scheduled under one number. -/
  seqs_nodup : (q.pending.map (·.1.seq)).Nodup
  /-- No number is ahead of the last one. -/
  seq_le : ∀ e ∈ q.pending, e.1.seq ≤ q.seq
  /-- The index leads from a node to the slot in which it waits, and nowhere else. -/
  index_iff : ∀ node slot, q.index.get? node = some slot ↔ ∃ w, (slot, w) ∈ q.pending ∧ w.node = node

/-- A queue in which nothing waits is in step. -/
theorem Sound.fresh (policy : RetryPolicy) : Sound { policy } :=
  ⟨by simp, by simp, by simp, by simp⟩

namespace Sound

variable {q : RetryQueue}

theorem items_nodup (h : q.Sound) : (q.items.map WorkItem.node).Nodup := by
  simpa [items, Function.comp_def] using h.nodes_nodup

/-- Only what waits matters, not how the queue retries, what arrives or what it has done. -/
theorem congr {q' : RetryQueue} (h : q.Sound) (hp : q'.pending = q.pending)
    (hi : q'.index = q.index) (hs : q'.seq = q.seq) : q'.Sound := by
  obtain ⟨h1, h2, h3, h4⟩ := h
  exact ⟨by rwa [hp], by rwa [hp], by rwa [hp, hs], by rwa [hp, hi]⟩

/-- A waiting item is the only one in its slot. -/
theorem slot_inj (h : q.Sound) {e e' : Slot × WorkItem} (he : e ∈ q.pending) (he' : e' ∈ q.pending)
    (hslot : e.1 = e'.1) : e = e' :=
  List.inj_on_of_nodup_map h.seqs_nodup he he' (by rw [hslot])

/-- A waiting item is the only one of its node. -/
theorem node_inj (h : q.Sound) {e e' : Slot × WorkItem} (he : e ∈ q.pending) (he' : e' ∈ q.pending)
    (hnode : e.2.node = e'.2.node) : e = e' :=
  List.inj_on_of_nodup_map h.nodes_nodup he he' hnode

/-- The slot that scheduling clears is that of the node, and of no other. -/
theorem filter_slot (h : q.Sound) {node : String} {old : Slot} (hi : q.index.get? node = some old) :
    q.pending.filter (·.1 != old) = q.pending.filter (·.2.node != node) := by
  obtain ⟨w, hw, hnode⟩ := (h.index_iff node old).1 hi
  refine List.filter_congr fun e he => ?_
  have hiff : e.1 = old ↔ e.2.node = node := by
    constructor
    · intro hs
      rw [h.slot_inj he hw hs]
      exact hnode
    · intro hn
      rw [h.node_inj he hw (hn.trans hnode.symm)]
  rw [Bool.eq_iff_iff, bne_iff_ne, bne_iff_ne]
  exact not_congr hiff

/-- Nothing is cleared for a node that is not in the index. -/
theorem filter_node (h : q.Sound) {node : String} (hi : q.index.get? node = none) :
    q.pending.filter (·.2.node != node) = q.pending := by
  refine List.filter_eq_self.2 fun e he => ?_
  have hn : e.2.node ≠ node := by
    intro hn
    rw [(h.index_iff node e.1).2 ⟨e.2, he, hn⟩] at hi
    exact absurd hi (by simp)
  simpa using hn

end Sound

/-! ## Scheduling -/

theorem insertSlot_perm (slot : Slot) (w : WorkItem) (l : List (Slot × WorkItem)) :
    (insertSlot slot w l).Perm ((slot, w) :: l) := by
  induction l with
  | nil => exact List.Perm.refl _
  | cons e rest ih =>
    simp only [insertSlot]
    split
    · exact List.Perm.refl _
    · exact (ih.cons e).trans (List.Perm.swap ..)

@[simp] theorem schedule_policy (q : RetryQueue) (w : WorkItem) (due : Instant) :
    (q.schedule w due).policy = q.policy := rfl

@[simp] theorem schedule_arrivals (q : RetryQueue) (w : WorkItem) (due : Instant) :
    (q.schedule w due).arrivals = q.arrivals := rfl

@[simp] theorem schedule_stats (q : RetryQueue) (w : WorkItem) (due : Instant) :
    (q.schedule w due).stats = q.stats := rfl

@[simp] theorem schedule_seq (q : RetryQueue) (w : WorkItem) (due : Instant) :
    (q.schedule w due).seq = q.seq + 1 := rfl

theorem schedule_index (q : RetryQueue) (w : WorkItem) (due : Instant) :
    (q.schedule w due).index = q.index.put w.node ⟨due, q.seq + 1⟩ := rfl

theorem Sound.schedule_pending {q : RetryQueue} (h : q.Sound) (w : WorkItem) (due : Instant) :
    (q.schedule w due).pending =
      insertSlot ⟨due, q.seq + 1⟩ w (q.pending.filter (·.2.node != w.node)) := by
  simp only [schedule]
  cases hi : q.index.get? w.node with
  | none => rw [h.filter_node hi]
  | some old => rw [← h.filter_slot hi]

theorem Sound.schedule_pending_perm {q : RetryQueue} (h : q.Sound) (w : WorkItem) (due : Instant) :
    (q.schedule w due).pending.Perm
      ((⟨due, q.seq + 1⟩, w) :: q.pending.filter (·.2.node != w.node)) := by
  rw [h.schedule_pending]
  exact insertSlot_perm ..

/-- Scheduling an item replaces the waiting item of its node. -/
theorem Sound.schedule_items {q : RetryQueue} (h : q.Sound) (w : WorkItem) (due : Instant) :
    (q.schedule w due).items.Perm (w :: q.items.filter (·.node != w.node)) := by
  have hp := (h.schedule_pending_perm w due).map (·.2)
  simpa [items, List.filter_map, Function.comp_def] using hp

/-- Scheduling an item of a node that does not wait adds the item. -/
theorem Sound.schedule_fresh {q : RetryQueue} (h : q.Sound) {w : WorkItem} (due : Instant)
    (hw : w.node ∉ q.items.map WorkItem.node) : (q.schedule w due).items.Perm (w :: q.items) := by
  have hp := h.schedule_items w due
  have hf : q.items.filter (·.node != w.node) = q.items := by
    refine List.filter_eq_self.2 fun v hv => ?_
    have hne : v.node ≠ w.node := fun hn => hw (List.mem_map.2 ⟨v, hv, hn⟩)
    simpa using hne
  rwa [hf] at hp

theorem Sound.schedule {q : RetryQueue} (h : q.Sound) (w : WorkItem) (due : Instant) :
    (q.schedule w due).Sound := by
  have hp := h.schedule_pending_perm w due
  have hmem : ∀ e, e ∈ (q.schedule w due).pending ↔
      e = (⟨due, q.seq + 1⟩, w) ∨ (e ∈ q.pending ∧ e.2.node ≠ w.node) := by
    intro e
    simp [hp.mem_iff]
  refine ⟨?_, ?_, ?_, ?_⟩
  · rw [(hp.map _).nodup_iff, List.map_cons, List.nodup_cons]
    refine ⟨?_, h.nodes_nodup.sublist (List.filter_sublist.map _)⟩
    simp
  · rw [(hp.map _).nodup_iff, List.map_cons, List.nodup_cons]
    refine ⟨?_, h.seqs_nodup.sublist (List.filter_sublist.map _)⟩
    intro hs
    obtain ⟨e, he, hseq⟩ := List.mem_map.1 hs
    have hle := h.seq_le e (List.mem_of_mem_filter he)
    simp only at hseq
    omega
  · intro e he
    rcases (hmem e).1 he with rfl | ⟨he, -⟩
    · simp
    · have hle := h.seq_le e he
      simp only [schedule_seq]
      omega
  · intro node slot
    rw [schedule_index, Table.get?_put]
    by_cases hn : node = w.node
    · subst hn
      rw [if_pos rfl]
      constructor
      · intro hs
        exact ⟨w, (hmem _).2 (Or.inl (by rw [Option.some.inj hs])), rfl⟩
      · rintro ⟨v, hv, hnode⟩
        rcases (hmem _).1 hv with hv | ⟨-, hne⟩
        · rw [(Prod.mk.inj hv).1]
        · exact absurd hnode hne
    · rw [if_neg hn, h.index_iff]
      constructor
      · rintro ⟨v, hv, rfl⟩
        exact ⟨v, (hmem _).2 (Or.inr ⟨hv, hn⟩), rfl⟩
      · rintro ⟨v, hv, hnode⟩
        rcases (hmem _).1 hv with hv | ⟨hv, -⟩
        · exact absurd (hnode.symm.trans (by rw [(Prod.mk.inj hv).2])) hn
        · exact ⟨v, hv, hnode⟩

/-- What waits after scheduling an item is this item or has waited before. -/
theorem mem_schedule {q : RetryQueue} {w : WorkItem} {due : Instant} {e : Slot × WorkItem}
    (he : e ∈ (q.schedule w due).pending) : e ∈ q.pending ∨ (e.1.due = due ∧ e.2 = w) := by
  rcases List.mem_cons.1 ((insertSlot_perm ..).subset he) with rfl | he
  · exact Or.inr ⟨rfl, rfl⟩
  · refine Or.inl ?_
    split at he
    · exact List.mem_of_mem_filter he
    · exact he

/-- What waits after scheduling one item after another is one of these items or has waited before. -/
theorem mem_foldl_schedule {α : Type} {f : RetryQueue → α → RetryQueue} {g : α → WorkItem}
    {due : Instant} {e : Slot × WorkItem}
    (h : ∀ q a, e ∈ (f q a).pending → e ∈ q.pending ∨ (e.1.due = due ∧ e.2 = g a))
    {as : List α} {q : RetryQueue} (he : e ∈ (as.foldl f q).pending) :
    e ∈ q.pending ∨ (e.1.due = due ∧ ∃ a ∈ as, e.2 = g a) := by
  induction as generalizing q with
  | nil => exact Or.inl he
  | cons a as ih =>
    rcases ih he with he | ⟨hdue, a', ha', hitem⟩
    · rcases h q a he with he | ⟨hdue, hitem⟩
      · exact Or.inl he
      · exact Or.inr ⟨hdue, a, List.mem_cons_self, hitem⟩
    · exact Or.inr ⟨hdue, a', List.mem_cons_of_mem _ ha', hitem⟩

/-- A retry schedules the item with one retry more, if there is an instant at which it is due. -/
theorem retry?_eq (q : RetryQueue) (w : WorkItem) (now : Instant) :
    q.retry? w now =
      ((q.policy.backoff? (w.retries + 1)).bind (Instant.after? now)).map (q.schedule w.retry) := by
  unfold retry?
  cases q.policy.backoff? (w.retries + 1) with
  | none => rfl
  | some delay => cases hdue : Instant.after? now delay <;> simp [hdue, WorkItem.retry]

/-! ## Pulling what has arrived -/

/-- Pull one arrival. -/
def pullOne (q : RetryQueue) (now : Instant) (p : Peer) : RetryQueue :=
  { q with stats := { q.stats with enqueued := q.stats.enqueued + 1 } }.schedule ⟨p, 0⟩ now

theorem pullArrivals_eq (q : RetryQueue) (now : Instant) :
    q.pullArrivals now = q.arrivals.foldl (·.pullOne now) { q with arrivals := [] } := rfl

theorem Sound.pullOne {q : RetryQueue} (h : q.Sound) (now : Instant) (p : Peer) :
    (q.pullOne now p).Sound :=
  Sound.schedule (q := { q with stats := { q.stats with enqueued := q.stats.enqueued + 1 } })
    (h.congr rfl rfl rfl) ⟨p, 0⟩ now

/-- Pulling an arrival replaces the waiting item of its node by a fresh one. -/
theorem Sound.pullOne_items {q : RetryQueue} (h : q.Sound) (now : Instant) (p : Peer) :
    (q.pullOne now p).items.Perm (⟨p, 0⟩ :: q.items.filter (·.node != p.nodeName)) :=
  Sound.schedule_items (q := { q with stats := { q.stats with enqueued := q.stats.enqueued + 1 } })
    (h.congr rfl rfl rfl) ⟨p, 0⟩ now

theorem Sound.pullAll {q : RetryQueue} (h : q.Sound) (now : Instant) (ps : List Peer) :
    (ps.foldl (·.pullOne now) q).Sound := by
  induction ps generalizing q with
  | nil => exact h
  | cons p ps ih => exact ih (h.pullOne now p)

theorem Sound.pullArrivals {q : RetryQueue} (h : q.Sound) (now : Instant) :
    (q.pullArrivals now).Sound := by
  rw [pullArrivals_eq]
  exact Sound.pullAll (q := { q with arrivals := [] }) (h.congr rfl rfl rfl) now _

theorem pullAll_frame (q : RetryQueue) (now : Instant) (ps : List Peer) :
    (ps.foldl (·.pullOne now) q).policy = q.policy ∧
      (ps.foldl (·.pullOne now) q).arrivals = q.arrivals ∧
      (ps.foldl (·.pullOne now) q).stats =
        { q.stats with enqueued := q.stats.enqueued + ps.length } := by
  induction ps generalizing q with
  | nil => simp
  | cons p ps ih =>
    obtain ⟨h1, h2, h3⟩ := ih (q.pullOne now p)
    refine ⟨h1, h2, ?_⟩
    rw [List.foldl_cons, h3]
    simp only [RetryQueue.pullOne, schedule_stats, List.length_cons, QueueStats.mk.injEq, and_true]
    omega

/-- What waits once the arrivals are pulled is the fresh item of one of them or has waited before. -/
theorem mem_pullArrivals {q : RetryQueue} {now : Instant} {e : Slot × WorkItem}
    (he : e ∈ (q.pullArrivals now).pending) :
    e ∈ q.pending ∨ (e.1.due = now ∧ ∃ p ∈ q.arrivals, e.2 = ⟨p, 0⟩) := by
  rw [pullArrivals_eq] at he
  have hpull : ∀ (q : RetryQueue) (p : Peer), e ∈ (q.pullOne now p).pending →
      e ∈ q.pending ∨ (e.1.due = now ∧ e.2 = ⟨p, 0⟩) := fun _ _ he => mem_schedule he
  exact mem_foldl_schedule (q := { q with arrivals := [] }) hpull he

@[simp] theorem pullArrivals_policy (q : RetryQueue) (now : Instant) :
    (q.pullArrivals now).policy = q.policy :=
  (pullAll_frame { q with arrivals := [] } now q.arrivals).1

@[simp] theorem pullArrivals_stats (q : RetryQueue) (now : Instant) :
    (q.pullArrivals now).stats =
      { q.stats with enqueued := q.stats.enqueued + q.arrivals.length } :=
  (pullAll_frame { q with arrivals := [] } now q.arrivals).2.2

/-! ## Taking out what is due -/

/-- The items that are due. -/
def due (q : RetryQueue) (now : Instant) : List WorkItem :=
  (q.pending.filter fun e => e.1.due ≤ now).map (·.2)

/-- The items that are due later. -/
def later (q : RetryQueue) (now : Instant) : List WorkItem :=
  (q.pending.filter fun e => now < e.1.due).map (·.2)

theorem takeDue_fst (q : RetryQueue) (now : Instant) : (q.takeDue now).1 = q.due now := rfl

theorem takeDue_pending (q : RetryQueue) (now : Instant) :
    (q.takeDue now).2.pending = q.pending.filter fun e => !decide (e.1.due ≤ now) := rfl

theorem takeDue_index (q : RetryQueue) (now : Instant) :
    (q.takeDue now).2.index = (q.due now).foldl (fun index w => index.erase w.node) q.index := rfl

theorem takeDue_items (q : RetryQueue) (now : Instant) : (q.takeDue now).2.items = q.later now := by
  rw [items, takeDue_pending, later]
  congr 1
  refine List.filter_congr fun e _ => ?_
  rw [← decide_not]
  exact decide_eq_decide.2 Nat.not_le

/-- What is due and what is due later are all that waits. -/
theorem due_append_later (q : RetryQueue) (now : Instant) :
    (q.due now ++ q.later now).Perm q.items := by
  have h := (List.filter_append_perm (fun e : Slot × WorkItem => decide (e.1.due ≤ now))
    q.pending).map (·.2)
  rw [List.map_append, ← takeDue_pending] at h
  rwa [← takeDue_items]

/-- No node is due twice. -/
theorem Sound.due_nodup {q : RetryQueue} (h : q.Sound) (now : Instant) :
    ((q.due now).map WorkItem.node).Nodup := by
  have hnodes := h.items_nodup
  rw [← ((q.due_append_later now).map _).nodup_iff] at hnodes
  exact hnodes.sublist ((List.sublist_append_left ..).map _)

theorem get?_eraseAll (index : Table Slot) (ws : List WorkItem) (node : String) :
    (ws.foldl (fun index w => index.erase w.node) index).get? node =
      if node ∈ ws.map WorkItem.node then none else index.get? node := by
  induction ws generalizing index with
  | nil => simp
  | cons w ws ih =>
    rw [List.foldl_cons, ih, Table.get?_erase, List.map_cons]
    by_cases h1 : node ∈ ws.map WorkItem.node
    · rw [if_pos h1, if_pos (List.mem_cons_of_mem _ h1)]
    · by_cases h2 : node = w.node
      · simp [h2]
      · rw [if_neg h1, if_neg h2, if_neg (by simpa [h2] using h1)]

theorem Sound.takeDue {q : RetryQueue} (h : q.Sound) (now : Instant) : (q.takeDue now).2.Sound := by
  refine ⟨h.nodes_nodup.sublist (List.filter_sublist.map _),
    h.seqs_nodup.sublist (List.filter_sublist.map _),
    fun e he => h.seq_le e (List.mem_of_mem_filter he), fun node slot => ?_⟩
  rw [takeDue_index, get?_eraseAll, takeDue_pending]
  constructor
  · intro hs
    by_cases hd : node ∈ (q.due now).map WorkItem.node
    · rw [if_pos hd] at hs
      exact absurd hs (by simp)
    · rw [if_neg hd] at hs
      obtain ⟨w, hw, hnode⟩ := (h.index_iff node slot).1 hs
      have hlate : ¬ slot.due ≤ now := by
        intro hle
        refine hd (List.mem_map.2 ⟨w, List.mem_map.2 ⟨(slot, w), ?_, rfl⟩, hnode⟩)
        exact List.mem_filter.2 ⟨hw, by simpa using hle⟩
      exact ⟨w, List.mem_filter.2 ⟨hw, by simpa using hlate⟩, hnode⟩
  · rintro ⟨w, hw, hnode⟩
    obtain ⟨hw, hlate⟩ := List.mem_filter.1 hw
    rw [if_neg, h.index_iff]
    · exact ⟨w, hw, hnode⟩
    · intro hd
      obtain ⟨v, hv, hvn⟩ := List.mem_map.1 hd
      obtain ⟨e, he, rfl⟩ := List.mem_map.1 hv
      obtain ⟨he, hdue⟩ := List.mem_filter.1 he
      rw [h.node_inj he hw (hvn.trans hnode.symm)] at hdue
      simp [hdue] at hlate

end RetryQueue

end Rendezvous
