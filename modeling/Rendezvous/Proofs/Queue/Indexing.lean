import Mathlib.Logic.Relation
import Rendezvous.Proofs.Queue.Timetable

/-!
# The index of a queue

A queue keeps what waits in two places: the items in the order of their slots, and under the name of
each node the slot of its item. Scheduling an item changes both, and so does taking out what is due.
Whatever is done to a queue, and in whatever order, each of the two places can be told from the other
one.
-/

namespace Rendezvous

open Relation

namespace RetryQueue

/-! ## What can be done to a queue -/

/-- One change of a queue. The clock may stand anywhere, and the items that are settled or put back
may be any, also ones of nodes that wait. -/
inductive Change : RetryQueue → RetryQueue → Prop where
  /-- A peer arrives. -/
  | enqueue (q : RetryQueue) (p : Peer) : Change q (q.enqueue p)
  /-- What has arrived is pulled. -/
  | pull (q : RetryQueue) (now : Instant) : Change q (q.pullArrivals now)
  /-- What is due is taken out. -/
  | take (q : RetryQueue) (now : Instant) : Change q (q.takeDue now).2
  /-- An item is settled. -/
  | settle {d d' : Drain} {now : Instant} {w : WorkItem} {ending : WorkEnding}
      (h : d.settle? now w ending = some d') : Change d.queue d'.queue
  /-- Items are put back. -/
  | putBack (q : RetryQueue) (now : Instant) (ws : List (Nat × WorkItem)) :
      Change q (ws.foldl (fun q w => q.schedule w.2 now) q)
  /-- The queue is drained, up to any point, also one at which the drain breaks down. -/
  | drain {q : RetryQueue} {pulled now : Instant} {log : List QueueEvent} {d : Drain}
      (h : Run Drain.Move (.begin q pulled now) log d) : Change q d.queue
  /-- The queue is drained, until everything is settled. -/
  | drainAll {q : RetryQueue} {pulled now : Instant} {log : List QueueEvent} {d : Drain}
      (h : Run Drain.Move (.begin q pulled now) log d) (hover : d.isOver = true) : Change q d.close

/-! ## What every change keeps -/

/-- The index and the waiting items are in step, the items are in the order of their slots, and the
index has no name twice. -/
structure Filed (q : RetryQueue) : Prop where
  sound : q.Sound
  ordered : Ordered q.pending
  distinct : q.index.Distinct

namespace Filed

variable {q q' : RetryQueue}

theorem fresh (policy : RetryPolicy) : Filed { policy } :=
  ⟨.fresh policy, List.Pairwise.nil, Table.distinct_empty⟩

theorem congr (h : q.Filed) (hp : q'.pending = q.pending) (hi : q'.index = q.index)
    (hs : q'.seq = q.seq) : q'.Filed :=
  ⟨h.sound.congr hp hi hs, hp ▸ h.ordered, hi ▸ h.distinct⟩

theorem schedule (h : q.Filed) (w : WorkItem) (due : Instant) : (q.schedule w due).Filed := by
  refine ⟨h.sound.schedule w due, ?_, h.distinct.put w.node _⟩
  have hseq : ∀ e ∈ q.pending.filter (·.2.node != w.node), e.1.seq < q.seq + 1 := by
    intro e he
    have hle := h.sound.seq_le e (List.mem_of_mem_filter he)
    omega
  rw [h.sound.schedule_pending]
  exact Ordered.insertSlot (h.ordered.sublist List.filter_sublist) hseq w

theorem scheduleAll (h : q.Filed) (now : Instant) (ws : List (Nat × WorkItem)) :
    (ws.foldl (fun q w => q.schedule w.2 now) q).Filed :=
  List.foldlRecOn ws _ h fun _ hq w _ => hq.schedule w.2 now

theorem pullArrivals (h : q.Filed) (now : Instant) : (q.pullArrivals now).Filed := by
  rw [pullArrivals_eq]
  have hempty : Filed { q with arrivals := [] } := h.congr rfl rfl rfl
  refine List.foldlRecOn q.arrivals _ hempty fun q₁ hq₁ p _ => ?_
  have hcounted : Filed { q₁ with stats := { q₁.stats with enqueued := q₁.stats.enqueued + 1 } } :=
    hq₁.congr rfl rfl rfl
  exact hcounted.schedule ⟨p, 0⟩ now

theorem takeDue (h : q.Filed) (now : Instant) : (q.takeDue now).2.Filed := by
  refine ⟨h.sound.takeDue now, h.ordered.sublist List.filter_sublist, ?_⟩
  rw [takeDue_index]
  exact List.foldlRecOn (q.due now) _ h.distinct fun _ ht w _ => ht.erase w.node

theorem settle? {d d' : Drain} {now : Instant} {w : WorkItem} {ending : WorkEnding}
    (hd : d.queue.Filed) (h : d.settle? now w ending = some d') : d'.queue.Filed := by
  obtain ⟨queue, rfl, hqueue⟩ := Drain.settle?_eq h
  rcases hqueue with ⟨-, rfl⟩ | ⟨v, due, -, rfl⟩
  · exact hd
  · exact hd.schedule v due

theorem begin (h : q.Filed) (pulled now : Instant) : (Drain.begin q pulled now).queue.Filed :=
  ((h.pullArrivals pulled).takeDue now).congr rfl rfl rfl

theorem move {d d' : Drain} {shown : List QueueEvent} (hd : d.queue.Filed)
    (h : Drain.Move d shown d') : d'.queue.Filed := by
  cases h with
  | arrive p => exact hd.congr rfl rfl rfl
  | start _ _ => exact hd
  | finish _ ending => rwa [Drain.finish_queue]
  | withdraw _ => exact hd
  | @join _ now w ending before after _ h =>
    exact settle? (d := { d with ended := before ++ after }) hd h

theorem run {d d' : Drain} {log : List QueueEvent} (hd : d.queue.Filed)
    (h : Run Drain.Move d log d') : d'.queue.Filed :=
  h.preserves (P := fun _ d => d.queue.Filed) hd fun hd step => hd.move step

theorem change (hq : q.Filed) (h : Change q q') : q'.Filed := by
  cases h with
  | enqueue _ p => exact hq.congr rfl rfl rfl
  | pull _ now => exact hq.pullArrivals now
  | take _ now => exact hq.takeDue now
  | settle h => exact hq.settle? h
  | putBack _ now ws => exact hq.scheduleAll now ws
  | drain h => exact (hq.begin _ _).run h
  | drainAll h _ =>
    have hd := (hq.begin _ _).run h
    exact hd.congr rfl rfl rfl

theorem changes {policy : RetryPolicy} (h : ReflTransGen Change { policy } q) : q.Filed := by
  induction h with
  | refl => exact .fresh policy
  | tail _ step ih => exact ih.change step

/-! ## Telling one place from the other -/

/-- The slot of a new scheduling is free. -/
theorem ne_newSlot (h : q.Filed) (due : Instant) {e : Slot × WorkItem} (he : e ∈ q.pending) :
    e.1 ≠ ⟨due, q.seq + 1⟩ := by
  intro heq
  have hle := h.sound.seq_le e he
  rw [heq] at hle
  exact absurd hle (Nat.not_succ_le_self q.seq)

/-- The names in the index are those of the nodes that wait. -/
theorem names_perm (h : q.Filed) :
    (q.index.entries.map (·.1)).Perm (q.pending.map (·.2.node)) := by
  refine (List.perm_ext_iff_of_nodup h.distinct h.sound.nodes_nodup).2 fun node => ?_
  rw [← Table.exists_get?_iff, List.mem_map]
  constructor
  · rintro ⟨slot, hslot⟩
    obtain ⟨w, hw, hnode⟩ := (h.sound.index_iff node slot).1 hslot
    exact ⟨(slot, w), hw, hnode⟩
  · rintro ⟨e, he, hnode⟩
    exact ⟨e.1, (h.sound.index_iff node e.1).2 ⟨e.2, he, hnode⟩⟩

/-- A waiting item is found in its slot. -/
theorem find?_slot (h : q.Filed) {e : Slot × WorkItem} (he : e ∈ q.pending) :
    q.pending.find? (·.1 == e.1) = some e := by
  cases hfind : q.pending.find? (·.1 == e.1) with
  | none =>
    have hmiss := List.find?_eq_none.1 hfind e he
    exact absurd hmiss (by simp)
  | some e' =>
    have hslot : e'.1 = e.1 := by simpa using List.find?_some hfind
    rw [h.sound.slot_inj (List.mem_of_find?_eq_some hfind) he hslot]

theorem pendingRetries?_eq_some_iff (h : q.Filed) (node : String) (n : Nat) :
    q.pendingRetries? node = some n ↔
      ∃ e ∈ q.pending, e.2.node = node ∧ e.2.retries = n := by
  unfold pendingRetries?
  constructor
  · intro hn
    cases hslot : q.index.get? node with
    | none =>
      rw [hslot] at hn
      exact absurd hn (by simp)
    | some slot =>
      obtain ⟨w, hw, hnode⟩ := (h.sound.index_iff node slot).1 hslot
      have hfind : q.pending.find? (·.1 == slot) = some (slot, w) := h.find?_slot hw
      simp only [hslot, hfind, Option.map_some, Option.some.injEq] at hn
      exact ⟨(slot, w), hw, hnode, hn⟩
  · rintro ⟨e, he, hnode, hn⟩
    have hslot := (h.sound.index_iff node e.1).2 ⟨e.2, he, hnode⟩
    simp only [hslot, h.find?_slot he, Option.map_some, hn]

end Filed

/-- The index of a queue and its waiting items say the same. -/
structure Mirrored (q : RetryQueue) : Prop where
  /-- A name leads to a slot if and only if an item of that node waits in it. -/
  index_iff : ∀ node slot,
    q.index.get? node = some slot ↔ ∃ w, (slot, w) ∈ q.pending ∧ w.node = node
  /-- No node waits twice. -/
  nodes_nodup : (q.pending.map (·.2.node)).Nodup
  /-- The items are in the order of their slots. -/
  ordered : q.pending.Pairwise fun e e' => e.1.before e'.1 = true
  /-- No number of a scheduling is given to two items, -/
  seqs_nodup : (q.pending.map (·.1.seq)).Nodup
  /-- and none is ahead of the last one. -/
  seq_le : ∀ e ∈ q.pending, e.1.seq ≤ q.seq
  /-- An item that is scheduled gets a slot in which nothing waits, -/
  slot_free : ∀ due, ∀ e ∈ q.pending, e.1 ≠ ⟨due, q.seq + 1⟩
  /-- and takes the place of the item of its own node, and of no other one, -/
  schedule_pending : ∀ w due e, e ∈ (q.schedule w due).pending ↔
    e = (⟨due, q.seq + 1⟩, w) ∨ e ∈ q.pending ∧ e.2.node ≠ w.node
  /-- also in the index. -/
  schedule_index : ∀ w due node, (q.schedule w due).index.get? node =
    if node = w.node then some ⟨due, q.seq + 1⟩ else q.index.get? node
  /-- The index has as many names as there are waiting items, each of them once. -/
  length_eq : q.pending.length = q.index.size ∧ q.index.Distinct
  /-- There is a number of retries for just those nodes that wait, -/
  retries_isSome : ∀ node,
    (q.pendingRetries? node).isSome = true ↔ ∃ e ∈ q.pending, e.2.node = node
  /-- and it is that of the waiting item. -/
  retries_eq : ∀ e ∈ q.pending, q.pendingRetries? e.2.node = some e.2.retries

/-- Whatever is done to a queue, its index and its waiting items say the same. -/
theorem index_mirrors_pending {policy : RetryPolicy} {q : RetryQueue}
    (h : ReflTransGen Change { policy } q) : q.Mirrored := by
  have hq := Filed.changes h
  refine ⟨hq.sound.index_iff, hq.sound.nodes_nodup, hq.ordered, hq.sound.seqs_nodup,
    hq.sound.seq_le, fun due e he => hq.ne_newSlot due he, ?_, ?_, ⟨?_, hq.distinct⟩, ?_, ?_⟩
  · intro w due e
    rw [(hq.sound.schedule_pending_perm w due).mem_iff, List.mem_cons, List.mem_filter, bne_iff_ne]
  · intro w due node
    rw [RetryQueue.schedule_index, Table.get?_put]
  · have hlength := hq.names_perm.length_eq
    rw [List.length_map, List.length_map] at hlength
    exact hlength.symm
  · intro node
    rw [Option.isSome_iff_exists]
    constructor
    · rintro ⟨n, hn⟩
      obtain ⟨e, he, hnode, -⟩ := (hq.pendingRetries?_eq_some_iff node n).1 hn
      exact ⟨e, he, hnode⟩
    · rintro ⟨e, he, hnode⟩
      exact ⟨_, (hq.pendingRetries?_eq_some_iff node _).2 ⟨e, he, hnode, rfl⟩⟩
  · intro e he
    exact (hq.pendingRetries?_eq_some_iff e.2.node _).2 ⟨e, he, rfl, rfl⟩

/-- A node arrives again while its item is out, and is pulled. When the handler call is cancelled
afterwards, its item takes the place of the new one, in both places. -/
theorem index_mirrors_pending_late : ∃ q, ReflTransGen Change {} q ∧
    q.pending = [(⟨3, 2⟩, ⟨{ nodeName := "b" }, 0⟩), (⟨4, 4⟩, ⟨{ nodeName := "a" }, 0⟩)] ∧
    q.index.get? "a" = some ⟨4, 4⟩ ∧ q.Mirrored := by
  have hout := ((ReflTransGen.single (Change.enqueue {} { nodeName := "a" })).tail
    (.pull _ 0)).tail (.take _ 0)
  have hagain := ((hout.tail (.enqueue _ { nodeName := "b" })).tail
    (.enqueue _ { nodeName := "a", space := "c" })).tail (.pull _ 3)
  have hlate := hagain.tail (@Change.settle ⟨_, [], [], [], {}⟩ _ 4 ⟨{ nodeName := "a" }, 0⟩
    (.value (.error .cancelled)) rfl)
  exact ⟨_, hlate, rfl, rfl, index_mirrors_pending hlate⟩

end RetryQueue

end Rendezvous
