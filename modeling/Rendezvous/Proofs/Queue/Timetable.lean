import Rendezvous.Proofs.Queue.Dispatch

/-!
# The timetable of a queue

What waits in a queue can be told from what was scheduled and when drains began. An item stands in
the timetable from the moment in which it is scheduled until its node is scheduled again or a drain
begins at its time or later, and the number of its slot counts the schedulings. The queue keeps the
timetable in the order of the slots.
-/

namespace Rendezvous

open scoped List

/-! ## The order of slots -/

namespace Slot

variable {a b c : Slot}

theorem before_iff : a.before b = true ↔ a.due < b.due ∨ a.due = b.due ∧ a.seq < b.seq := by
  simp [before]

theorem before_trans (hab : a.before b = true) (hbc : b.before c = true) : a.before c = true := by
  rw [before_iff] at hab hbc ⊢
  simp only [Instant] at *
  omega

/-- Of two slots the one that is not before the other is after it, if it was given out first. -/
theorem before_of_not_before (h : ¬ a.before b = true) (hseq : b.seq < a.seq) :
    b.before a = true := by
  rw [before_iff] at h ⊢
  simp only [Instant] at *
  omega

end Slot

namespace RetryQueue

/-- Waiting items in the order of their slots. -/
def Ordered (l : List (Slot × WorkItem)) : Prop :=
  l.Pairwise fun e e' => e.1.before e'.1 = true

theorem Ordered.insertSlot {l : List (Slot × WorkItem)} (h : Ordered l) {slot : Slot}
    (hseq : ∀ e ∈ l, e.1.seq < slot.seq) (w : WorkItem) : Ordered (insertSlot slot w l) := by
  induction l with
  | nil => exact List.pairwise_singleton _ _
  | cons e rest ih =>
    obtain ⟨hfirst, hrest⟩ := List.pairwise_cons.1 h
    obtain ⟨hlast, hlater⟩ := List.forall_mem_cons.1 hseq
    rw [RetryQueue.insertSlot]
    by_cases hbefore : slot.before e.1 = true
    · rw [if_pos hbefore]
      refine List.pairwise_cons.2 ⟨?_, h⟩
      intro x hx
      rcases List.mem_cons.1 hx with rfl | hx
      · exact hbefore
      · exact Slot.before_trans hbefore (hfirst x hx)
    · rw [if_neg hbefore]
      refine List.pairwise_cons.2 ⟨?_, ih hrest hlater⟩
      intro x hx
      rcases List.mem_cons.1 ((insertSlot_perm slot w rest).subset hx) with rfl | hx
      · exact Slot.before_of_not_before hbefore hlast
      · exact hfirst x hx

end RetryQueue

/-! ## The timetable -/

/-- What is scheduled, and when it is due. -/
def QueueEvent.scheduling? : QueueEvent → Option (Instant × WorkItem)
  | .pulled now p => some (now, ⟨p, 0⟩)
  | .scheduled due w => some (due, w)
  | _ => none

/-- What was scheduled, in order. -/
def schedulings (log : List QueueEvent) : List (Instant × WorkItem) := log.filterMap QueueEvent.scheduling?

/-- An item stands in the timetable: it was scheduled, and afterwards its node was not scheduled
again and no drain has begun at its time or later. -/
def Stands (log : List QueueEvent) (slot : Slot) (w : WorkItem) : Prop :=
  ∃ earlier e later, log = earlier ++ e :: later ∧ e.scheduling? = some (slot.due, w) ∧
    slot.seq = (schedulings earlier).length + 1 ∧
    ∀ x ∈ later, (∀ l, x.scheduling? = some l → l.2.node ≠ w.node) ∧
      ∀ now ws, x = .drained now ws → now < slot.due

theorem stands_nil (slot : Slot) (w : WorkItem) : ¬ Stands [] slot w := by
  rintro ⟨earlier, e, later, h, -⟩
  exact absurd h (by simp)

/-- One event more: it puts an item into the timetable, or leaves it there. -/
theorem stands_snoc {log : List QueueEvent} {e : QueueEvent} {slot : Slot} {w : WorkItem} :
    Stands (log ++ [e]) slot w ↔
      (e.scheduling? = some (slot.due, w) ∧ slot.seq = (schedulings log).length + 1) ∨
        Stands log slot w ∧ (∀ l, e.scheduling? = some l → l.2.node ≠ w.node) ∧
          ∀ now ws, e = .drained now ws → now < slot.due := by
  constructor
  · rintro ⟨earlier, x, later, hlog, hx, hseq, hlater⟩
    rcases List.eq_nil_or_concat later with rfl | ⟨later', x', rfl⟩
    · obtain ⟨rfl, hlast⟩ := List.append_inj' hlog rfl
      obtain rfl := (List.cons.inj hlast).1
      exact .inl ⟨hx, hseq⟩
    · rw [List.concat_eq_append, ← List.cons_append, ← List.append_assoc] at hlog
      obtain ⟨rfl, hlast⟩ := List.append_inj' hlog rfl
      obtain rfl := (List.cons.inj hlast).1
      rw [List.concat_eq_append, List.forall_mem_append] at hlater
      exact .inr ⟨⟨earlier, x, later', rfl, hx, hseq, hlater.1⟩, hlater.2 e List.mem_cons_self⟩
  · rintro (⟨he, hseq⟩ | ⟨⟨earlier, x, later, rfl, hx, hseq, hlater⟩, he⟩)
    · exact ⟨log, e, [], rfl, he, hseq, by simp⟩
    · refine ⟨earlier, x, later ++ [e], by simp, hx, hseq, ?_⟩
      rw [List.forall_mem_append]
      exact ⟨hlater, by simpa using he⟩

/-- An item goes on to stand in the timetable while nothing takes it out. -/
theorem Stands.append {log shown : List QueueEvent} {slot : Slot} {w : WorkItem} (h : Stands log slot w)
    (hshown : ∀ x ∈ shown, (∀ l, x.scheduling? = some l → l.2.node ≠ w.node) ∧
      ∀ now ws, x = .drained now ws → now < slot.due) : Stands (log ++ shown) slot w := by
  obtain ⟨earlier, e, later, rfl, he, hseq, hlater⟩ := h
  refine ⟨earlier, e, later ++ shown, by simp, he, hseq, ?_⟩
  rw [List.forall_mem_append]
  exact ⟨hlater, hshown⟩

namespace RetryQueue

/-- A queue keeps the timetable: what waits in it is what stands there, in the order of slots. -/
structure Keeps (log : List QueueEvent) (q : RetryQueue) : Prop where
  /-- The index and the waiting items are in step. -/
  sound : q.Sound
  /-- The waiting items are in order. -/
  ordered : Ordered q.pending
  /-- The schedulings are counted. -/
  seq_eq : q.seq = (schedulings log).length
  /-- What waits stands in the timetable. -/
  mem_iff : ∀ slot w, (slot, w) ∈ q.pending ↔ Stands log slot w

namespace Keeps

variable {log : List QueueEvent} {q q' : RetryQueue}

theorem fresh (policy : RetryPolicy) : Keeps [] { policy } :=
  ⟨.fresh policy, List.Pairwise.nil, rfl, fun slot w => by simp [stands_nil]⟩

/-- Only what waits matters, not how the queue retries, what arrives or what it has done. -/
theorem congr (h : Keeps log q) (hp : q'.pending = q.pending) (hi : q'.index = q.index)
    (hs : q'.seq = q.seq) : Keeps log q' :=
  ⟨h.sound.congr hp hi hs, by rw [hp]; exact h.ordered, hs.trans h.seq_eq,
    fun slot w => by rw [hp]; exact h.mem_iff slot w⟩

/-- An event that neither schedules anything nor begins a drain changes no timetable. -/
theorem skip (h : Keeps log q) {e : QueueEvent} (hnone : e.scheduling? = none)
    (hdrain : e.isDrain = false) : Keeps (log ++ [e]) q := by
  refine ⟨h.sound, h.ordered, ?_, fun slot w => ?_⟩
  · rw [h.seq_eq, schedulings, schedulings, List.filterMap_append]
    simp [hnone]
  · have hno : ∀ now ws, e ≠ .drained now ws := by
      rintro now ws rfl
      exact absurd hdrain (by simp [QueueEvent.isDrain])
    rw [h.mem_iff, stands_snoc]
    simp [hnone, hno]

theorem skipAll (h : Keeps log q) {shown : List QueueEvent}
    (hshown : ∀ e ∈ shown, e.scheduling? = none ∧ e.isDrain = false) : Keeps (log ++ shown) q := by
  induction shown generalizing log with
  | nil => rwa [List.append_nil]
  | cons e shown ih =>
    rw [List.forall_mem_cons] at hshown
    have hrest := ih (h.skip hshown.1.1 hshown.1.2) hshown.2
    rwa [List.append_assoc] at hrest

theorem schedule (h : Keeps log q) {e : QueueEvent} {due : Instant} {w : WorkItem}
    (he : e.scheduling? = some (due, w)) : Keeps (log ++ [e]) (q.schedule w due) := by
  have hdrain : ∀ now ws, e ≠ .drained now ws := by
    rintro now ws rfl
    exact absurd he (by simp [QueueEvent.scheduling?])
  refine ⟨h.sound.schedule w due, ?_, ?_, fun slot v => ?_⟩
  · rw [h.sound.schedule_pending]
    refine Ordered.insertSlot (h.ordered.sublist List.filter_sublist) (fun e he => ?_) w
    exact Nat.lt_succ_of_le (h.sound.seq_le e (List.mem_of_mem_filter he))
  · rw [schedule_seq, h.seq_eq, schedulings, schedulings, List.filterMap_append]
    simp [he]
  · rw [(h.sound.schedule_pending_perm w due).mem_iff, List.mem_cons, List.mem_filter, h.mem_iff,
      stands_snoc, he, h.seq_eq]
    obtain ⟨d, n⟩ := slot
    simp only [Prod.mk.injEq, Slot.mk.injEq, Option.some.injEq, hdrain, false_implies,
      implies_true, and_true, bne_iff_ne, forall_eq']
    constructor
    · rintro (⟨⟨rfl, rfl⟩, rfl⟩ | ⟨hstands, hne⟩)
      · exact .inl ⟨⟨rfl, rfl⟩, rfl⟩
      · exact .inr ⟨hstands, hne.symm⟩
    · rintro (⟨⟨rfl, rfl⟩, rfl⟩ | ⟨hstands, hne⟩)
      · exact .inl ⟨⟨rfl, rfl⟩, rfl⟩
      · exact .inr ⟨hstands, hne.symm⟩

/-- A drain takes out what is due and leaves everything else in its slot. -/
theorem takeDue (h : Keeps log q) (now : Instant) (ws : List WorkItem) :
    Keeps (log ++ [.drained now ws]) (q.takeDue now).2 := by
  refine ⟨h.sound.takeDue now, h.ordered.sublist List.filter_sublist, ?_, fun slot w => ?_⟩
  · rw [schedulings, List.filterMap_append]
    simp only [QueueEvent.scheduling?, List.filterMap_cons, List.filterMap_nil, List.append_nil]
    exact h.seq_eq
  · rw [takeDue_pending, List.mem_filter, h.mem_iff, stands_snoc]
    simp [QueueEvent.scheduling?]

theorem pullAll (h : Keeps log q) (now : Instant) (ps : List Peer) :
    Keeps (log ++ ps.map (.pulled now)) (ps.foldl (RetryQueue.pullOne · now) q) := by
  induction ps generalizing log q with
  | nil => simpa using h
  | cons p ps ih =>
    have hcounted :
        Keeps log { q with stats := { q.stats with enqueued := q.stats.enqueued + 1 } } :=
      h.congr rfl rfl rfl
    have hall := ih (hcounted.schedule (e := .pulled now p) rfl)
    rwa [List.append_assoc] at hall

theorem pullArrivals (h : Keeps log q) (now : Instant) :
    Keeps (log ++ q.arrivals.map (.pulled now)) (q.pullArrivals now) := by
  rw [pullArrivals_eq]
  exact pullAll (q := { q with arrivals := [] }) (h.congr rfl rfl rfl) now _

end Keeps

end RetryQueue

end Rendezvous
