import Rendezvous.Proofs.Run
import Rendezvous.Proofs.Workload.Flips

/-!
# Patrols

A watcher on patrol lists the workloads again and again and sends what it has to report to a receiver,
change by change, before it lists them anew. It may be told to stop at any moment, which it heeds
between two listings, and the receiver may go away at any moment, which it finds out when it has a
change to send.

The patrols of the engine go by a timer, and their receiver goes away after so many changes; each of
them is a patrol in this sense.
-/

namespace Rendezvous

/-- What can be seen of a watcher on patrol. -/
inductive Sighting where
  /-- The workloads are listed, which may fail. -/
  | listed (answer : Option (List StatefulSet))
  /-- A change reaches the receiver. -/
  | delivered (e : WorkloadEvent)
  /-- The watcher is told to stop. -/
  | cancelled
  /-- The receiver goes away. -/
  | deserted

/-- The listings that were seen. -/
def answersIn (log : List Sighting) : List (Option (List StatefulSet)) :=
  log.filterMap fun
    | .listed answer => some answer
    | _ => none

/-- The changes that were seen to reach the receiver. -/
def deliveries (log : List Sighting) : List WorkloadEvent :=
  log.filterMap fun
    | .delivered e => some e
    | _ => none

@[simp] theorem answersIn_append (log log' : List Sighting) :
    answersIn (log ++ log') = answersIn log ++ answersIn log' :=
  List.filterMap_append

@[simp] theorem deliveries_append (log log' : List Sighting) :
    deliveries (log ++ log') = deliveries log ++ deliveries log' :=
  List.filterMap_append

@[simp] theorem answersIn_delivered (events : List WorkloadEvent) :
    answersIn (events.map .delivered) = [] := by
  simp [answersIn, List.filterMap_map]

@[simp] theorem deliveries_delivered (events : List WorkloadEvent) :
    deliveries (events.map .delivered) = events := by
  simp [deliveries, List.filterMap_map]

/-- A watcher on patrol. -/
structure Patrol where
  /-- What it knows. -/
  watcher : Watcher := {}
  /-- The changes of the last listing that have not been sent. -/
  outbox : List WorkloadEvent := []
  /-- Whether it was told to stop. -/
  isCancelled : Bool := false
  /-- Whether the receiver has gone away. -/
  isDeserted : Bool := false
  /-- Whether the patrol is over. -/
  isOver : Bool := false

namespace Patrol

variable {p q : Patrol} {log shown : List Sighting}

/-- How a patrol goes on. -/
inductive Step : Patrol → List Sighting → Patrol → Prop where
  /-- The workloads are listed anew once all changes have been sent. -/
  | list {p : Patrol} (on : p.isOver = false) (sent : p.outbox = [])
      (answer : Option (List StatefulSet)) :
      Step p [.listed answer]
        { p with
          watcher := (p.watcher.pollAnswer answer).2
          outbox := (p.watcher.pollAnswer answer).1 }
  /-- The next change is sent. -/
  | send {p : Patrol} (on : p.isOver = false) {e : WorkloadEvent} {rest : List WorkloadEvent}
      (next : p.outbox = e :: rest) (present : p.isDeserted = false) :
      Step p [.delivered e] { p with outbox := rest }
  /-- The next change cannot be sent, and that is the end. -/
  | giveUp {p : Patrol} (on : p.isOver = false) (unsent : p.outbox ≠ [])
      (gone : p.isDeserted = true) : Step p [] { p with isOver := true }
  /-- The watcher heeds that it was told to stop. -/
  | stop {p : Patrol} (on : p.isOver = false) (sent : p.outbox = [])
      (told : p.isCancelled = true) : Step p [] { p with isOver := true }
  /-- The watcher is told to stop. -/
  | cancel (p : Patrol) : Step p [.cancelled] { p with isCancelled := true }
  /-- The receiver goes away. -/
  | desert (p : Patrol) : Step p [.deserted] { p with isDeserted := true }

/-! ## What reaches the receiver -/

/-- What reaches the receiver of a patrol. -/
structure Delivers (log : List Sighting) (p : Patrol) : Prop where
  /-- What was reported has reached the receiver, in order, but for what has not been sent. -/
  inOrder : deliveries log ++ p.outbox = (Watcher.follow {} (answersIn log)).1
  /-- Before the workloads are listed anew, all that was reported has reached the receiver. -/
  settled : ∀ before answer after, log = before ++ .listed answer :: after →
    deliveries before = (Watcher.follow {} (answersIn before)).1
  /-- A patrol is over because the watcher was told to stop, and then all that was reported has
  reached the receiver, or because the receiver has gone away. -/
  ended : p.isOver = true → (.cancelled ∈ log ∧ p.outbox = []) ∨ .deserted ∈ log
  /-- Nothing reaches a receiver that has gone away. -/
  gone : ∀ before after, log = before ++ .deserted :: after → deliveries after = []
  /-- While the receiver is there and the patrol goes on, what has not been sent can be sent at once. -/
  ready : p.isOver = false → .deserted ∉ log →
    Run Step p (p.outbox.map .delivered) { p with outbox := [] }

/-- What was seen of a patrol tells what the watcher knows and what has happened to it. -/
structure Told (log : List Sighting) (p : Patrol) : Prop where
  /-- The watcher knows the listings. -/
  watcher : p.watcher = (Watcher.follow {} (answersIn log)).2
  /-- What was reported has reached the receiver or is still to be sent. -/
  inOrder : deliveries log ++ p.outbox = (Watcher.follow {} (answersIn log)).1
  /-- It was told to stop only if that was seen. -/
  cancelled : p.isCancelled = true → .cancelled ∈ log
  /-- The receiver has gone away only if that was seen. -/
  deserted : p.isDeserted = true → .deserted ∈ log
  /-- It is over for one of the two reasons. -/
  ended : p.isOver = true → (.cancelled ∈ log ∧ p.outbox = []) ∨ .deserted ∈ log

theorem Told.nil : Told [] {} :=
  ⟨rfl, rfl, by simp, by simp, by simp⟩

/-- What happens on a patrol is told by what is seen of it. -/
theorem Told.keep (h : Told log p) (step : Step p shown q) : Told (log ++ shown) q := by
  obtain ⟨hwatcher, hinOrder, hcancelled, hdeserted, hover⟩ := h
  -- a change moves from the answers to the outbox and from there to the deliveries, never past one
  -- that came before it
  cases step with
  | list on sent answer =>
    have hanswers : answersIn (log ++ [.listed answer]) = answersIn log ++ [answer] :=
      answersIn_append ..
    have hdeliveries : deliveries (log ++ [.listed answer]) = deliveries log := by
      simp [deliveries]
    refine ⟨?_, ?_, ?_, ?_, ?_⟩
    · rw [hanswers, Watcher.follow_append, Watcher.follow_singleton, ← hwatcher]
    · rw [sent, List.append_nil] at hinOrder
      rw [hanswers, hdeliveries, Watcher.follow_append, Watcher.follow_singleton, ← hwatcher,
        hinOrder]
    · exact fun told => List.mem_append_left _ (hcancelled told)
    · exact fun gone => List.mem_append_left _ (hdeserted gone)
    · exact fun done => absurd (on.symm.trans done) (by simp)
  | @send on e rest next present =>
    have hanswers : answersIn (log ++ [.delivered e]) = answersIn log := by simp [answersIn]
    have hdeliveries : deliveries (log ++ [.delivered e]) = deliveries log ++ [e] :=
      deliveries_append ..
    refine ⟨?_, ?_, ?_, ?_, ?_⟩
    · rwa [hanswers]
    · rw [hanswers, hdeliveries, List.append_assoc, List.singleton_append, ← next, hinOrder]
    · exact fun told => List.mem_append_left _ (hcancelled told)
    · exact fun gone => List.mem_append_left _ (hdeserted gone)
    · exact fun done => absurd (on.symm.trans done) (by simp)
  | giveUp on unsent gone =>
    rw [List.append_nil]
    exact ⟨hwatcher, hinOrder, hcancelled, hdeserted, fun _ => Or.inr (hdeserted gone)⟩
  | stop on sent told =>
    rw [List.append_nil]
    exact ⟨hwatcher, hinOrder, hcancelled, hdeserted, fun _ => Or.inl ⟨hcancelled told, sent⟩⟩
  | cancel =>
    refine ⟨?_, ?_, fun _ => by simp, ?_, ?_⟩
    · simpa [answersIn] using hwatcher
    · simpa [answersIn, deliveries] using hinOrder
    · exact fun gone => List.mem_append_left _ (hdeserted gone)
    · exact fun done => (hover done).imp (fun h => ⟨by simp, h.2⟩) (List.mem_append_left _)
  | desert =>
    refine ⟨?_, ?_, ?_, fun _ => by simp, fun _ => Or.inr (by simp)⟩
    · simpa [answersIn] using hwatcher
    · simpa [answersIn, deliveries] using hinOrder
    · exact fun told => List.mem_append_left _ (hcancelled told)

theorem told_of_run (h : Run Step {} log p) : Told log p :=
  h.preserves Told.nil fun h step => h.keep step

/-- Nothing is sent to a receiver that has gone away. -/
theorem deliveries_of_deserted (h : Run Step p log q) (hgone : p.isDeserted = true) :
    deliveries log = [] := by
  refine And.right (h.preserves (P := fun log q => q.isDeserted = true ∧ deliveries log = [])
    ⟨hgone, rfl⟩ fun {log t shown u} h step => ?_)
  obtain ⟨hgone, hnone⟩ := h
  rw [deliveries_append, hnone, List.nil_append]
  cases step with
  | send _ _ present => exact absurd (hgone.symm.trans present) (by simp)
  | desert => exact ⟨rfl, rfl⟩
  | list _ _ _ => exact ⟨hgone, rfl⟩
  | giveUp _ _ _ => exact ⟨hgone, rfl⟩
  | stop _ _ _ => exact ⟨hgone, rfl⟩
  | cancel => exact ⟨hgone, rfl⟩

/-- What has not been sent can be sent to a receiver that is there. -/
theorem run_send (on : p.isOver = false) (present : p.isDeserted = false) :
    Run Step p (p.outbox.map .delivered) { p with outbox := [] } := by
  obtain ⟨watcher, outbox, isCancelled, isDeserted, isOver⟩ := p
  induction outbox with
  | nil => exact .refl _
  | cons e rest ih => exact (Run.single (Step.send on rfl present)).trans (ih on present)

/-- The workloads are listed, and what is reported reaches a receiver that is there. -/
theorem run_list (on : p.isOver = false) (sent : p.outbox = []) (present : p.isDeserted = false)
    (answer : Option (List StatefulSet)) :
    Run Step p (.listed answer :: (p.watcher.pollAnswer answer).1.map .delivered)
      { p with watcher := (p.watcher.pollAnswer answer).2 } := by
  have hrun := (Run.single (Step.list on sent answer)).trans (run_send on present)
  rwa [← sent] at hrun

theorem Step.length_shown (h : Step p shown q) : shown.length ≤ 1 := by
  cases h <;> simp

/-- A run that shows something is a run before that, the step that shows it and a run after it. -/
theorem cut_at {before after : List Sighting} {e : Sighting}
    (h : Run Step {} log p) (hlog : log = before ++ e :: after) :
    ∃ t u, Run Step {} before t ∧ Step t [e] u ∧ Run Step u after p := by
  obtain ⟨t, u, log₁, shown₁, shown₂, log₂, hfirst, hstep, hsecond, rfl, rfl⟩ := h.split_at hlog
  -- the step that shows `e` shows nothing else
  have hlength := hstep.length_shown
  rw [List.length_append, List.length_cons] at hlength
  obtain rfl := List.length_eq_zero_iff.1 (show shown₁.length = 0 by omega)
  obtain rfl := List.length_eq_zero_iff.1 (show shown₂.length = 0 by omega)
  rw [List.append_nil, List.nil_append]
  exact ⟨t, u, hfirst, hstep, hsecond⟩

theorem delivers_of_run (h : Run Step {} log p) : Delivers log p := by
  have htold := told_of_run h
  refine ⟨htold.inOrder, ?_, htold.ended, ?_, ?_⟩
  · intro before answer after hlog
    obtain ⟨t, u, hfirst, hstep, -⟩ := cut_at h hlog
    have hinOrder := (told_of_run hfirst).inOrder
    cases hstep with
    | list _ sent _ => rwa [sent, List.append_nil] at hinOrder
  · intro before after hlog
    obtain ⟨t, u, -, hstep, hsecond⟩ := cut_at h hlog
    cases hstep with
    | desert => exact deliveries_of_deserted hsecond rfl
  · intro on hpresent
    exact run_send on (Bool.eq_false_iff.2 fun gone => hpresent (htold.deserted gone))

end Patrol

end Rendezvous
