import Rendezvous.Proofs.Workload.Patrols

/-!
# Rounds on a timer

A watcher that lists the workloads on a timer goes on patrol: it lists them once for each interval that
has begun, and its receiver takes what is reported, change by change and in order, until it has had
enough.
-/

namespace Rendezvous

/-- So many elements of a list, or all of them if there is no limit. -/
def upTo {α : Type} : Option Nat → List α → List α
  | none, as => as
  | some room, as => as.take room

theorem upTo_append_of_full {α : Type} {room : Nat} {as : List α} (h : room ≤ as.length)
    (bs : List α) : upTo (some room) (as ++ bs) = upTo (some room) as :=
  List.take_append_of_le_length h

namespace Delivery

/-- What a receiver has taken, put beside a patrol. The receiver goes away when it has no room left. -/
structure Matches (room : Option Nat) (d : Delivery) (log : List Sighting) (p : Patrol) : Prop where
  /-- It has taken what was delivered, as far as it had room. -/
  taken : d.taken.map (·.2) = upTo room (deliveries log)
  /-- The room that is left. -/
  room_eq : d.room = room.map (· - (deliveries log).length)
  /-- It has gone away if no room is left. -/
  deserted : p.isDeserted = true ↔ d.room = some 0
  /-- A change could not be sent if and only if one is left. -/
  unsent : d.refused = true ↔ p.outbox ≠ []
  /-- That happens only if no room is left. -/
  full : d.refused = true → d.room = some 0
  /-- The patrol is over if and only if a change could not be sent. -/
  ended : p.isOver = d.refused

variable {room : Option Nat} {d : Delivery} {log : List Sighting} {p : Patrol}

/-- A receiver that has room left takes what is sent as far as it has room. -/
theorem send_of_room {earlier : List WorkloadEvent} (htaken : d.taken.map (·.2) = upTo room earlier)
    (hroom : d.room = room.map (· - earlier.length)) (hleft : d.room ≠ some 0) (now : Instant)
    (events : List WorkloadEvent) :
    (d.send now events).taken.map (·.2) = upTo room (earlier ++ events) ∧
      (d.send now events).room = room.map (· - (earlier ++ events).length) ∧
        (d.send now events).refused = d.refused := by
  have hstamped : ∀ events : List WorkloadEvent, (events.map (now, ·)).map (·.2) = events :=
    fun events => by rw [List.map_map]; exact List.map_id _
  cases hd : d.room with
  | none =>
    obtain rfl : room = none := by simpa [hd] using hroom.symm
    have hsend : d.send now events = { d with taken := d.taken ++ events.map (now, ·) } := by
      simp [send, hd]
    rw [hsend, List.map_append, htaken, hstamped]
    exact ⟨rfl, hd, rfl⟩
  | some left =>
    obtain ⟨limit, rfl, hlimit⟩ : ∃ limit, room = some limit ∧ limit - earlier.length = left :=
      Option.map_eq_some_iff.1 (hroom.symm.trans hd)
    cases left with
    | zero => exact absurd hd hleft
    | succ left =>
      have hsend : d.send now events =
          { d with
            room := some (left + 1 - events.length)
            taken := d.taken ++ (events.take (left + 1)).map (now, ·) } := by
        simp [send, hd]
      rw [hsend, List.map_append, htaken, hstamped]
      refine ⟨?_, ?_, rfl⟩
      · show earlier.take limit ++ events.take (left + 1) = (earlier ++ events).take limit
        rw [List.take_append, hlimit]
      · show some (left + 1 - events.length) = some (limit - (earlier ++ events).length)
        rw [List.length_append, ← hlimit, Nat.sub_sub]

/-- How a listing is reported to a receiver: a patrol that matches what was taken before lists the
workloads, and then matches what has been taken since. -/
def Reported (room : Option Nat) (d : Delivery) (now : Instant)
    (answer : Option (List StatefulSet)) (log : List Sighting) (p : Patrol) : Prop :=
  ∃ shown q, Run Patrol.Step p (.listed answer :: shown) q ∧ answersIn shown = [] ∧
    q.watcher = (p.watcher.pollAnswer answer).2 ∧
      Matches room (d.send now (p.watcher.pollAnswer answer).1) (log ++ .listed answer :: shown) q

theorem deliveries_listed (log shown : List Sighting) (answer : Option (List StatefulSet)) :
    deliveries (log ++ .listed answer :: shown) = deliveries log ++ deliveries shown := by
  simp [deliveries]

/-- To a receiver that has gone away, any change is one too many. -/
theorem Matches.reported_of_full (h : Matches room d log p) (hkept : d.refused = false)
    (hfull : d.room = some 0) (now : Instant) (answer : Option (List StatefulSet)) :
    Reported room d now answer log p := by
  obtain ⟨htaken, hroom, hdeserted, hunsent, -, hover⟩ := h
  rw [hkept] at hunsent hover
  have hsent : p.outbox = [] := by simpa using hunsent
  have hlisted := Run.single (Patrol.Step.list hover hsent answer)
  have hsame : deliveries (log ++ [.listed answer]) = deliveries log := by simp [deliveries]
  unfold Reported
  generalize (p.watcher.pollAnswer answer).1 = events at hlisted ⊢
  cases events with
  | nil =>
    have hsend : d.send now [] = d := by simp [send, hfull]
    refine ⟨[], _, hlisted, rfl, rfl, ?_⟩
    rw [hsend]
    refine ⟨?_, ?_, hdeserted, by simp [hkept], fun _ => hfull, hover.trans hkept.symm⟩
    · rwa [hsame]
    · rwa [hsame]
  | cons e rest =>
    have hsend : d.send now (e :: rest) = { d with refused := true } := by simp [send, hfull]
    have hended :=
      hlisted.tail (Patrol.Step.giveUp hover (List.cons_ne_nil e rest) (hdeserted.2 hfull))
    refine ⟨[], _, hended, rfl, rfl, ?_⟩
    rw [hsend]
    refine ⟨?_, ?_, hdeserted, by simp, fun _ => hfull, rfl⟩
    · rwa [hsame]
    · rwa [hsame]

/-- A receiver that has room left goes away after a listing if it has had enough. -/
theorem Matches.reported_of_room (h : Matches room d log p) (hkept : d.refused = false)
    (hleft : d.room ≠ some 0) (now : Instant) (answer : Option (List StatefulSet)) :
    Reported room d now answer log p := by
  obtain ⟨htaken, hroom, hdeserted, hunsent, -, hover⟩ := h
  rw [hkept] at hunsent hover
  have hsent : p.outbox = [] := by simpa using hunsent
  have hpresent : p.isDeserted = false := Bool.eq_false_iff.2 fun gone => hleft (hdeserted.1 gone)
  have hrun := Patrol.run_list hover hsent hpresent answer
  unfold Reported
  generalize (p.watcher.pollAnswer answer).1 = events at hrun ⊢
  obtain ⟨htaken', hroom', hrefused⟩ := send_of_room htaken hroom hleft now events
  rw [hkept] at hrefused
  by_cases hfull : (d.send now events).room = some 0
  -- the receiver has taken its last change, and goes away once all have been sent
  · have hended := hrun.tail (Patrol.Step.desert _)
    rw [List.cons_append] at hended
    refine ⟨_, _, hended, by simp [answersIn], rfl, ?_, ?_, by simp [hfull],
      by simp [hrefused, hsent], by simp [hrefused], by simp [hrefused, hover]⟩
    · rw [deliveries_listed, deliveries_append, deliveries_delivered, htaken']
      simp [deliveries]
    · rw [deliveries_listed, deliveries_append, deliveries_delivered, hroom']
      simp [deliveries]
  · refine ⟨_, _, hrun, by simp, rfl, ?_, ?_, by simp [hfull, hpresent],
      by simp [hrefused, hsent], by simp [hrefused], by simp [hrefused, hover]⟩
    · rw [deliveries_listed, deliveries_delivered, htaken']
    · rw [deliveries_listed, deliveries_delivered, hroom']

theorem Matches.reported (h : Matches room d log p) (hkept : d.refused = false) (now : Instant)
    (answer : Option (List StatefulSet)) : Reported room d now answer log p := by
  by_cases hfull : d.room = some 0
  · exact h.reported_of_full hkept hfull now answer
  · exact h.reported_of_room hkept hfull now answer

/-- A receiver that has not taken anything matches a patrol that has not begun. -/
theorem exists_matches_nil (room : Option Nat) :
    ∃ log p, Run Patrol.Step {} log p ∧ answersIn log = [] ∧ p.watcher = {} ∧
      Matches room { room } log p := by
  have hnone : upTo room ([] : List WorkloadEvent) = [] := by cases room <;> simp [upTo]
  by_cases hfull : room = some 0
  · subst hfull
    exact ⟨_, _, Run.single (.desert {}), rfl, rfl, by simp [upTo], rfl, by simp, by simp, by simp, rfl⟩
  · refine ⟨[], {}, .refl _, rfl, rfl, hnone.symm, ?_, by simp [hfull], by simp, by simp, rfl⟩
    simp [deliveries]

end Delivery

/-! ## The timer -/

/-- The instant at which so many intervals have passed. -/
def roundAt (interval : Duration) (k : Nat) : Instant := k * interval.nanos

/-- A timer at the beginning of a round: it is set for it, and the clock shows a whole millisecond that
is not later. -/
structure Ticker.AtRound (interval : Duration) (k : Nat) (now : Instant) : Prop where
  /-- The clock shows a whole millisecond. -/
  whole : nanosPerMilli ∣ now
  /-- It is not later than the round. -/
  early : now / nanosPerMilli ≤ Instant.tick (roundAt interval k)

theorem Instant.tick_mono {a b : Instant} (h : a ≤ b) : tick a ≤ tick b :=
  Nat.div_le_div_right (Nat.add_le_add_right h _)

/-- A timer goes off less than a millisecond after the instant for which it is set. -/
theorem Instant.tick_mul_lt (a : Instant) : tick a * nanosPerMilli < a + nanosPerMilli := by
  have h := Nat.div_mul_le_self (a + (nanosPerMilli - 1)) nanosPerMilli
  unfold tick
  unfold nanosPerMilli at h ⊢
  omega

/-- When the timer goes off for a round, it is set for the next one. -/
theorem Ticker.AtRound.next {interval : Duration} {k : Nat} {now : Instant}
    (h : AtRound interval k now) :
    let later := Instant.moveTo now (Instant.tick (roundAt interval k))
    Ticker.next ⟨roundAt interval k, interval⟩ later = ⟨roundAt interval (k + 1), interval⟩ ∧
      AtRound interval (k + 1) later := by
  intro later
  have hlater : later = Instant.tick (roundAt interval k) * nanosPerMilli := by
    have hnow := Nat.div_mul_cancel h.whole
    show now + (Instant.tick (roundAt interval k) - now / nanosPerMilli) * nanosPerMilli = _
    have hle := Nat.mul_le_mul_right nanosPerMilli h.early
    rw [hnow] at hle
    rw [Nat.sub_mul, hnow, Nat.add_sub_cancel' hle]
  have hround : roundAt interval (k + 1) = roundAt interval k + interval.nanos :=
    Nat.succ_mul k interval.nanos
  have hpunctual := Instant.tick_mul_lt (roundAt interval k)
  refine ⟨?_, ?_, ?_⟩
  · rw [Ticker.next, if_neg, hround]
    have htolerance : nanosPerMilli ≤ tolerance.nanos := by decide
    rw [hlater]
    exact Nat.not_lt.2 (hpunctual.le.trans (Nat.add_le_add_left htolerance _))
  · exact ⟨_, hlater.trans (Nat.mul_comm _ _)⟩
  · rw [hlater, Nat.mul_div_cancel _ (by decide), hround]
    exact Instant.tick_mono (Nat.le_add_right _ _)

namespace Watcher

/-- What comes of a watcher that lists the workloads on a timer for so long. -/
structure KeepsRounds (interval length : Duration) (room : Option Nat)
    (answers : List (Option (List StatefulSet))) (d : Delivery) (n : Nat) : Prop where
  /-- There are that many listings. -/
  listed : n ≤ answers.length
  /-- The workloads are listed only in rounds that begin before the end. -/
  early : ∀ k < n, Instant.tick (roundAt interval k) < Instant.tick length.nanos
  /-- They are listed in all of these rounds, unless a change could not be sent. -/
  complete : n < answers.length →
    d.refused = true ∨ Instant.tick length.nanos ≤ Instant.tick (roundAt interval n)
  /-- The receiver takes what these listings have to report, in order, as far as it has room. -/
  taken : d.taken.map (·.2) = upTo room (follow {} (answers.take n)).1
  /-- A change could not be sent only if the receiver had no room for all of them. -/
  refused : d.refused = true → ∃ limit, room = some limit ∧
    limit < (follow {} (answers.take n)).1.length
  /-- This is a patrol. -/
  patrol : ∃ log p, Run Patrol.Step {} log p ∧ answersIn log = answers.take n ∧
    d.taken.map (·.2) = upTo room (deliveries log) ∧ p.isOver = d.refused

variable {interval : Duration} {room : Option Nat}

/-- A watcher that begins a round goes on patrol. -/
theorem runPolls_patrols (endTick : Nat) (answers : List (Option (List StatefulSet)))
    {k : Nat} {now : Instant} {d : Delivery} {log : List Sighting} {p : Patrol}
    (hround : Ticker.AtRound interval k now) (h : Delivery.Matches room d log p)
    (hkept : d.refused = false) :
    ∃ shown q n, Run Patrol.Step p shown q ∧
      Delivery.Matches room (runPolls endTick p.watcher ⟨roundAt interval k, interval⟩ now d answers)
        (log ++ shown) q ∧
      answersIn shown = answers.take n ∧ n ≤ answers.length ∧
      (∀ i < n, Instant.tick (roundAt interval (k + i)) < endTick) ∧
      (n < answers.length →
        (runPolls endTick p.watcher ⟨roundAt interval k, interval⟩ now d answers).refused = true ∨
          endTick ≤ Instant.tick (roundAt interval (k + n))) := by
  induction answers generalizing k now d log p with
  | nil =>
    refine ⟨[], p, 0, .refl p, ?_, rfl, le_rfl, by simp, by simp⟩
    rw [List.append_nil]
    exact h
  | cons answer answers ih =>
    rw [runPolls]
    simp only
    by_cases hend : endTick ≤ Instant.tick (roundAt interval k)
    · rw [if_pos hend]
      refine ⟨[], p, 0, .refl p, ?_, rfl, Nat.zero_le _, by simp, fun _ => Or.inr hend⟩
      rw [List.append_nil]
      exact h
    · rw [if_neg hend]
      obtain ⟨hnext, hround'⟩ := hround.next
      generalize Instant.moveTo now (Instant.tick (roundAt interval k)) = later at hnext hround' ⊢
      obtain ⟨shown, q, hrun, hshown, hwatcher, hmatches⟩ := h.reported hkept later answer
      have hanswers : answersIn (.listed answer :: shown) = [answer] := by
        rw [← hshown]
        rfl
      have hfirst : ∀ i < 1, Instant.tick (roundAt interval (k + i)) < endTick := by
        intro i hi
        obtain rfl := Nat.lt_one_iff.1 hi
        exact Nat.not_le.1 hend
      generalize hd : d.send later (p.watcher.pollAnswer answer).1 = d' at hmatches ⊢
      by_cases hrefused : d'.refused = true
      · rw [if_pos hrefused]
        exact ⟨_, q, 1, hrun, hmatches, hanswers, by simp, hfirst, fun _ => Or.inl hrefused⟩
      · rw [if_neg hrefused, hnext, ← hwatcher]
        obtain ⟨shown', q', n, hrun', hmatches', hanswers', hn, hearly, hcomplete⟩ :=
          ih hround' hmatches (Bool.not_eq_true _ ▸ hrefused)
        refine ⟨_, q', n + 1, hrun.trans hrun', ?_, ?_, Nat.succ_le_succ hn, ?_, ?_⟩
        · rwa [← List.append_assoc]
        · rw [answersIn_append, hanswers, hanswers']
          rfl
        · intro i hi
          cases i with
          | zero => exact hfirst 0 Nat.one_pos
          | succ i =>
            have hlater := hearly i (Nat.lt_of_succ_lt_succ hi)
            rwa [Nat.add_assoc, Nat.add_comm 1 i] at hlater
        · intro hlt
          have hlater := hcomplete (Nat.lt_of_succ_lt_succ hlt)
          rwa [Nat.add_assoc, Nat.add_comm 1 n] at hlater

/-- A watcher on a timer keeps its rounds, if the timer has an interval. -/
theorem run?_keepsRounds (hinterval : interval.nanos ≠ 0) (length : Duration) (room : Option Nat)
    (answers : List (Option (List StatefulSet))) :
    ∃ d n, run? interval length room answers = some d ∧
      KeepsRounds interval length room answers d n := by
  obtain ⟨log, p, hfirst, hnone, hwatcher, hmatches⟩ := Delivery.exists_matches_nil room
  have hround : Ticker.AtRound interval 0 0 := ⟨Nat.dvd_zero _, Nat.zero_le _⟩
  obtain ⟨shown, q, n, hrun, hmatches', hanswers, hn, hearly, hcomplete⟩ :=
    runPolls_patrols (Instant.tick length.nanos) answers hround hmatches rfl
  have hstart : Ticker.start? 0 interval = some ⟨roundAt interval 0, interval⟩ := by
    rw [Ticker.start?, if_neg hinterval, roundAt, Nat.zero_mul]
  rw [hwatcher] at hmatches' hcomplete
  generalize hd : runPolls (Instant.tick length.nanos) {} ⟨roundAt interval 0, interval⟩ 0 { room }
    answers = d at hmatches' hcomplete
  have hpatrol := hfirst.trans hrun
  have hall : answersIn (log ++ shown) = answers.take n := by
    rw [answersIn_append, hnone, hanswers, List.nil_append]
  have hinOrder := (Patrol.told_of_run hpatrol).inOrder
  rw [hall] at hinOrder
  -- what could not be sent is beyond the room that there was
  have hfull : d.refused = true → ∃ limit, room = some limit ∧
      limit ≤ (deliveries (log ++ shown)).length := by
    intro hrefused
    obtain ⟨limit, rfl, hlimit⟩ :=
      Option.map_eq_some_iff.1 (hmatches'.room_eq.symm.trans (hmatches'.full hrefused))
    exact ⟨limit, rfl, Nat.sub_eq_zero_iff_le.1 hlimit⟩
  refine ⟨d, n, by rw [run?, hstart, Option.map_some, hd], hn, ?_, ?_, ?_, ?_,
    ⟨_, q, hpatrol, hall, hmatches'.taken, hmatches'.ended⟩⟩
  · intro k hk
    have hbefore := hearly k hk
    rwa [Nat.zero_add] at hbefore
  · intro hlt
    have hend := hcomplete hlt
    rwa [Nat.zero_add] at hend
  · rw [hmatches'.taken, ← hinOrder]
    by_cases hrefused : d.refused = true
    · obtain ⟨limit, rfl, hlimit⟩ := hfull hrefused
      exact (upTo_append_of_full hlimit _).symm
    · have hsent : q.outbox = [] := not_not.1 fun hleft => hrefused (hmatches'.unsent.2 hleft)
      rw [hsent, List.append_nil]
  · intro hrefused
    obtain ⟨limit, hroom, hlimit⟩ := hfull hrefused
    have hleft := List.length_pos_of_ne_nil (hmatches'.unsent.1 hrefused)
    refine ⟨limit, hroom, ?_⟩
    rw [← hinOrder, List.length_append]
    omega

/-- A watcher reports exactly the flips of readiness, and delivers what it reports: whatever the
workloads are listed as, and whenever a listing fails, what is reported of a node alternates, begins
with its becoming ready and agrees with its last entry; whenever the watcher is told to stop or the
receiver goes away, what was reported reaches the receiver in order up to then; and a watcher on a
timer does this in every round until the end, for as many changes as the receiver has room. -/
theorem readiness_flips_reported :
    (∀ answers, ReportsFlips answers) ∧
      (∀ log p, Run Patrol.Step {} log p → Patrol.Delivers log p) ∧
      ∀ (interval length : Duration) (room : Option Nat)
        (answers : List (Option (List StatefulSet))), interval.nanos ≠ 0 →
        ∃ d n, run? interval length room answers = some d ∧
          KeepsRounds interval length room answers d n :=
  ⟨reportsFlips, fun _ _ => Patrol.delivers_of_run, fun _ length room answers hinterval =>
    run?_keepsRounds hinterval length room answers⟩

/-- A workload is listed first not ready and then, after a listing that fails, ready; one change is
reported and delivered before the watcher is told to stop. -/
theorem readiness_flips_reported_late : ∃ log p, Run Patrol.Step {} log p ∧ p.isOver = true ∧
    answersIn log = [some [⟨"da", 1, 0, 1⟩], none, some [⟨"da", 1, 1, 1⟩]] ∧
      deliveries log = [⟨"da-0", true⟩] := by
  have hfirst := Patrol.run_list (p := {}) rfl rfl rfl (some [⟨"da", 1, 0, 1⟩])
  have hfailed := hfirst.trans (Patrol.run_list rfl rfl rfl none)
  have hready := hfailed.trans (Patrol.run_list rfl rfl rfl (some [⟨"da", 1, 1, 1⟩]))
  have hstopped := (hready.tail (Patrol.Step.cancel _)).tail (Patrol.Step.stop rfl rfl rfl)
  have hinOrder := (readiness_flips_reported.2.1 _ _ hstopped).inOrder
  refine ⟨_, _, hstopped, rfl, rfl, ?_⟩
  rw [List.append_nil] at hinOrder
  rw [hinOrder]
  decide

end Watcher

end Rendezvous
