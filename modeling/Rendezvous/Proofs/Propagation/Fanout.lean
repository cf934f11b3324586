import Mathlib.Data.List.Nodup
import Rendezvous.Proofs.Numbered
import Rendezvous.Proofs.Run
import Rendezvous.Propagation.Basic

/-!
# Propagations reach everybody

Each write of a propagation first starts its command and then ends, whenever and however it does. A
propagation that is not stopped starts one command for each ordered pair of members of which the first
has a usable address, waits until all of them have ended, and counts each of them once; one that is
stopped has started none of them twice.
-/

namespace Rendezvous

open scoped List

/-! ## The writes of a group -/

/-- Between whom a write is. -/
def TrustWrite.pair (w : TrustWrite) : String × String := (w.source, w.request.node)

namespace PeerGroup

variable {g : PeerGroup} {records : List (String × String)} {w : TrustWrite} {s : Peer}

/-- A write passes on the usable address of one member to another one. -/
def Due (g : PeerGroup) (records : List (String × String)) (w : TrustWrite) : Prop :=
  ∃ s ∈ g.peers, ∃ t ∈ g.peers, t.nodeName ≠ s.nodeName ∧
    ∃ address, usableAddress? records s = some address ∧
      w = ⟨s.nodeName, .main t (.appendTrustedPeer address g.trustedPeersDir)⟩

/-- The members with a usable address. -/
def resolved (g : PeerGroup) (records : List (String × String)) : List Peer :=
  g.peers.filter fun s => (usableAddress? records s).isSome

theorem usableAddress?_eq_some {address : String} :
    usableAddress? records s = some address ↔
      (records.find? (·.1 == s.nodeName)).map (·.2) = some address ∧ hasLead address = true := by
  unfold usableAddress?
  cases records.find? (·.1 == s.nodeName) with
  | none => simp
  | some record =>
    dsimp only [Option.map_some]
    by_cases hlead : hasLead record.2 = true
    · rw [if_pos hlead]
      constructor
      · rintro h
        obtain rfl := Option.some.inj h
        exact ⟨rfl, hlead⟩
      · exact And.left
    · rw [if_neg hlead]
      simp only [reduceCtorEq, Option.some.injEq, false_iff, not_and]
      rintro rfl
      exact hlead

theorem mem_writesOf : w ∈ g.writesOf records s ↔
    ∃ t ∈ g.peers, t.nodeName ≠ s.nodeName ∧ ∃ address, usableAddress? records s = some address ∧
      w = ⟨s.nodeName, .main t (.appendTrustedPeer address g.trustedPeersDir)⟩ := by
  unfold writesOf
  cases usableAddress? records s with
  | none => simp
  | some address =>
    simp only [List.mem_map, List.mem_filter, bne_iff_ne, Option.some.injEq]
    constructor
    · rintro ⟨t, ⟨ht, hne⟩, rfl⟩
      exact ⟨t, ht, hne, address, rfl, rfl⟩
    · rintro ⟨t, ht, hne, address', rfl, rfl⟩
      exact ⟨t, ⟨ht, hne⟩, rfl⟩

theorem mem_trustWrites : w ∈ g.trustWrites records ↔ g.Due records w := by
  unfold trustWrites Due
  simp only [List.mem_flatMap, mem_writesOf]

/-- The writes that pass on one address go to different members. -/
theorem nodup_writesOf (hnames : (g.peers.map Peer.nodeName).Nodup) (s : Peer) :
    ((g.writesOf records s).map TrustWrite.pair).Nodup := by
  unfold writesOf
  cases usableAddress? records s with
  | none => exact List.nodup_nil
  | some address =>
    have hothers : ((g.peers.filter fun t => t.nodeName != s.nodeName).map Peer.nodeName).Nodup :=
      hnames.sublist (List.filter_sublist.map _)
    have hinj : Function.Injective (fun t : String => (s.nodeName, t)) :=
      fun _ _ h => (Prod.mk.inj h).2
    have hpairs := hothers.map hinj
    rw [List.map_map] at hpairs
    dsimp only
    rw [List.map_map]
    exact hpairs

/-- No two writes are between the same members. -/
theorem nodup_trustWrites (hnames : (g.peers.map Peer.nodeName).Nodup) :
    ((g.trustWrites records).map TrustWrite.pair).Nodup := by
  unfold trustWrites
  rw [List.map_flatMap, List.nodup_flatMap]
  refine ⟨fun s _ => nodup_writesOf hnames s, ?_⟩
  refine (List.pairwise_map.1 hnames).imp fun {s s'} hne => ?_
  -- The writes of two members differ in their first components.
  intro pair hpair hpair'
  obtain ⟨w, hw, rfl⟩ := List.mem_map.1 hpair
  obtain ⟨w', hw', heq⟩ := List.mem_map.1 hpair'
  obtain ⟨t, -, -, address, -, rfl⟩ := mem_writesOf.1 hw
  obtain ⟨t', -, -, address', -, rfl⟩ := mem_writesOf.1 hw'
  exact hne (Prod.mk.inj heq).1.symm

/-- All members but one. -/
theorem length_others (hnames : (g.peers.map Peer.nodeName).Nodup) (hs : s ∈ g.peers) :
    (g.peers.filter fun t => t.nodeName != s.nodeName).length = g.peers.length - 1 := by
  have hcount : (g.peers.map Peer.nodeName).count s.nodeName = 1 :=
    List.count_eq_one_of_mem hnames (List.mem_map_of_mem hs)
  rw [List.count, List.countP_map] at hcount
  have hsplit := @List.length_eq_countP_add_countP _ ((· == s.nodeName) ∘ Peer.nodeName) g.peers
  have hothers : (g.peers.filter fun t => t.nodeName != s.nodeName).length =
      g.peers.countP fun t => decide ¬ ((· == s.nodeName) ∘ Peer.nodeName) t = true := by
    rw [List.countP_eq_length_filter]
    refine congrArg List.length (List.filter_congr fun t _ => ?_)
    by_cases ht : t.nodeName = s.nodeName <;> simp [ht]
  omega

/-- One write for each member with a usable address and each of the others. -/
theorem length_trustWrites (hnames : (g.peers.map Peer.nodeName).Nodup) :
    (g.trustWrites records).length = (g.resolved records).length * (g.peers.length - 1) := by
  have hlength : ∀ ss : List Peer, (∀ s ∈ ss, s ∈ g.peers) →
      (ss.flatMap (g.writesOf records)).length =
        (ss.filter fun s => (usableAddress? records s).isSome).length * (g.peers.length - 1) := by
    intro ss
    induction ss with
    | nil => intro _; simp
    | cons s ss ih =>
      intro hss
      rw [List.forall_mem_cons] at hss
      rw [List.flatMap_cons, List.length_append, ih hss.2]
      cases haddress : usableAddress? records s with
      | none => simp [writesOf, haddress]
      | some address =>
        have hone : (g.writesOf records s).length = g.peers.length - 1 := by
          rw [writesOf, haddress]
          simp only [List.length_map, length_others hnames hss.1]
        rw [List.filter_cons_of_pos (by simp [haddress]), List.length_cons, hone, Nat.succ_mul,
          Nat.add_comm]
  exact hlength g.peers fun _ hs => hs

end PeerGroup

/-! ## How writes end -/

/-- What the report has of a write that failed. -/
def TrustFailure.of? : TrustWrite × TrustOutcome → Option TrustFailure
  | (_, .written) => none
  | (w, .failed e) => some ⟨w.source, w.request.node, e⟩
  | (_, .crashed) => none

/-- How many of some writes ended in one way. -/
def endedAs (outcome : TrustOutcome) (endings : List (TrustWrite × TrustOutcome)) : Nat :=
  endings.countP (·.2 = outcome)

/-- Every ending is counted as what it is, a crash not at all. -/
theorem PropagationReport.foldl_count (endings : List (TrustWrite × TrustOutcome))
    (r : PropagationReport) :
    endings.foldl (fun r e => r.count e.1 e.2) r =
      { r with
        succeeded := r.succeeded + endedAs .written endings
        failures := r.failures ++ endings.filterMap TrustFailure.of? } := by
  induction endings generalizing r with
  | nil => simp [endedAs]
  | cons e endings ih =>
    obtain ⟨w, outcome⟩ := e
    rw [List.foldl_cons, ih]
    cases outcome with
    | written =>
      simp [count, endedAs, TrustFailure.of?, List.filterMap_cons, Nat.add_assoc, Nat.add_comm]
    | failed e => simp [count, endedAs, TrustFailure.of?]
    | crashed => simp [count, endedAs, TrustFailure.of?, List.filterMap_cons]

theorem length_endings (endings : List (TrustWrite × TrustOutcome)) :
    endedAs .written endings + (endings.filterMap TrustFailure.of?).length +
      endedAs .crashed endings = endings.length := by
  induction endings with
  | nil => rfl
  | cons e endings ih =>
    obtain ⟨w, outcome⟩ := e
    unfold endedAs at ih ⊢
    cases outcome <;> simp [TrustFailure.of?, List.filterMap_cons] <;> omega

/-! ## Propagations step by step -/

/-- What a propagation shows of its writes. -/
inductive FanoutEvent where
  /-- The command of a write is started. -/
  | sent (w : TrustWrite)
  /-- A write ends. -/
  | ended (w : TrustWrite) (outcome : TrustOutcome)

/-- The write whose command is started. -/
def FanoutEvent.sent? : FanoutEvent → Option TrustWrite
  | .sent w => some w
  | .ended .. => none

/-- The write that ends, and how. -/
def FanoutEvent.ended? : FanoutEvent → Option (TrustWrite × TrustOutcome)
  | .sent _ => none
  | .ended w outcome => some (w, outcome)

/-- A propagation with the numbers of those writes whose command has not been started. -/
structure Fanout where
  /-- The propagation. -/
  run : Propagation
  /-- The writes that have not started their command. -/
  unsent : List Nat

namespace Fanout

/-- The beginning of a propagation. -/
def start (writes : List TrustWrite) : Fanout :=
  ⟨.start writes, List.range writes.length⟩

/-- The steps of a propagation that is not stopped. -/
inductive Step : Fanout → List FanoutEvent → Fanout → Prop where
  /-- A write starts its command. -/
  | send {f : Fanout} {id : Nat} {w : TrustWrite}
      (running : f.run.running.find? (·.1 == id) = some (id, w)) (unsent : id ∈ f.unsent) :
      Step f [.sent w] { f with unsent := f.unsent.filter (· != id) }
  /-- A write whose command was started ends. -/
  | finish {f : Fanout} {id : Nat} {w : TrustWrite} (outcome : TrustOutcome)
      (running : f.run.running.find? (·.1 == id) = some (id, w)) (sent : id ∉ f.unsent) :
      Step f [.ended w outcome] { f with run := f.run.finish id outcome }
  /-- A write that has ended is counted. -/
  | join {f : Fanout} {run : Propagation} (joins : f.run.join? = some run) :
      Step f [] { f with run }

/-- The writes whose command was started. -/
def sends (log : List FanoutEvent) : List TrustWrite := log.filterMap FanoutEvent.sent?

/-- The writes that have ended, and how. -/
def endings (log : List FanoutEvent) : List (TrustWrite × TrustOutcome) :=
  log.filterMap FanoutEvent.ended?

/-- The writes that have not started their command. -/
def waiting (f : Fanout) : List (Nat × TrustWrite) :=
  f.run.running.filter fun w => w.1 ∈ f.unsent

/-- Where the writes of a propagation are after some events. -/
structure Accounts (writes : List TrustWrite) (log : List FanoutEvent) (f : Fanout) : Prop where
  /-- No two writes have one number. -/
  ids_nodup : (f.run.running.map (·.1)).Nodup
  /-- Every write has started its command once or waits. -/
  sent : writes ~ sends log ++ f.waiting.map (·.2)
  /-- Every write has ended once or is running. -/
  ended : writes ~ (endings log).map (·.1) ++ f.run.running.map (·.2)
  /-- What has ended is counted in its order, up to some place. -/
  report : ∃ counted, endings log = counted ++ f.run.ended ∧
    f.run.report = counted.foldl (fun r e => r.count e.1 e.2) { attempted := writes.length }

variable {writes : List TrustWrite} {log shown : List FanoutEvent} {f f' : Fanout}

theorem accounts_start (writes : List TrustWrite) : Accounts writes [] (start writes) := by
  have hwrites : (start writes).run.running.map (·.2) = writes := by
    simp [start, Propagation.start, Function.comp_def]
  have hwaiting : (start writes).waiting = (start writes).run.running := by
    refine List.filter_eq_self.2 fun w hw => ?_
    obtain ⟨x, hx, rfl⟩ := List.mem_map.1 hw
    have hlt := (List.mem_zipIdx' hx).1
    simpa [start] using hlt
  refine ⟨?_, ?_, ?_, [], rfl, rfl⟩
  · have hids : (start writes).run.running.map (·.1) = List.range writes.length := by
      simp [start, Propagation.start, Function.comp_def, List.range_eq_range']
    rw [hids]
    exact List.nodup_range
  · rw [hwaiting, hwrites]
    exact .refl _
  · rw [hwrites]
    exact .refl _

/-- A propagation from which a running write is taken out. -/
theorem finish_eq {id : Nat} {w : TrustWrite}
    (h : f.run.running.find? (·.1 == id) = some (id, w)) (outcome : TrustOutcome) :
    f.run.finish id outcome =
      { f.run with
        running := f.run.running.filter (·.1 != id)
        ended := f.run.ended ++ [(w, outcome)] } := by
  rw [Propagation.finish, h]

theorem Accounts.step (h : Accounts writes log f) (step : Step f shown f') :
    Accounts writes (log ++ shown) f' := by
  obtain ⟨counted, hcounted, hreport⟩ := h.report
  cases step with
  | @send id w running unsent =>
    have hrest : { f with unsent := f.unsent.filter (· != id) }.waiting =
        f.waiting.filter (·.1 != id) := by
      unfold waiting
      rw [List.filter_filter]
      refine List.filter_congr fun x _ => ?_
      by_cases hx : x.1 = id <;> simp [hx]
    have hids : (f.waiting.map (·.1)).Nodup := h.ids_nodup.sublist (List.filter_sublist.map _)
    have hwaits : f.waiting.find? (·.1 == id) = some (id, w) :=
      find?_filter_of_pos running (by simpa using unsent)
    have hperm := (perm_cons_filter hids hwaits).map (·.2)
    refine ⟨h.ids_nodup, ?_, ?_, counted, ?_, hreport⟩
    · have hsends : sends (log ++ [.sent w]) = sends log ++ [w] := List.filterMap_append
      rw [hsends, hrest, ← List.append_cons]
      exact h.sent.trans (hperm.append_left _)
    · have hendings : endings (log ++ [.sent w]) = endings log ++ [] :=
        List.filterMap_append
      rw [hendings, List.append_nil]
      exact h.ended
    · have hendings : endings (log ++ [.sent w]) = endings log ++ [] :=
        List.filterMap_append
      rw [hendings, List.append_nil]
      exact hcounted
  | @finish id w outcome running sent =>
    have hsends : sends (log ++ [.ended w outcome]) = sends log ++ [] :=
      List.filterMap_append
    have hendings : endings (log ++ [.ended w outcome]) =
        endings log ++ [(w, outcome)] :=
      List.filterMap_append
    have hwaiting : { f with run := f.run.finish id outcome }.waiting = f.waiting := by
      unfold waiting
      rw [finish_eq running, List.filter_filter]
      refine List.filter_congr fun x _ => ?_
      by_cases hx : x.1 = id <;> simp [hx, sent]
    have hperm := (perm_cons_filter h.ids_nodup running).map (·.2)
    refine ⟨?_, ?_, ?_, counted, ?_, ?_⟩
    · rw [finish_eq running]
      exact h.ids_nodup.sublist (List.filter_sublist.map _)
    · rw [hsends, List.append_nil, hwaiting]
      exact h.sent
    · rw [hendings, finish_eq running, List.map_append, List.append_assoc]
      exact h.ended.trans (hperm.append_left _)
    · rw [hendings, finish_eq running, hcounted, List.append_assoc]
    · rw [finish_eq running]
      exact hreport
  | @join run joins =>
    rw [List.append_nil]
    unfold Propagation.join? at joins
    split at joins
    · rename_i w outcome rest hended
      obtain rfl := Option.some.inj joins
      refine ⟨h.ids_nodup, h.sent, h.ended, counted ++ [(w, outcome)], ?_, ?_⟩
      · rw [hcounted, hended, List.append_assoc, List.singleton_append]
      · rw [List.foldl_append, ← hreport]
        rfl
    · exact absurd joins (by simp)

theorem accounts (hrun : Run Step (start writes) log f) : Accounts writes log f := by
  refine hrun.preserves (P := Accounts writes) (accounts_start writes) ?_
  intro log f shown f' h step
  exact h.step step

/-! ## What is left to do -/

/-- How many steps are left: two for each running write and one more if its command has not been
started, one for each that is to be counted. -/
def remaining (f : Fanout) : Nat :=
  2 * f.run.running.length + f.run.ended.length + f.unsent.length

theorem Step.remaining_lt (step : Step f shown f') : f'.remaining < f.remaining := by
  unfold remaining
  cases step with
  | @send id w running unsent =>
    have hless : (f.unsent.filter (· != id)).length < f.unsent.length :=
      List.length_filter_lt_length_iff_exists.2 ⟨id, unsent, by simp⟩
    dsimp only
    omega
  | @finish id w outcome running sent =>
    have hless := length_filter_lt running
    rw [finish_eq running]
    simp only [List.length_append, List.length_singleton]
    omega
  | @join run joins =>
    unfold Propagation.join? at joins
    split at joins
    · rename_i w outcome rest hended
      obtain rfl := Option.some.inj joins
      simp only [hended, List.length_cons]
      omega
    · exact absurd joins (by simp)

/-- A propagation goes on until nothing is left to wait for, whatever becomes of its writes. -/
theorem goes_on (outcomes : TrustWrite → TrustOutcome) (h : f.run.isOver = false) :
    ∃ shown f', Step f shown f' ∧ ∀ w outcome, .ended w outcome ∈ shown → outcome = outcomes w := by
  cases hrunning : f.run.running with
  | cons e rest =>
    obtain ⟨id, w⟩ := e
    have hfind : f.run.running.find? (·.1 == id) = some (id, w) := by
      rw [hrunning]
      exact find?_head (id, w) rest
    by_cases hunsent : id ∈ f.unsent
    · exact ⟨_, _, .send hfind hunsent, by simp⟩
    · refine ⟨_, _, .finish (outcomes w) hfind hunsent, fun w' outcome hmem => ?_⟩
      simp only [List.mem_singleton, FanoutEvent.ended.injEq] at hmem
      rw [hmem.1, hmem.2]
  | nil =>
    cases hended : f.run.ended with
    | nil => exact absurd h (by simp [Propagation.isOver, hrunning, hended])
    | cons e rest => exact ⟨[], _, .join (by rw [Propagation.join?, hended]), by simp⟩

/-- Every propagation can come to its end, and its writes can end in any way. -/
theorem exists_course (outcomes : TrustWrite → TrustOutcome) (f : Fanout) :
    ∃ log f', Run Step f log f' ∧ f'.run.isOver = true ∧
      ∀ w outcome, .ended w outcome ∈ log → outcome = outcomes w := by
  induction hn : f.remaining using Nat.strongRecOn generalizing f with
  | ind n ih =>
    cases hover : f.run.isOver with
    | true => exact ⟨[], f, .refl f, hover, by simp⟩
    | false =>
      obtain ⟨shown, f₁, hstep, hfirst⟩ := goes_on outcomes hover
      have hless := hstep.remaining_lt
      rw [hn] at hless
      obtain ⟨log, f₂, hrun, hdone, hrest⟩ := ih f₁.remaining hless f₁ rfl
      refine ⟨shown ++ log, f₂, (Run.single hstep).trans hrun, hdone, fun w outcome hmem => ?_⟩
      rcases List.mem_append.1 hmem with hmem | hmem
      · exact hfirst w outcome hmem
      · exact hrest w outcome hmem

/-! ## What a propagation achieves -/

/-- What a propagation of a group's addresses has done after some events, if it is not stopped or if
it is stopped there. -/
structure Achieves (g : PeerGroup) (records : List (String × String)) (log : List FanoutEvent)
    (f : Fanout) : Prop where
  /-- Commands are started only to pass on usable addresses from one member to another. -/
  only : ∀ w ∈ sends log, g.Due records w
  /-- No command is started twice between the same members. -/
  once : ((sends log).map TrustWrite.pair).Nodup
  /-- There is one write for each member with a usable address and each of the others. -/
  attempted : f.run.report.attempted = (g.resolved records).length * (g.peers.length - 1)
  /-- No more is counted than there was to do. -/
  bounded : f.run.report.succeeded + f.run.report.failures.length ≤ f.run.report.attempted
  /-- Stopping changes nothing of what was counted. -/
  stopped : f.run.stop.report = { f.run.report with cancelled := true }
  /-- If nothing is left to wait for, all commands have been started. -/
  all : f.run.isOver = true → ∀ w, g.Due records w → w ∈ sends log
  /-- If nothing is left to wait for, every write was counted or its task is gone. -/
  counted : f.run.isOver = true →
    f.run.report.succeeded + f.run.report.failures.length + endedAs .crashed (endings log) =
      f.run.report.attempted
  /-- If nothing is left to wait for, the report has all failures and only these. -/
  failures : f.run.isOver = true → f.run.report.failures = (endings log).filterMap TrustFailure.of?
  /-- If nothing is left to wait for, it is complete if and only if everything was written. -/
  complete : f.run.isOver = true →
    (f.run.report.isComplete = true ↔ ∀ w, g.Due records w → .ended w .written ∈ log)
  /-- It goes on until nothing is left to wait for. -/
  goes_on : f.run.isOver = false → ∃ shown f', Step f shown f' ∧ f'.remaining < f.remaining

variable {g : PeerGroup} {records : List (String × String)}

/-- What was counted is a part of what has ended. -/
theorem Accounts.report_eq (h : Accounts writes log f) :
    ∃ counted, endings log = counted ++ f.run.ended ∧
      f.run.report = ⟨writes.length, endedAs .written counted, counted.filterMap TrustFailure.of?, false⟩ := by
  obtain ⟨counted, hcounted, hreport⟩ := h.report
  refine ⟨counted, hcounted, ?_⟩
  rw [hreport, PropagationReport.foldl_count]
  simp

theorem Accounts.length_ended (h : Accounts writes log f) :
    (endings log).length + f.run.running.length = writes.length := by
  have hlength := h.ended.length_eq
  rw [List.length_append, List.length_map, List.length_map] at hlength
  exact hlength.symm

/-- When nothing is left to wait for, every write has started its command and has ended, and all of
this was counted. -/
theorem Accounts.over (h : Accounts writes log f) (hover : f.run.isOver = true) :
    writes ~ sends log ∧ writes ~ (endings log).map (·.1) ∧
      f.run.report = ⟨writes.length, endedAs .written (endings log),
        (endings log).filterMap TrustFailure.of?, false⟩ := by
  simp only [Propagation.isOver, Bool.and_eq_true, List.isEmpty_iff] at hover
  obtain ⟨hrunning, hended⟩ := hover
  have hsends := h.sent
  have hendings := h.ended
  obtain ⟨counted, hcounted, hreport⟩ := h.report_eq
  rw [waiting, hrunning, List.filter_nil, List.map_nil, List.append_nil] at hsends
  rw [hrunning, List.map_nil, List.append_nil] at hendings
  rw [hended, List.append_nil] at hcounted
  rw [hcounted]
  exact ⟨hsends, hcounted ▸ hendings, hreport⟩

/-- Nothing is left to write if and only if every write has succeeded. -/
theorem Accounts.complete_iff (h : Accounts writes log f) (hover : f.run.isOver = true)
    (hwrites : writes.Nodup) :
    f.run.report.isComplete = true ↔ ∀ w ∈ writes, (w, .written) ∈ endings log := by
  obtain ⟨-, hended, hreport⟩ := h.over hover
  have hlength := hended.length_eq
  rw [List.length_map] at hlength
  have hsum := length_endings (endings log)
  have hall : endedAs .written (endings log) = (endings log).length ↔
      ∀ e ∈ endings log, e.2 = .written := by
    unfold endedAs
    rw [List.countP_eq_length]
    simp
  rw [hreport]
  simp only [PropagationReport.isComplete, Bool.not_false, Bool.true_and, Bool.and_eq_true,
    List.isEmpty_iff, beq_iff_eq]
  constructor
  · rintro ⟨-, hcount⟩ w hw
    obtain ⟨⟨w', outcome⟩, he, rfl⟩ := List.mem_map.1 (hended.mem_iff.1 hw)
    have houtcome := hall.1 (by omega) _ he
    dsimp only at houtcome
    rwa [houtcome] at he
  · intro hwritten
    -- A write that has ended has ended in one way only.
    have hevery : ∀ e ∈ endings log, e.2 = .written := by
      rintro ⟨w, outcome⟩ he
      have hw := hwritten w (hended.mem_iff.2 (List.mem_map_of_mem he))
      have hsame := List.inj_on_of_nodup_map (hended.nodup_iff.1 hwrites) he hw rfl
      rw [hsame]
    have hcount := hall.2 hevery
    refine ⟨List.length_eq_zero_iff.1 (by omega), by omega⟩

theorem mem_endings {w : TrustWrite} {outcome : TrustOutcome} :
    (w, outcome) ∈ endings log ↔ .ended w outcome ∈ log := by
  unfold endings
  rw [List.mem_filterMap]
  constructor
  · rintro ⟨e, he, heq⟩
    cases e with
    | sent w' => exact absurd heq (by simp [FanoutEvent.ended?])
    | ended w' outcome' =>
      obtain ⟨rfl, rfl⟩ := Prod.mk.inj (Option.some.inj heq)
      exact he
  · intro h
    exact ⟨_, h, rfl⟩

/-- A propagation of a group with distinct members starts the commands that are due, each once,
whatever becomes of them and in whichever order they end, waits for all of them, and counts what has
ended as what it is. -/
theorem fanout_achieves (hnames : (g.peers.map Peer.nodeName).Nodup)
    (hrun : Run Step (start (g.trustWrites records)) log f) : Achieves g records log f := by
  have h := accounts hrun
  have hpairs := @PeerGroup.nodup_trustWrites g records hnames
  have hlength := @PeerGroup.length_trustWrites g records hnames
  have htotal := h.length_ended
  obtain ⟨counted, hcounted, hreport⟩ := h.report_eq
  constructor
  case only =>
    intro w hw
    exact PeerGroup.mem_trustWrites.1 (h.sent.mem_iff.2 (List.mem_append_left _ hw))
  case once =>
    have hperm := (h.sent.map TrustWrite.pair).nodup_iff.1 hpairs
    rw [List.map_append] at hperm
    exact (List.nodup_append.1 hperm).1
  case attempted => rw [hreport, hlength]
  case bounded =>
    have hsum := length_endings counted
    have hpart := congrArg List.length hcounted
    rw [List.length_append] at hpart
    rw [hreport]
    dsimp only
    omega
  case stopped => rfl
  case all =>
    intro hover w hdue
    exact (h.over hover).1.mem_iff.1 (PeerGroup.mem_trustWrites.2 hdue)
  case counted =>
    intro hover
    obtain ⟨-, hended, hall⟩ := h.over hover
    have hsum := length_endings (endings log)
    have hcount := hended.length_eq
    rw [List.length_map] at hcount
    rw [hall]
    dsimp only
    omega
  case failures =>
    intro hover
    rw [(h.over hover).2.2]
  case complete =>
    intro hover
    rw [h.complete_iff hover (hpairs.of_map _)]
    simp only [PeerGroup.mem_trustWrites, mem_endings]
  case goes_on =>
    intro hover
    obtain ⟨shown, f', hstep, -⟩ := Fanout.goes_on (fun _ => .crashed) hover
    exact ⟨shown, f', hstep, hstep.remaining_lt⟩

/-- Three peers that are to know each other. -/
def trio : PeerGroup :=
  { peers := [{ nodeName := "da-one" }, { nodeName := "da-two" }, { nodeName := "da-three" }] }

/-- One of them has an address, and one has a record that is none. -/
def trioRecords : List (String × String) :=
  [("da-one", "/dns/da-one/tcp/2121/p2p/12D3KooWAbCdEfGhIjKlMnOpQrStUvWxYz123456789abcdefghi"),
    ("da-two", "12D3KooWAbCdEfGhIjKlMnOpQrStUvWxYz123456789abcdefghi")]

/-- The one address goes to the two others; one write fails, and the propagation is over and not
complete. -/
theorem fanout_achieves_trio :
    ∃ log f, Run Step (start (trio.trustWrites trioRecords)) log f ∧ f.run.isOver = true ∧
      f.run.report.attempted = 2 ∧ ((sends log).map TrustWrite.pair).Nodup ∧
      (∀ w ∈ sends log, trio.Due trioRecords w) ∧ f.run.report.isComplete = false := by
  let outcomes : TrustWrite → TrustOutcome := fun w =>
    if w.request.node = "da-two" then .failed (.commandFailed (some 1) "no space") else .written
  obtain ⟨log, f, hrun, hover, houtcomes⟩ :=
    exists_course outcomes (start (trio.trustWrites trioRecords))
  have h := fanout_achieves (by decide) hrun
  refine ⟨log, f, hrun, hover, h.attempted.trans (by decide +kernel), h.once, h.only, ?_⟩
  rw [Bool.eq_false_iff]
  intro hcomplete
  have hwritten := (h.complete hover).1 hcomplete ⟨"da-one", .main { nodeName := "da-two" }
    (.appendTrustedPeer "/dns/da-one/tcp/2121/p2p/12D3KooWAbCdEfGhIjKlMnOpQrStUvWxYz123456789abcdefghi"
      trio.trustedPeersDir)⟩ (PeerGroup.mem_trustWrites.1 (by decide +kernel))
  exact absurd (houtcomes _ _ hwritten) (by decide)

end Fanout

end Rendezvous
