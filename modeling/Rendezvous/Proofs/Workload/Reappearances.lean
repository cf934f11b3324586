import Rendezvous.Proofs.Workload.Flips

/-!
# Nodes that are listed again

A watcher keeps what it knows of a node that is not listed any more. So a node that comes back, after
however many listings, is announced if and only if it was not ready when it was listed last: only then
does the controller add it to the queue and drop what it has noted about it.
-/

namespace Rendezvous

/-! ## Receiving changes one by one -/

namespace Scenario

variable {s : Scenario} {q : RetryQueue} {node : String}

/-- The controller receives changes, one after another. -/
def receiveAll (s : Scenario) (events : List WorkloadEvent) : Scenario :=
  events.foldl (fun s e => (s.workloadEvent e.node e.ready).2) s

/-- The peers that are to be processed because of what changes tell of a node. -/
def wantedBy (settings : Settings) (node : String) (events : List WorkloadEvent) : List Peer :=
  (tidings node events).filterMap fun ready => settings.wanted? ⟨node, ready⟩

/-- What becomes of a node in a queue and in the memos: peers of the node are added to the queue, and
if there are any, what was noted about the node is dropped. -/
structure Receives (s : Scenario) (q : RetryQueue) (node : String) (wanted : List Peer)
    (s' : Scenario) (q' : RetryQueue) : Prop where
  /-- This is the queue now. -/
  queue : s'.queue = some q'
  /-- The controller goes by what it always did. -/
  settings : s'.settings = s.settings
  /-- The peers of the node are added, after those that have arrived before. -/
  arrivals : q'.arrivals.filter (·.nodeName = node) = q.arrivals.filter (·.nodeName = node) ++ wanted
  /-- The noted identifier is dropped if there are any. -/
  ids : s'.memory.memos.ids.get? node =
    if wanted = [] then s.memory.memos.ids.get? node else none
  /-- So is the noted own address. -/
  addresses : s'.memory.memos.addresses.get? node =
    if wanted = [] then s.memory.memos.addresses.get? node else none

theorem Receives.refl (hq : s.queue = some q) : Receives s q node [] s q :=
  ⟨hq, rfl, (List.append_nil _).symm, rfl, rfl⟩

theorem Receives.trans {s' s'' : Scenario} {q' q'' : RetryQueue} {wanted wanted' : List Peer}
    (h : Receives s q node wanted s' q') (h' : Receives s' q' node wanted' s'' q'') :
    Receives s q node (wanted ++ wanted') s'' q'' := by
  refine ⟨h'.queue, h'.settings.trans h.settings, ?_, ?_, ?_⟩
  · rw [h'.arrivals, h.arrivals, List.append_assoc]
  · rw [h'.ids, h.ids]
    by_cases hnone : wanted = [] <;> by_cases hnone' : wanted' = [] <;> simp [hnone, hnone']
  · rw [h'.addresses, h.addresses]
    by_cases hnone : wanted = [] <;> by_cases hnone' : wanted' = [] <;> simp [hnone, hnone']

theorem receives_workloadEvent (hq : s.queue = some q) (e : WorkloadEvent) (node : String) :
    ∃ q', Receives s q node (wantedBy s.settings node [e]) (s.workloadEvent e.node e.ready).2 q' := by
  cases hwanted : s.settings.wanted? e with
  | none =>
    have hnone : wantedBy s.settings node [e] = [] := by
      unfold wantedBy tidings
      by_cases hnode : e.node = node
      · subst hnode
        simp [hwanted]
      · simp [hnode]
    rw [workloadEvent_of_unwanted hwanted, hnone]
    exact ⟨q, .refl hq⟩
  | some p =>
    have hname := Config.nodeName_of_find? (Settings.wanted?_eq_some.1 hwanted).2.2
    rw [workloadEvent_of_wanted hwanted hq]
    by_cases hnode : e.node = node
    · subst hnode
      have hadded : wantedBy s.settings e.node [e] = [p] := by simp [wantedBy, tidings, hwanted]
      rw [hadded]
      exact ⟨q.enqueue p, rfl, rfl, by simp [RetryQueue.enqueue, hname],
        by simp [Memos.forget, Table.get?_erase], by simp [Memos.forget, Table.get?_erase]⟩
    · have hother : wantedBy s.settings node [e] = [] := by simp [wantedBy, tidings, hnode]
      rw [hother]
      exact ⟨q.enqueue p, rfl, rfl, by simp [RetryQueue.enqueue, hname, hnode],
        by simp [Memos.forget, Table.get?_erase, Ne.symm hnode],
        by simp [Memos.forget, Table.get?_erase, Ne.symm hnode]⟩

theorem receives_receiveAll (hq : s.queue = some q) (events : List WorkloadEvent) (node : String) :
    ∃ q', Receives s q node (wantedBy s.settings node events) (s.receiveAll events) q' := by
  induction events generalizing s q with
  | nil => exact ⟨q, .refl hq⟩
  | cons e events ih =>
    obtain ⟨q', hfirst⟩ := receives_workloadEvent hq e node
    obtain ⟨q'', hrest⟩ := ih hfirst.queue
    rw [hfirst.settings] at hrest
    refine ⟨q'', ?_⟩
    have hall : wantedBy s.settings node (e :: events) =
        wantedBy s.settings node [e] ++ wantedBy s.settings node events := by
      rw [wantedBy, wantedBy, wantedBy, ← List.filterMap_append, ← tidings_append]
      rfl
    rw [hall]
    exact hfirst.trans hrest

end Scenario

/-! ## Coming back -/

/-- What comes of a listing in which a node is ready, where its changes are `events` and `earlier` was
listed before. -/
structure ComesBack (earlier : List StatefulSet) (node : String) (events : List WorkloadEvent) :
    Prop where
  /-- The node is announced if and only if it was not ready when it was listed last. -/
  announced : (⟨node, true⟩ : WorkloadEvent) ∈ events ↔ isReadyBy earlier node = false
  /-- If it is announced, it is so once, and nothing else is reported of it. If it is not, then nothing
  is reported of it at all. -/
  tidings_eq : tidings node events = if isReadyBy earlier node then [] else [true]
  /-- A node that is announced and is configured and named as it should be is added to the queue once,
  and what was noted about it is dropped. -/
  queued : isReadyBy earlier node = false → ∀ {s : Scenario} {q : RetryQueue} {p : Peer},
    s.queue = some q → s.settings.wanted? ⟨node, true⟩ = some p →
      ∃ q', (s.receiveAll events).queue = some q' ∧
        q'.arrivals.filter (·.nodeName = node) = q.arrivals.filter (·.nodeName = node) ++ [p] ∧
          (s.receiveAll events).memory.memos.ids.get? node = none ∧
            (s.receiveAll events).memory.memos.addresses.get? node = none
  /-- A node that is not announced is not added to the queue, and what was noted about it stays. -/
  overlooked : isReadyBy earlier node = true → ∀ {s : Scenario} {q : RetryQueue},
    s.queue = some q →
      ∃ q', (s.receiveAll events).queue = some q' ∧
        q'.arrivals.filter (·.nodeName = node) = q.arrivals.filter (·.nodeName = node) ∧
          (s.receiveAll events).memory.memos.ids.get? node = s.memory.memos.ids.get? node ∧
            (s.receiveAll events).memory.memos.addresses.get? node =
              s.memory.memos.addresses.get? node

/-- What is reported of a node that is ready in all its entries of a listing. -/
theorem tidings_of_ready (earlier : List StatefulSet) {sets : List StatefulSet} {node : String}
    (hlisted : ∃ s ∈ sets, s.podName = node)
    (hready : ∀ s ∈ sets, s.podName = node → s.isReady = true) :
    tidings node (changesAfter earlier sets) = if isReadyBy earlier node then [] else [true] := by
  have hall : ∀ b ∈ readings node sets, b = true := by
    intro b hb
    obtain ⟨s, hs, rfl⟩ := List.mem_map.1 hb
    obtain ⟨hs, hname⟩ := List.mem_filter.1 hs
    exact hready s hs (eq_of_beq hname)
  -- all readings are the same, so only the first one can be a flip
  have hflips := tidings_changesAfter earlier sets node
  cases hwas : isReadyBy earlier node with
  | true =>
    rw [hwas, destutter'_of_forall_eq hall] at hflips
    exact (List.cons.inj hflips).2
  | false =>
    cases hreadings : readings node sets with
    | nil =>
      obtain ⟨s, hs, hname⟩ := hlisted
      exact absurd hname (readings_eq_nil_iff.1 hreadings s hs)
    | cons b rest =>
      rw [hreadings] at hall hflips
      obtain rfl := hall b List.mem_cons_self
      rw [hwas, List.destutter'_cons_pos _ (by simp),
        destutter'_of_forall_eq fun b hb => hall b (List.mem_cons_of_mem _ hb)] at hflips
      exact (List.cons.inj hflips).2

/-- A node that is listed as ready, after any number of listings in which it is missing, is announced
if and only if it was not ready when it was listed last; otherwise the controller does not learn that
it has come back. -/
theorem announced_again_iff {before gap : List (Option (List StatefulSet))}
    {sets : List StatefulSet} {node : String} (hgap : ∀ s ∈ listedIn gap, s.podName ≠ node)
    (hlisted : ∃ s ∈ sets, s.podName = node)
    (hready : ∀ s ∈ sets, s.podName = node → s.isReady = true) :
    ComesBack (listedIn before) node
      ((Watcher.follow {} (before ++ gap)).2.pollAnswer (some sets)).1 := by
  have hevents : ((Watcher.follow {} (before ++ gap)).2.pollAnswer (some sets)).1 =
      changesAfter (listedIn (before ++ gap)) sets :=
    ((Watcher.knows_nil.follow (before ++ gap)).2.poll sets).1
  have htidings := tidings_of_ready (listedIn (before ++ gap)) hlisted hready
  rw [← hevents, listedIn_append, isReadyBy_append_of_not_mem hgap] at htidings
  generalize ((Watcher.follow {} (before ++ gap)).2.pollAnswer (some sets)).1 = events at htidings ⊢
  refine ⟨?_, htidings, ?_, ?_⟩
  · rw [← mem_tidings, htidings]
    cases isReadyBy (listedIn before) node <;> simp
  · intro hwas s q p hq hwanted
    obtain ⟨q', hreceives⟩ := Scenario.receives_receiveAll hq events node
    have hadded : Scenario.wantedBy s.settings node events = [p] := by
      simp [Scenario.wantedBy, htidings, hwas, hwanted]
    rw [hadded] at hreceives
    exact ⟨q', hreceives.queue, hreceives.arrivals, hreceives.ids, hreceives.addresses⟩
  · intro hwas s q hq
    obtain ⟨q', hreceives⟩ := Scenario.receives_receiveAll hq events node
    have hnone : Scenario.wantedBy s.settings node events = [] := by
      simp [Scenario.wantedBy, htidings, hwas]
    rw [hnone] at hreceives
    exact ⟨q', hreceives.queue, hreceives.arrivals.trans (List.append_nil _), hreceives.ids,
      hreceives.addresses⟩

/-- A workload is ready, is not listed any more, and is listed as ready again: it is not announced. -/
theorem announced_again_iff_unnoticed :
    (⟨"da-0", true⟩ : WorkloadEvent) ∉
      ((Watcher.follow {} ([some [⟨"da", 1, 1, 1⟩]] ++ [some []])).2.pollAnswer
        (some [⟨"da", 1, 1, 1⟩])).1 := by
  intro hmem
  have hback := @announced_again_iff [some [⟨"da", 1, 1, 1⟩]] [some []] [⟨"da", 1, 1, 1⟩] "da-0"
    (by decide) (by decide) (by decide)
  exact absurd (hback.announced.1 hmem) (by decide)

end Rendezvous
