import Mathlib.Data.List.Destutter
import Rendezvous.Proofs.Workload.Changes

/-!
# Flips of readiness

Of the listings of a node, a watcher reports those whose reading differs from the one before, and a
node that has not been listed counts as not ready. So what is reported of a node alternates and
begins with its becoming ready, and what is reported last is how the node was listed last.
-/

namespace Rendezvous

/-- Whether a node was ready in each of its listings, in their order. -/
def readings (node : String) (listed : List StatefulSet) : List Bool :=
  (listed.filter (·.podName == node)).map (·.isReady)

/-- What changes tell of a node, in their order. -/
def tidings (node : String) (events : List WorkloadEvent) : List Bool :=
  (events.filter (·.node == node)).map (·.ready)

/-- The change that a listed workload is, if it is one. -/
def StatefulSet.toEvent (s : StatefulSet) : WorkloadEvent := ⟨s.podName, s.isReady⟩

@[simp] theorem tidings_append (node : String) (events events' : List WorkloadEvent) :
    tidings node (events ++ events') = tidings node events ++ tidings node events' := by
  rw [tidings, List.filter_append, List.map_append]
  rfl

theorem mem_tidings {node : String} {ready : Bool} {events : List WorkloadEvent} :
    ready ∈ tidings node events ↔ ⟨node, ready⟩ ∈ events := by
  constructor
  · intro h
    obtain ⟨e, he, rfl⟩ := List.mem_map.1 h
    obtain ⟨hmem, hname⟩ := List.mem_filter.1 he
    obtain rfl := eq_of_beq hname
    exact hmem
  · exact fun h => List.mem_map.2 ⟨_, List.mem_filter.2 ⟨h, beq_self_eq_true node⟩, rfl⟩

theorem readings_cons (node : String) (s : StatefulSet) (listed : List StatefulSet) :
    readings node (s :: listed) =
      if node = s.podName then s.isReady :: readings node listed else readings node listed := by
  by_cases hnode : node = s.podName
  · simp [readings, hnode]
  · simp [readings, hnode, Ne.symm hnode]

theorem readings_eq_nil_iff {node : String} {listed : List StatefulSet} :
    readings node listed = [] ↔ ∀ s ∈ listed, s.podName ≠ node := by
  simp [readings]

/-! ## The last listing -/

theorem isReady_iff {s : StatefulSet} :
    s.isReady = true ↔ 0 < s.currentReplicas ∧ s.replicas = s.readyReplicas := by
  simp [StatefulSet.isReady]

/-- A node was ready when it was last listed if and only if its last entry has running pods, all of
which are ready. -/
theorem isReadyBy_iff {listed : List StatefulSet} {node : String} :
    isReadyBy listed node = true ↔
      ∃ earlier s later, listed = earlier ++ s :: later ∧ s.podName = node ∧
        (∀ t ∈ later, t.podName ≠ node) ∧ 0 < s.currentReplicas ∧ s.replicas = s.readyReplicas := by
  unfold isReadyBy
  constructor
  · intro h
    cases hfind : listed.reverse.find? (·.podName == node) with
    | none => simp [hfind] at h
    | some s =>
      obtain ⟨hname, later, earlier, hlisted, hlater⟩ := List.find?_eq_some_iff_append.1 hfind
      rw [List.reverse_eq_iff, List.reverse_append, List.reverse_cons, List.append_assoc,
        List.singleton_append] at hlisted
      rw [hfind] at h
      exact ⟨earlier.reverse, s, later.reverse, hlisted, by simpa using hname,
        fun t ht => by simpa using hlater t (List.mem_reverse.1 ht), isReady_iff.1 h⟩
  · rintro ⟨earlier, s, later, rfl, hname, hlater, hready⟩
    have hfind : (earlier ++ s :: later).reverse.find? (·.podName == node) = some s := by
      refine List.find?_eq_some_iff_append.2
        ⟨by simpa using hname, later.reverse, earlier.reverse, by simp, fun t ht => ?_⟩
      simpa using hlater t (List.mem_reverse.1 ht)
    rw [hfind]
    exact isReady_iff.2 hready

theorem isReadyBy_append_of_not_mem {listed later : List StatefulSet} {node : String}
    (h : ∀ s ∈ later, s.podName ≠ node) : isReadyBy (listed ++ later) node = isReadyBy listed node := by
  induction later using List.reverseRecOn with
  | nil => rw [List.append_nil]
  | append_singleton later s ih =>
    rw [← List.append_assoc, isReadyBy_snoc,
      if_neg (h s (List.mem_append_right _ List.mem_cons_self)).symm]
    exact ih fun t ht => h t (List.mem_append_left _ ht)

theorem getLastD_readings (earlier listed : List StatefulSet) (node : String) :
    (readings node listed).getLastD (isReadyBy earlier node) = isReadyBy (earlier ++ listed) node := by
  induction listed generalizing earlier with
  | nil =>
    rw [List.append_nil]
    rfl
  | cons s listed ih =>
    have hrest := ih (earlier ++ [s])
    rw [isReadyBy_snoc, List.append_assoc, List.singleton_append] at hrest
    rw [readings_cons, ← hrest]
    split
    · rw [List.getLastD_cons]
    · rfl

/-! ## Changes -/

theorem changesAfter_sublist (earlier listed : List StatefulSet) :
    (changesAfter earlier listed).Sublist (listed.map (·.toEvent)) := by
  induction listed generalizing earlier with
  | nil => exact List.Sublist.refl _
  | cons s listed ih =>
    rw [changesAfter, List.map_cons]
    split
    · exact (ih _).cons _
    · exact (ih _).cons_cons _

/-- The changes of a node are its readings without repetitions, where the one before the first is
how the node was listed last. -/
theorem tidings_changesAfter (earlier listed : List StatefulSet) (node : String) :
    isReadyBy earlier node :: tidings node (changesAfter earlier listed) =
      (readings node listed).destutter' (· ≠ ·) (isReadyBy earlier node) := by
  induction listed generalizing earlier with
  | nil => rfl
  | cons s listed ih =>
    have hrest := ih (earlier ++ [s])
    rw [isReadyBy_snoc] at hrest
    rw [changesAfter, tidings_append, readings_cons]
    by_cases hnode : node = s.podName
    · subst hnode
      rw [if_pos rfl] at hrest ⊢
      -- the reading before this one is how the node was listed last, so both sides compare the same
      by_cases hsame : s.isReady = isReadyBy earlier s.podName
      · rw [if_pos hsame, List.destutter'_cons_neg _ (not_not.2 hsame.symm), ← hsame]
        exact hrest
      · rw [if_neg hsame, List.destutter'_cons_pos _ (Ne.symm hsame), ← hrest]
        simp [tidings]
    · have hother : tidings node
          (if s.isReady = isReadyBy earlier s.podName then [] else [s.toEvent]) = [] := by
        split
        · rfl
        · simpa [tidings, StatefulSet.toEvent] using Ne.symm hnode
      rw [if_neg hnode] at hrest ⊢
      rw [← hrest]
      exact congrArg (isReadyBy earlier node :: · ++ _) hother

/-- Readings that all repeat the first one are dropped. -/
theorem destutter'_of_forall_eq {readings : List Bool} {first : Bool}
    (h : ∀ b ∈ readings, b = first) : readings.destutter' (· ≠ ·) first = [first] := by
  induction readings with
  | nil => rfl
  | cons b readings ih =>
    obtain rfl := h b List.mem_cons_self
    rw [List.destutter'_cons_neg _ (not_not.2 rfl)]
    exact ih fun c hc => h c (List.mem_cons_of_mem _ hc)

/-- Dropping repetitions keeps the last one. -/
theorem getLastD_destutter'_ne (readings : List Bool) (first default : Bool) :
    (readings.destutter' (· ≠ ·) first).getLastD default = readings.getLastD first := by
  induction readings generalizing first default with
  | nil => rfl
  | cons b readings ih =>
    by_cases hsame : first ≠ b
    · rw [List.destutter'_cons_pos _ hsame, List.getLastD_cons, ih, List.getLastD_cons]
    · rw [List.destutter'_cons_neg _ hsame, ih, List.getLastD_cons, not_not.1 hsame]

/-- The last change of a node tells how it was listed last. -/
theorem getLastD_tidings (earlier listed : List StatefulSet) (node : String) :
    (tidings node (changesAfter earlier listed)).getLastD (isReadyBy earlier node) =
      isReadyBy (earlier ++ listed) node := by
  have hlast := getLastD_destutter'_ne (readings node listed) (isReadyBy earlier node) false
  rwa [← tidings_changesAfter, List.getLastD_cons, getLastD_readings] at hlast

/-! ## One listing after another -/

/-- The workloads in a sequence of listings. One that has failed has none. -/
def listedIn (answers : List (Option (List StatefulSet))) : List StatefulSet :=
  answers.flatMap (·.getD [])

@[simp] theorem listedIn_append (answers answers' : List (Option (List StatefulSet))) :
    listedIn (answers ++ answers') = listedIn answers ++ listedIn answers' :=
  List.flatMap_append

namespace Watcher

/-- Take note of one listing after another. -/
def follow (w : Watcher) : List (Option (List StatefulSet)) → List WorkloadEvent × Watcher
  | [] => ([], w)
  | answer :: answers =>
    let (events, w) := w.pollAnswer answer
    let (later, w) := w.follow answers
    (events ++ later, w)

theorem follow_cons (w : Watcher) (answer : Option (List StatefulSet))
    (answers : List (Option (List StatefulSet))) :
    w.follow (answer :: answers) =
      ((w.pollAnswer answer).1 ++ ((w.pollAnswer answer).2.follow answers).1,
        ((w.pollAnswer answer).2.follow answers).2) :=
  rfl

theorem follow_append (w : Watcher) (answers answers' : List (Option (List StatefulSet))) :
    w.follow (answers ++ answers') =
      ((w.follow answers).1 ++ ((w.follow answers).2.follow answers').1,
        ((w.follow answers).2.follow answers').2) := by
  induction answers generalizing w with
  | nil => rfl
  | cons answer answers ih =>
    rw [List.cons_append, follow_cons, follow_cons, ih, List.append_assoc]

theorem follow_singleton (w : Watcher) (answer : Option (List StatefulSet)) :
    w.follow [answer] = w.pollAnswer answer := by
  rw [follow_cons]
  exact Prod.ext (List.append_nil _) rfl

/-- A watcher that knows the earlier listings reports the changes in all that follow, and then knows
them as well. -/
theorem Knows.follow {w : Watcher} {earlier : List StatefulSet} (h : w.Knows earlier)
    (answers : List (Option (List StatefulSet))) :
    (w.follow answers).1 = changesAfter earlier (listedIn answers) ∧
      (w.follow answers).2.Knows (earlier ++ listedIn answers) := by
  induction answers generalizing w earlier with
  | nil =>
    refine ⟨rfl, ?_⟩
    rw [listedIn, List.flatMap_nil, List.append_nil]
    exact h
  | cons answer answers ih =>
    obtain ⟨hevents, hknows⟩ := h.poll (answer.getD [])
    rw [← pollAnswer_eq] at hevents hknows
    obtain ⟨hlater, hknows'⟩ := ih hknows
    have hlisted : listedIn (answer :: answers) = answer.getD [] ++ listedIn answers :=
      List.flatMap_cons
    rw [hlisted, changesAfter_append, ← hevents, ← hlater, ← List.append_assoc]
    exact ⟨rfl, hknows'⟩

theorem knows_nil : ({} : Watcher).Knows [] := fun _ => rfl

/-- What a new watcher reports of listings that follow one another. -/
structure ReportsFlips (answers : List (Option (List StatefulSet))) : Prop where
  /-- Of each node, those readings are reported that differ from the one before, and the first one if
  the node is ready there. -/
  flips : ∀ node, false :: tidings node (follow {} answers).1 =
    (readings node (listedIn answers)).destutter' (· ≠ ·) false
  /-- What is reported of a node alternates and begins with its becoming ready. -/
  alternate : ∀ node, (false :: tidings node (follow {} answers).1).IsChain (· ≠ ·)
  /-- By what is reported of it, a node that was not ready at first is ready if and only if its last
  entry so far has running pods, all of which are ready. -/
  replayed : ∀ node, (tidings node (follow {} answers).1).getLastD false = true ↔
    ∃ earlier s later, listedIn answers = earlier ++ s :: later ∧ s.podName = node ∧
      (∀ t ∈ later, t.podName ≠ node) ∧ 0 < s.currentReplicas ∧ s.replicas = s.readyReplicas
  /-- A listing is reported in its order, after what was reported before. -/
  inOrder : ∀ {before sets after}, answers = before ++ some sets :: after →
    ∃ events, (follow {} (before ++ [some sets])).1 = (follow {} before).1 ++ events ∧
      events.Sublist (sets.map (·.toEvent))
  /-- A listing that has failed is not reported and changes nothing that is known. -/
  failed : ∀ {before after}, answers = before ++ none :: after →
    follow {} (before ++ [none]) = follow {} before

theorem reportsFlips (answers : List (Option (List StatefulSet))) : ReportsFlips answers := by
  have hreported := (knows_nil.follow answers).1
  have hflips := tidings_changesAfter [] (listedIn answers)
  refine ⟨?_, ?_, ?_, ?_, ?_⟩
  · intro node
    rw [hreported]
    exact hflips node
  · intro node
    have hchain := List.isChain_destutter' (· ≠ ·) (readings node (listedIn answers)) false
    rw [hreported]
    exact (hflips node).symm ▸ hchain
  · intro node
    have hlast := getLastD_tidings [] (listedIn answers) node
    rw [hreported, ← isReadyBy_iff]
    exact Bool.eq_iff_iff.1 hlast
  · intro before sets after _
    refine ⟨_, by rw [follow_append], ?_⟩
    have hlisted := (knows_nil.follow before).2.poll sets
    rw [follow_singleton]
    exact hlisted.1 ▸ changesAfter_sublist _ sets
  · intro before after _
    rw [follow_append, follow_singleton]
    exact Prod.ext (List.append_nil _) rfl

end Watcher

end Rendezvous
