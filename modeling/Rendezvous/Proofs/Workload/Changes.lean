import Rendezvous.Engine.Scenario
import Rendezvous.Proofs.Peer.Validation
import Rendezvous.Workload.Watcher

/-!
# Changes of readiness

A watcher that knows the earlier listings reports exactly those workloads of the next one whose
readiness differs from what it was when they were last listed. A controller that receives such a
change adds a peer to its queue, or does nothing at all.
-/

namespace Rendezvous

/-! ## Listings and changes -/

/-- Whether a node was ready when it was last listed; one that was not listed was not ready. -/
def isReadyBy (listed : List StatefulSet) (node : String) : Bool :=
  match listed.reverse.find? (·.podName == node) with
  | some s => s.isReady
  | none => false

theorem isReadyBy_snoc (listed : List StatefulSet) (s : StatefulSet) (node : String) :
    isReadyBy (listed ++ [s]) node =
      if node = s.podName then s.isReady else isReadyBy listed node := by
  unfold isReadyBy
  rw [List.reverse_append, List.reverse_singleton, List.singleton_append]
  by_cases hnode : node = s.podName
  · rw [if_pos hnode, List.find?_cons_of_pos (by simpa using hnode.symm)]
  · rw [if_neg hnode, List.find?_cons_of_neg (by simpa using Ne.symm hnode)]

/-- The changes of readiness in a sequence of listings that comes after another one. -/
def changesAfter (earlier : List StatefulSet) : List StatefulSet → List WorkloadEvent
  | [] => []
  | s :: listed =>
    (if s.isReady = isReadyBy earlier s.podName then [] else [⟨s.podName, s.isReady⟩]) ++
      changesAfter (earlier ++ [s]) listed

theorem changesAfter_append (earlier listed listed' : List StatefulSet) :
    changesAfter earlier (listed ++ listed') =
      changesAfter earlier listed ++ changesAfter (earlier ++ listed) listed' := by
  induction listed generalizing earlier with
  | nil => simp [changesAfter]
  | cons s listed ih =>
    rw [List.cons_append, changesAfter, changesAfter, ih, List.append_assoc, List.append_assoc,
      List.singleton_append]

namespace Watcher

/-- A watcher knows of every node whether it was ready when it was last listed. -/
def Knows (w : Watcher) (listed : List StatefulSet) : Prop :=
  ∀ node, (w.known.get? node).getD false = isReadyBy listed node

/-- A watcher that knows the earlier listings reports the changes in the next one, and then knows it
as well. -/
theorem Knows.poll {w : Watcher} {earlier : List StatefulSet} (h : w.Knows earlier)
    (listed : List StatefulSet) :
    (w.poll listed).1 = changesAfter earlier listed ∧ (w.poll listed).2.Knows (earlier ++ listed) := by
  induction listed generalizing w earlier with
  | nil =>
    rw [List.append_nil]
    exact ⟨rfl, h⟩
  | cons s listed ih =>
    have hobserved : (w.observe s).2.Knows (earlier ++ [s]) := by
      intro node
      rw [isReadyBy_snoc, ← h node]
      show ((w.known.put s.podName s.isReady).get? node).getD false = _
      rw [Table.get?_put]
      split <;> rfl
    obtain ⟨hevents, hknows⟩ := ih hobserved
    rw [List.append_assoc, List.singleton_append] at hknows
    refine ⟨?_, hknows⟩
    show (w.observe s).1.toList ++ ((w.observe s).2.poll listed).1 = _
    rw [hevents, changesAfter, ← h s.podName]
    simp only [observe]
    split <;> rfl

/-- A listing that has failed is as good as an empty one. -/
theorem pollAnswer_eq (w : Watcher) (answer : Option (List StatefulSet)) :
    w.pollAnswer answer = w.poll (answer.getD []) := by
  cases answer <;> rfl

end Watcher

/-! ## What is received -/

/-- The peer that is to be processed because of a change: the one with the name of the node, if the
node has become ready and its name begins as it should. -/
def Settings.wanted? (s : Settings) (e : WorkloadEvent) : Option Peer :=
  if e.ready && Text.startsWith e.node s.nodeLead then s.config.find? e.node else none

theorem Settings.wanted?_eq_some {s : Settings} {e : WorkloadEvent} {p : Peer} :
    s.wanted? e = some p ↔
      e.ready = true ∧ Text.startsWith e.node s.nodeLead = true ∧
        s.config.find? e.node = some p := by
  unfold wanted?
  rw [← and_assoc, ← Bool.and_eq_true]
  split
  · rename_i h
    simp [h]
  · rename_i h
    simp [h]

namespace Scenario

/-- A change because of which no peer is to be processed changes nothing. -/
theorem workloadEvent_of_unwanted {s : Scenario} {e : WorkloadEvent}
    (h : s.settings.wanted? e = none) : s.workloadEvent e.node e.ready = (false, s) := by
  unfold workloadEvent
  unfold Settings.wanted? at h
  split at h
  · rename_i hwanted
    rw [if_pos hwanted]
    simp only [h]
  · rename_i hwanted
    rw [if_neg hwanted]

/-- A peer that is to be processed is forgotten and added to the queue. -/
theorem workloadEvent_of_wanted {s : Scenario} {e : WorkloadEvent} {p : Peer} {q : RetryQueue}
    (h : s.settings.wanted? e = some p) (hq : s.queue = some q) :
    s.workloadEvent e.node e.ready =
      (true,
        { s with
          memory := { s.memory with memos := s.memory.memos.forget e.node }
          queue := some (q.enqueue p) }) := by
  obtain ⟨hready, hlead, hfind⟩ := Settings.wanted?_eq_some.1 h
  unfold workloadEvent
  rw [hready, hlead, Bool.and_true, if_pos rfl]
  simp only [hfind, enqueue, hq]

end Scenario

end Rendezvous
