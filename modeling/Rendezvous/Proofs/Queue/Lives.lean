import Rendezvous.Proofs.Queue.Stages

/-!
# The life of a node in a queue

What is shown about one node tells a story: the node is pulled, dispatched, settled and dispatched
again, until it is done or given up. The story tells where the item of the node is at its end and
how many attempts have been made since the node was last pulled; on a queue that has started empty,
it tells the truth about every node.
-/

namespace Rendezvous

open scoped List

/-- The node whose item an event is about. A peer that is added has no item before it is pulled. -/
def QueueEvent.node? : QueueEvent → Option String
  | .enqueued _ | .drained _ _ => none
  | .pulled _ p => some p.nodeName
  | .dispatched w | .started _ w | .stopped _ w _ | .settled _ w _ | .scheduled _ w => some w.node

/-- Whether an event is the end of an attempt that counts: the item was neither cancelled nor
aborted. -/
def QueueEvent.isAttempt : QueueEvent → Bool
  | .settled _ _ .aborted => false
  | .settled _ _ (.value (.error .cancelled)) => false
  | .settled _ _ _ => true
  | _ => false

/-- Just those attempts that do not count leave the item as it was. -/
theorem Fate.of_eq_requeued_iff (policy : RetryPolicy) (now : Instant) (w : WorkItem)
    (ending : WorkEnding) :
    Fate.of policy w ending = .requeued ↔
      (QueueEvent.settled now w ending).isAttempt = false := by
  unfold Fate.of QueueEvent.isAttempt
  cases ending with
  | value result =>
    cases result with
    | ok _ => simp
    | error e => cases e <;> simp <;> split <;> simp
  | crashed => simp
  | aborted => simp

/-- Where the item of a node is. -/
inductive Standing where
  /-- There is none. -/
  | gone
  /-- It waits in the queue. -/
  | waiting (w : WorkItem)
  /-- It was dispatched and is not settled. -/
  | out (w : WorkItem)

/-- A node since it was last pulled. -/
structure Life where
  /-- Where its item is. -/
  standing : Standing := .gone
  /-- The attempts that count. -/
  attempts : Nat := 0

namespace Life

/-- The life of a node after an event about it. -/
def after (policy : RetryPolicy) (l : Life) : QueueEvent → Life
  | .pulled _ p => { standing := .waiting ⟨p, 0⟩ }
  | .dispatched w => { l with standing := .out w }
  | .settled now w ending =>
    { standing := ((Fate.of policy w ending).remainder? w).elim .gone .waiting
      attempts := l.attempts + if (QueueEvent.settled now w ending).isAttempt then 1 else 0 }
  | _ => l

/-- Whether an event about a node can happen at this point of its life. -/
def Fits (l : Life) : QueueEvent → Prop
  | .enqueued _ | .drained _ _ => False
  | .pulled _ _ => True
  | .dispatched w | .scheduled _ w => l.standing = .waiting w
  | .started _ w | .stopped _ w _ | .settled _ w _ => l.standing = .out w

/-- Whether all of a story can happen, one event after the other. -/
def Tells (policy : RetryPolicy) : Life → List QueueEvent → Prop
  | _, [] => True
  | l, e :: story => l.Fits e ∧ Tells policy (l.after policy e) story

/-- What the retries of an item tell about the attempts at its node. -/
def Good (policy : RetryPolicy) (l : Life) : Prop :=
  match l.standing with
  | .gone => l.attempts ≤ policy.maxRetries + 1
  | .waiting w | .out w => w.retries = l.attempts ∧ l.attempts ≤ policy.maxRetries

variable {policy : RetryPolicy} {l : Life} {story story' : List QueueEvent} {w v : WorkItem}

theorem tells_append : Tells policy l (story ++ story') ↔
    Tells policy l story ∧ Tells policy (story.foldl (after policy) l) story' := by
  induction story generalizing l with
  | nil => simp [Tells]
  | cons e rest ih => simp [Tells, ih, and_assoc]

theorem Good.attempts_le (h : l.Good policy) : l.attempts ≤ policy.maxRetries + 1 := by
  unfold Good at h
  split at h
  · exact h
  · omega
  · omega

theorem Good.after {e : QueueEvent} (h : l.Good policy) (hfits : l.Fits e) :
    (l.after policy e).Good policy := by
  cases e with
  | pulled now p => exact ⟨rfl, Nat.zero_le _⟩
  | dispatched w =>
    simp only [Fits] at hfits
    simp only [Good, hfits] at h
    exact h
  | settled now w ending =>
    simp only [Fits] at hfits
    simp only [Good, hfits] at h
    obtain ⟨hretries, hmax⟩ := h
    have hcounts := Fate.of_eq_requeued_iff policy now w ending
    cases hfate : Fate.of policy w ending with
    | requeued =>
      rw [hfate] at hcounts
      simp only [Good, Life.after, hfate, Fate.remainder?, Option.elim, hcounts.1 rfl]
      exact ⟨hretries, hmax⟩
    | retried =>
      rw [hfate] at hcounts
      have hattempt : (QueueEvent.settled now w ending).isAttempt = true := by
        simpa using hcounts
      have hless := Fate.retries_lt hfate
      simp only [Good, Life.after, hfate, Fate.remainder?, Option.elim, hattempt, if_true,
        WorkItem.retry]
      omega
    | succeeded =>
      simp only [Good, Life.after, hfate, Fate.remainder?, Option.elim]
      split <;> omega
    | abandoned =>
      simp only [Good, Life.after, hfate, Fate.remainder?, Option.elim]
      split <;> omega
  | _ => exact h

/-- At the end of any story, the retries of the item tell how many attempts have been made. -/
theorem Good.tells (h : l.Good policy) (ht : Tells policy l story) :
    (story.foldl (Life.after policy) l).Good policy := by
  induction story generalizing l with
  | nil => exact h
  | cons e rest ih => exact ih (h.after ht.1) ht.2

/-- Until a node is pulled again, every attempt that counts is counted. -/
theorem attempts_of_no_pull (hpull : ∀ now p, .pulled now p ∉ story) :
    (story.foldl (after policy) l).attempts =
      l.attempts + story.countP QueueEvent.isAttempt := by
  induction story generalizing l with
  | nil => simp
  | cons e rest ih =>
    rw [List.foldl_cons, ih fun now p hp => hpull now p (List.mem_cons_of_mem _ hp),
      List.countP_cons]
    cases e with
    | pulled now p => exact absurd List.mem_cons_self (hpull now p)
    | settled now w ending =>
      simp only [after]
      omega
    | _ => simp [after, QueueEvent.isAttempt]

/-- The item of a node is for a given peer. -/
def IsFor (p : Peer) (l : Life) : Prop :=
  ∀ w, l.standing = .waiting w ∨ l.standing = .out w → w.peer = p

/-- Until a node is pulled again, its item stays the one of the peer with which it was pulled. -/
theorem IsFor.tells {p : Peer} (h : l.IsFor p) (ht : Tells policy l story)
    (hpull : ∀ now p, .pulled now p ∉ story) : (story.foldl (after policy) l).IsFor p := by
  induction story generalizing l with
  | nil => exact h
  | cons e rest ih =>
    refine ih ?_ ht.2 fun now p hp => hpull now p (List.mem_cons_of_mem _ hp)
    have hfits := ht.1
    cases e with
    | pulled now q => exact absurd List.mem_cons_self (hpull now q)
    | dispatched u =>
      rintro w (hw | hw)
      · exact absurd hw (by simp [after])
      · obtain rfl : u = w := Standing.out.inj hw
        exact h u (Or.inl hfits)
    | settled now u ending =>
      have hu : u.peer = p := h u (Or.inr hfits)
      intro w hw
      simp only [after] at hw
      cases hfate : Fate.of policy u ending with
      | succeeded => simp [hfate, Fate.remainder?] at hw
      | abandoned => simp [hfate, Fate.remainder?] at hw
      | retried =>
        obtain rfl : u.retry = w := by simpa [hfate, Fate.remainder?] using hw
        exact hu
      | requeued =>
        obtain rfl : u = w := by simpa [hfate, Fate.remainder?] using hw
        exact hu
    | _ => exact h

/-- What waits is what is dispatched next, unless the node is pulled before. -/
theorem eq_of_waiting (ht : Tells policy l (story ++ .dispatched v :: story'))
    (hl : l.standing = .waiting w) (hpull : ∀ now p, .pulled now p ∉ story)
    (hnext : ∀ u, .dispatched u ∉ story) : v = w := by
  induction story generalizing l with
  | nil =>
    have hfits : l.standing = .waiting v := ht.1
    rw [hl] at hfits
    exact (Standing.waiting.inj hfits).symm
  | cons e rest ih =>
    obtain ⟨hfits, hrest⟩ := ht
    cases e with
    | pulled now p => exact absurd List.mem_cons_self (hpull now p)
    | dispatched u => exact absurd List.mem_cons_self (hnext u)
    | scheduled due u =>
      exact ih hrest hl (fun now p hp => hpull now p (List.mem_cons_of_mem _ hp))
        fun u hu => hnext u (List.mem_cons_of_mem _ hu)
    | _ =>
      rw [Fits] at hfits
      simp [hl] at hfits

/-- Nothing happens to a node without an item until it is pulled. -/
theorem eq_nil_of_gone (ht : Tells policy l story) (hl : l.standing = .gone)
    (hpull : ∀ now p, .pulled now p ∉ story) : story = [] := by
  cases story with
  | nil => rfl
  | cons e rest =>
    have hfits := ht.1
    cases e with
    | pulled now p => exact absurd List.mem_cons_self (hpull now p)
    | _ =>
      rw [Fits] at hfits
      simp [hl] at hfits

end Life

end Rendezvous
