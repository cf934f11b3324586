import Rendezvous.Proofs.Queue.Lives

/-!
# Attempts are bounded

What a queue shows is, for every node, a story that can happen, and where the story puts the item of
the node is where it is. So a node is tried at most once more than the policy allows retries, an
item that was cut off keeps its retries, and a node that is done or given up is not heard of again
before it arrives anew.
-/

namespace Rendezvous

open scoped List

/-- The story of a node. -/
def story (node : String) (log : List QueueEvent) : List QueueEvent :=
  log.filter (·.node? = some node)

@[simp] theorem story_append (node : String) (log log' : List QueueEvent) :
    story node (log ++ log') = story node log ++ story node log' :=
  List.filter_append ..

/-- What has become of a node. -/
def lifeOf (policy : RetryPolicy) (log : List QueueEvent) (node : String) : Life :=
  (story node log).foldl (Life.after policy) {}

theorem lifeOf_snoc (policy : RetryPolicy) (log : List QueueEvent) (e : QueueEvent)
    (node : String) :
    lifeOf policy (log ++ [e]) node =
      if e.node? = some node then (lifeOf policy log node).after policy e
      else lifeOf policy log node := by
  by_cases h : e.node? = some node
  · simp [lifeOf, story, h]
  · simp [lifeOf, story, h]

/-- What was shown puts every item where it is. -/
structure Told (policy : RetryPolicy) (log : List QueueEvent) (items held : List WorkItem) :
    Prop where
  /-- The story of every node can happen. -/
  fits : ∀ node, Life.Tells policy {} (story node log)
  /-- These items wait in the queue. -/
  waiting : ∀ w, w ∈ items ↔ (lifeOf policy log w.node).standing = .waiting w
  /-- These items were dispatched and are not settled. -/
  out : ∀ w, w ∈ held ↔ (lifeOf policy log w.node).standing = .out w

namespace Told

variable {policy : RetryPolicy} {log : List QueueEvent} {items items' held held' : List WorkItem}

/-- At first there is nothing to be told. -/
theorem nil (policy : RetryPolicy) : Told policy [] [] [] := by
  refine ⟨fun node => trivial, ?_, ?_⟩
  · intro w
    simp [lifeOf, story]
  · intro w
    simp [lifeOf, story]

theorem congr (h : Told policy log items held) (hitems : ∀ w, w ∈ items' ↔ w ∈ items)
    (hheld : ∀ w, w ∈ held' ↔ w ∈ held) : Told policy log items' held' :=
  ⟨h.fits, fun w => (hitems w).trans (h.waiting w), fun w => (hheld w).trans (h.out w)⟩

/-- One event more changes where the item of its node is, and no other. -/
theorem snoc (h : Told policy log items held) {e : QueueEvent} {node : String}
    (he : e.node? = some node) (hfits : (lifeOf policy log node).Fits e)
    (hother : ∀ w, w.node ≠ node → (w ∈ items' ↔ w ∈ items) ∧ (w ∈ held' ↔ w ∈ held))
    (hsame : ∀ w, w.node = node →
      (w ∈ items' ↔ ((lifeOf policy log node).after policy e).standing = .waiting w) ∧
      (w ∈ held' ↔ ((lifeOf policy log node).after policy e).standing = .out w)) :
    Told policy (log ++ [e]) items' held' := by
  refine ⟨?_, ?_, ?_⟩
  · intro other
    rw [story_append, Life.tells_append]
    refine ⟨h.fits other, ?_⟩
    by_cases hn : node = other
    · subst hn
      have hone : story node [e] = [e] := by simp [story, he]
      rw [hone]
      exact ⟨hfits, trivial⟩
    · have hnone : story other [e] = [] := by simp [story, he, hn]
      rw [hnone]
      trivial
  · intro w
    rw [lifeOf_snoc, he]
    by_cases hn : w.node = node
    · rw [if_pos (by rw [hn]), hn]
      exact (hsame w hn).1
    · rw [if_neg (fun heq => hn (Option.some.inj heq).symm), (hother w hn).1]
      exact h.waiting w
  · intro w
    rw [lifeOf_snoc, he]
    by_cases hn : w.node = node
    · rw [if_pos (by rw [hn]), hn]
      exact (hsame w hn).2
    · rw [if_neg (fun heq => hn (Option.some.inj heq).symm), (hother w hn).2]
      exact h.out w

/-- An event that is about no item changes nothing. -/
theorem skip (h : Told policy log items held) {e : QueueEvent} (he : e.node? = none) :
    Told policy (log ++ [e]) items held := by
  have hsame : ∀ node, story node (log ++ [e]) = story node log := by
    intro node
    simp [story, he]
  refine ⟨fun node => ?_, fun w => ?_, fun w => ?_⟩
  · rw [hsame]
    exact h.fits node
  · rw [lifeOf, hsame]
    exact h.waiting w
  · rw [lifeOf, hsame]
    exact h.out w

/-- An event that fits and leaves the life of its node as it was leaves every item where it is. -/
theorem stay (h : Told policy log items held) {e : QueueEvent} {node : String}
    (he : e.node? = some node) (hfits : (lifeOf policy log node).Fits e)
    (hafter : ∀ l, Life.after policy l e = l) : Told policy (log ++ [e]) items held := by
  refine h.snoc he hfits (fun w _ => ⟨Iff.rfl, Iff.rfl⟩) fun w hn => ?_
  rw [hafter, ← hn]
  exact ⟨h.waiting w, h.out w⟩

/-- Pulling a peer puts a fresh item in the place of what waits for its node. -/
theorem pulled (h : Told policy log items []) (now : Instant) (p : Peer)
    (hitems : ∀ w, w ∈ items' ↔ w = ⟨p, 0⟩ ∨ w ∈ items ∧ w.node ≠ p.nodeName) :
    Told policy (log ++ [.pulled now p]) items' [] := by
  refine h.snoc rfl trivial ?_ ?_
  · intro w hn
    have hn' : w.node ≠ p.nodeName := hn
    have hne : w ≠ ⟨p, 0⟩ := fun hw => hn (by rw [hw]; rfl)
    rw [hitems]
    simp [hne, hn']
  · intro w hn
    rw [hitems]
    have hn' : w.node = p.nodeName := hn
    simpa [Life.after, hn'] using eq_comm

/-- Dispatching takes an item out of the queue. -/
theorem dispatched (h : Told policy log items held) {w : WorkItem} (hw : w ∈ items)
    (hitems : ∀ v, v ∈ items' ↔ v ∈ items ∧ v.node ≠ w.node)
    (hheld : ∀ v, v ∈ held' ↔ v = w ∨ v ∈ held) :
    Told policy (log ++ [.dispatched w]) items' held' := by
  have hstanding := (h.waiting w).1 hw
  refine h.snoc rfl hstanding ?_ ?_
  · intro v hn
    have hn' : v.node ≠ w.node := hn
    have hne : v ≠ w := fun hv => hn' (by rw [hv])
    rw [hitems, hheld]
    simp [hn', hne]
  · intro v hn
    have hn' : v.node = w.node := hn
    have hout : v ∉ held := by
      intro hv
      have hv' := (h.out v).1 hv
      rw [hn', hstanding] at hv'
      exact absurd hv' (by simp)
    rw [hitems, hheld]
    simpa [Life.after, hn', hout] using eq_comm

/-- Settling takes an item out of the drain and leaves its remainder in the queue. -/
theorem settled (h : Told policy log items held) (now : Instant) {w : WorkItem}
    {ending : WorkEnding} (hw : w ∈ held)
    (hitems : ∀ v, v ∈ items' ↔
      v ∈ items ∨ (Fate.of policy w ending).remainder? w = some v)
    (hheld : ∀ v, v ∈ held' ↔ v ∈ held ∧ v.node ≠ w.node) :
    Told policy (log ++ [.settled now w ending]) items' held' := by
  have hstanding := (h.out w).1 hw
  refine h.snoc rfl hstanding ?_ ?_
  · intro v hn
    have hn' : v.node ≠ w.node := hn
    have hne : (Fate.of policy w ending).remainder? w ≠ some v :=
      fun hv => hn' (Fate.node_remainder hv)
    rw [hitems, hheld]
    simp [hn', hne]
  · intro v hn
    have hn' : v.node = w.node := hn
    have hwait : v ∉ items := by
      intro hv
      have hv' := (h.waiting v).1 hv
      rw [hn', hstanding] at hv'
      exact absurd hv' (by simp)
    rw [hitems, hheld]
    simp only [hwait, false_or, hn', ne_eq, not_true_eq_false, and_false, Life.after]
    cases (Fate.of policy w ending).remainder? w with
    | none => simp
    | some u => simp

/-- Pulling one peer after the other. -/
theorem pulledAll {q : RetryQueue} (hq : q.Sound) (now : Instant) (ps : List Peer)
    (h : Told policy log q.items []) :
    Told policy (log ++ ps.map (.pulled now)) (ps.foldl (·.pullOne now) q).items [] := by
  induction ps generalizing q log with
  | nil => simpa using h
  | cons p ps ih =>
    have hone : Told policy (log ++ [.pulled now p]) (q.pullOne now p).items [] := by
      refine h.pulled now p fun w => ?_
      rw [(hq.pullOne_items now p).mem_iff]
      simp
    have hall := ih (hq.pullOne now p) hone
    rwa [List.append_assoc] at hall

/-- Dispatching one item after the other. -/
theorem dispatchedAll {ws : List WorkItem} (hn : ((ws ++ items).map WorkItem.node).Nodup)
    (h : Told policy log (ws ++ items) held) :
    Told policy (log ++ ws.map .dispatched) items (ws ++ held) := by
  induction ws generalizing log held with
  | nil => simpa using h
  | cons w ws ih =>
    obtain ⟨hw, hrest⟩ := List.nodup_cons.1 hn
    have hone : Told policy (log ++ [.dispatched w]) (ws ++ items) (w :: held) := by
      refine h.dispatched List.mem_cons_self ?_ fun v => List.mem_cons
      intro v
      constructor
      · intro hv
        exact ⟨List.mem_cons_of_mem _ hv, fun he => hw (List.mem_map.2 ⟨v, hv, he⟩)⟩
      · rintro ⟨hv, he⟩
        rcases List.mem_cons.1 hv with rfl | hv
        · exact absurd rfl he
        · exact hv
    have hall := ih hrest hone
    rw [List.append_assoc] at hall
    refine hall.congr (fun _ => Iff.rfl) fun v => ?_
    simp only [List.mem_append, List.mem_cons]
    tauto

end Told

/-- A move of a drain goes on with the story of at most one node. -/
theorem Drain.Move.told {d d' : Drain} {log shown : List QueueEvent} (hd : d.Sound)
    (h : Told d.queue.policy log d.queue.items d.held) (move : Move d shown d') :
    Told d.queue.policy (log ++ shown) d'.queue.items d'.held := by
  have he := move.effect hd
  cases move with
  | arrive p => exact h.skip rfl
  | @start w hw _ =>
    have hstay := h.stay (e := .started w.1 w.2) rfl
      ((h.out _).1 (Drain.mem_held_of_waiting hw)) fun _ => rfl
    exact hstay.congr (fun _ => Iff.rfl) fun _ => (Drain.held_place hw).symm.mem_iff
  | @finish w hw ending =>
    have hstay := h.stay (e := .stopped w.1 w.2 ending) rfl
      ((h.out _).1 (Drain.mem_held_of_running hw)) fun _ => rfl
    rw [Drain.finish_queue]
    exact hstay.congr (fun _ => Iff.rfl) fun _ => (hd.held_finish hw ending).symm.mem_iff
  | withdraw hw =>
    rw [List.append_nil]
    exact h.congr (fun _ => Iff.rfl) fun _ => (Drain.held_withdraw hw).symm.mem_iff
  | @join _ now w ending before after ended hsettle =>
    have hheld := Drain.held_join ended
    have hw : w ∈ d.held := hheld.symm.subset (by simp)
    obtain ⟨hd', hleft⟩ := Drain.settle?_leftover hsettle
    have hnodes : (w.node :: d'.held.map WorkItem.node).Nodup := by
      have hperm : d.held.map WorkItem.node ~ w.node :: d'.held.map WorkItem.node := by
        rw [hd']
        exact (hheld.trans (List.perm_append_singleton _ _)).map _
      exact hperm.nodup_iff.1 hd.held_nodup
    have hsettled : Told d.queue.policy (log ++ [.settled now w ending]) d'.queue.items d'.held := by
      refine h.settled now hw (fun v => ?_) fun v => ?_
      · rw [he.items.mem_iff]
        simp [remainders]
      · rw [he.held.mem_iff]
        simp only [outcomes_settlement, List.map_cons, List.map_nil, List.mem_append,
          List.mem_singleton]
        constructor
        · intro hv
          refine ⟨Or.inl hv, fun heq => ?_⟩
          exact (List.nodup_cons.1 hnodes).1 (List.mem_map.2 ⟨v, hv, heq⟩)
        · rintro ⟨hv | rfl, hne⟩
          · exact hv
          · exact absurd rfl hne
    unfold settlement
    cases hcase : leftover? d.queue.policy now w ending with
    | none => exact hsettled
    | some l =>
      have hl : (Fate.of d.queue.policy w ending).remainder? w = some l.2 := by
        rw [← hleft]
        exact congrArg (Option.map (·.2)) hcase
      have hwaits : (lifeOf d.queue.policy (log ++ [.settled now w ending]) l.2.node).standing =
          .waiting l.2 := by
        refine (hsettled.waiting l.2).1 ?_
        rw [he.items.mem_iff]
        simp [remainders, hl]
      have hboth := hsettled.stay (e := .scheduled l.1 l.2) rfl hwaits fun _ => rfl
      rwa [List.append_assoc] at hboth

theorem QueueStage.Move.told {policy : RetryPolicy} {log shown : List QueueEvent}
    {s t : QueueStage} (hs : s.Sound) (hpolicy : s.queue.policy = policy)
    (h : Told policy log s.queue.items s.held) (step : Move s shown t) :
    Told policy (log ++ shown) t.queue.items t.held := by
  subst hpolicy
  cases step with
  | enqueue q p => exact h.skip rfl
  | @begin q pulled now _ =>
    have hq : q.Sound := hs
    have hpulled := h.pulledAll (q := { q with arrivals := [] }) (hq.congr rfl rfl rfl) pulled
      q.arrivals
    rw [← RetryQueue.pullArrivals_eq] at hpulled
    have hparts := (q.pullArrivals pulled).due_append_later now
    have hsplit := hpulled.congr (fun w => hparts.mem_iff) (fun w => Iff.rfl)
    have hn : (((q.pullArrivals pulled).due now ++ (q.pullArrivals pulled).later now).map
        WorkItem.node).Nodup := by
      rw [(hparts.map _).nodup_iff]
      exact (hq.pullArrivals pulled).items_nodup
    have hall := (hsplit.skip (e := .drained now ((q.pullArrivals pulled).due now)) rfl)
      |>.dispatchedAll hn
    rw [List.append_assoc, List.append_assoc, List.append_nil] at hall
    simp only [queue, held, Drain.begin_items, Drain.begin_held]
    exact hall
  | work move => exact move.told hs h
  | @close d hover =>
    rw [List.append_nil]
    refine h.congr (fun _ => Iff.rfl) fun w => ?_
    simp only [held, held_eq_nil hover]

theorem QueueStage.Moves.told {policy : RetryPolicy} {log : List QueueEvent} {s : QueueStage}
    (h : Run Move (.idle { policy }) log s) : Told policy log s.queue.items s.held := by
  induction h with
  | refl => exact Told.nil policy
  | tail run step ih =>
    obtain ⟨hs, hpolicy, -⟩ := QueueStage.Moves.sound run
    exact step.told hs hpolicy ih

/-! ## What a policy promises -/

/-- Whether the end of an attempt is the end of the item: the handler broke down, or failed with a
format error that is not retried, or failed in any other way after all retries. -/
def GivesUp (policy : RetryPolicy) (w : WorkItem) (ending : WorkEnding) : Prop :=
  ending = .crashed ∨ ∃ e, ending = .value (.error e) ∧
    (e.isFormat = true ∧ policy.retryFormatErrors = false ∨
      e ≠ .cancelled ∧ w.retries = policy.maxRetries)

theorem Fate.of_eq_abandoned_iff {policy : RetryPolicy} {w : WorkItem} (ending : WorkEnding)
    (h : w.retries ≤ policy.maxRetries) :
    Fate.of policy w ending = .abandoned ↔ GivesUp policy w ending := by
  unfold Fate.of GivesUp
  cases ending with
  | crashed => simp
  | aborted => simp
  | value result =>
    cases result with
    | ok _ => simp
    | error e =>
      have hmax : policy.maxRetries ≤ w.retries ↔ w.retries = policy.maxRetries := by omega
      by_cases hc : e = .cancelled
      · simp [hc, ResolveError.isFormat]
      · by_cases hf : e.isFormat = true ∧ policy.retryFormatErrors = false
        · simp [hc, hf]
        · simp [hc, hf, hmax]

/-- What a retry policy promises about what a queue has shown and what it does next. -/
structure QueueStage.Bounded (policy : RetryPolicy) (log : List QueueEvent) (s : QueueStage) :
    Prop where
  /-- As long as a node is not pulled, the attempts at it that count are at most one more than the
  retries that are allowed. -/
  attempts : ∀ node before segment after, log = before ++ segment ++ after →
    (∀ now p, .pulled now p ∈ segment → p.nodeName ≠ node) →
    (segment.countP fun e => e.node? = some node && e.isAttempt) ≤ policy.maxRetries + 1
  /-- No item has been retried more often than is allowed. -/
  retries : ∀ w ∈ s.queue.items ++ s.held, w.retries ≤ policy.maxRetries
  /-- An item whose attempt does not count is put back as it was, -/
  putBack : ∀ d shown d', s = .draining d → Drain.Move d shown d' →
    ∀ now w ending, .settled now w ending ∈ shown →
      (QueueEvent.settled now w ending).isAttempt = false → w ∈ d'.queue.items
  /-- and so it is dispatched next, unless its node is pulled before. -/
  kept : ∀ before now w ending between v after,
    log = before ++ .settled now w ending :: (between ++ .dispatched v :: after) →
    (QueueEvent.settled now w ending).isAttempt = false → v.node = w.node →
    (∀ now p, .pulled now p ∈ between → p.nodeName ≠ w.node) →
    (∀ u, .dispatched u ∈ between → u.node ≠ w.node) → v = w
  /-- Just those items are given up for which the policy says so. -/
  abandoned : ∀ d shown d', s = .draining d → Drain.Move d shown d' →
    d'.report.abandoned =
      d.report.abandoned ++ (fated policy .abandoned shown).map WorkItem.node ∧
    ∀ now w ending, .settled now w ending ∈ shown →
      (Fate.of policy w ending = .abandoned ↔ GivesUp policy w ending)
  /-- A node that is done or given up is not heard of before it is pulled. -/
  quiet : ∀ before now w ending between after,
    log = before ++ .settled now w ending :: (between ++ after) →
    Fate.of policy w ending = .succeeded ∨ Fate.of policy w ending = .abandoned →
    (∀ now p, .pulled now p ∈ between → p.nodeName ≠ w.node) →
    ∀ e ∈ between, e.node? ≠ some w.node

theorem story_pulled {node : String} {log : List QueueEvent}
    (h : ∀ now p, .pulled now p ∈ log → p.nodeName ≠ node) :
    ∀ now p, .pulled now p ∉ story node log := by
  intro now p hp
  obtain ⟨hp, hnode⟩ := List.mem_filter.1 hp
  exact h now p hp (Option.some.inj (of_decide_eq_true hnode))

theorem story_dispatched {node : String} {log : List QueueEvent}
    (h : ∀ w, .dispatched w ∈ log → w.node ≠ node) : ∀ w, .dispatched w ∉ story node log := by
  intro w hw
  obtain ⟨hw, hnode⟩ := List.mem_filter.1 hw
  exact h w hw (Option.some.inj (of_decide_eq_true hnode))

theorem countP_story (node : String) (log : List QueueEvent) :
    (story node log).countP QueueEvent.isAttempt =
      log.countP fun e => e.node? = some node && e.isAttempt := by
  simp [story, List.countP_filter, Bool.and_comm]

theorem story_cons_self {e : QueueEvent} {node : String} (he : e.node? = some node)
    (log : List QueueEvent) : story node (e :: log) = e :: story node log := by
  simp [story, he]

namespace Told

variable {policy : RetryPolicy} {log : List QueueEvent} {items held : List WorkItem}

/-- At every point, the life of a node so far is a good one, and the rest of what was shown goes on
with it. -/
theorem split (h : Told policy log items held) {before after : List QueueEvent}
    (hlog : log = before ++ after) (node : String) :
    (lifeOf policy before node).Good policy ∧
      Life.Tells policy (lifeOf policy before node) (story node after) := by
  have hfits := h.fits node
  rw [hlog, story_append, Life.tells_append] at hfits
  have hstart : Life.Good policy {} := Nat.zero_le _
  exact ⟨hstart.tells hfits.1, hfits.2⟩

theorem retries_le (h : Told policy log items held) {w : WorkItem} (hw : w ∈ items ++ held) :
    w.retries ≤ policy.maxRetries := by
  obtain ⟨hgood, -⟩ := h.split (List.append_nil log).symm w.node
  unfold Life.Good at hgood
  rcases List.mem_append.1 hw with hw | hw
  · rw [(h.waiting w).1 hw] at hgood
    obtain ⟨hretries, hmax⟩ := hgood
    omega
  · rw [(h.out w).1 hw] at hgood
    obtain ⟨hretries, hmax⟩ := hgood
    omega

theorem attempts_le (h : Told policy log items held) {node : String}
    {before segment after : List QueueEvent} (hlog : log = before ++ segment ++ after)
    (hpull : ∀ now p, .pulled now p ∈ segment → p.nodeName ≠ node) :
    (segment.countP fun e => e.node? = some node && e.isAttempt) ≤ policy.maxRetries + 1 := by
  rw [List.append_assoc] at hlog
  obtain ⟨hgood, hstory⟩ := h.split hlog node
  rw [story_append, Life.tells_append] at hstory
  have hle := (hgood.tells hstory.1).attempts_le
  have hcount := @Life.attempts_of_no_pull policy (lifeOf policy before node) _ (story_pulled hpull)
  rw [countP_story] at hcount
  omega

/-- After an event, the life of its node goes on with the rest of what was shown. -/
theorem tells_after (h : Told policy log items held) {before after : List QueueEvent}
    {e : QueueEvent} {node : String} (he : e.node? = some node) (hlog : log = before ++ e :: after) :
    Life.Tells policy ((lifeOf policy before node).after policy e) (story node after) := by
  obtain ⟨-, hstory⟩ := h.split hlog node
  rw [story_cons_self he] at hstory
  exact hstory.2

/-- Since a peer was pulled, the life of its node is one of its own items. -/
theorem life_since_pull (h : Told policy log items held) {before after : List QueueEvent}
    {now : Instant} {x : Peer} (hlog : log = before ++ .pulled now x :: after)
    (hpull : ∀ now p, .pulled now p ∈ after → p.nodeName ≠ x.nodeName) :
    (lifeOf policy log x.nodeName).IsFor x ∧
      (lifeOf policy log x.nodeName).attempts =
        after.countP fun e => e.node? = some x.nodeName && e.isAttempt := by
  have hstory := h.tells_after rfl hlog
  have hnone := story_pulled hpull
  let start := (lifeOf policy before x.nodeName).after policy (.pulled now x)
  have hlife : lifeOf policy log x.nodeName =
      (story x.nodeName after).foldl (Life.after policy) start := by
    rw [lifeOf, hlog, story_append, List.foldl_append, story_cons_self rfl]
    rfl
  have hstart : start.IsFor x := by
    rintro w (hw | hw)
    · rw [← Standing.waiting.inj hw]
    · exact absurd hw (by simp [start, Life.after])
  rw [hlife]
  refine ⟨hstart.tells hstory hnone, ?_⟩
  rw [Life.attempts_of_no_pull hnone, countP_story]
  exact Nat.zero_add _

/-- The attempt that is going on is one of those that the policy allows. -/
theorem attempts_since_pull (h : Told policy log items held) {before after : List QueueEvent}
    {now : Instant} {x : Peer} (hlog : log = before ++ .pulled now x :: after)
    (hpull : ∀ now p, .pulled now p ∈ after → p.nodeName ≠ x.nodeName)
    (hheld : (held.map WorkItem.node).Nodup) :
    (after.countP fun e => e.node? = some x.nodeName && e.isAttempt) +
      (held.countP fun w => w.node = x.nodeName) ≤ policy.maxRetries + 1 := by
  obtain ⟨-, hattempts⟩ := h.life_since_pull hlog hpull
  obtain ⟨hgood, -⟩ := h.split (List.append_nil log).symm x.nodeName
  have hone : (held.countP fun w => w.node = x.nodeName) ≤ 1 := by
    have hcount := List.nodup_iff_count_le_one.1 hheld x.nodeName
    rw [List.count, List.countP_map] at hcount
    exact hcount
  by_cases hout : ∃ w ∈ held, w.node = x.nodeName
  · obtain ⟨w, hw, hnode⟩ := hout
    have hstanding := (h.out w).1 hw
    rw [hnode] at hstanding
    unfold Life.Good at hgood
    rw [hstanding] at hgood
    obtain ⟨-, hmax⟩ := hgood
    omega
  · have hzero : (held.countP fun w => w.node = x.nodeName) = 0 := by
      refine List.countP_eq_zero.2 fun w hw hnode => hout ⟨w, hw, of_decide_eq_true hnode⟩
    have hle := hgood.attempts_le
    omega

theorem eq_of_kept (h : Told policy log items held) {before between after : List QueueEvent}
    {now : Instant} {w v : WorkItem} {ending : WorkEnding}
    (hlog : log = before ++ .settled now w ending :: (between ++ .dispatched v :: after))
    (hkept : (QueueEvent.settled now w ending).isAttempt = false) (hnode : v.node = w.node)
    (hpull : ∀ now p, .pulled now p ∈ between → p.nodeName ≠ w.node)
    (hnext : ∀ u, .dispatched u ∈ between → u.node ≠ w.node) : v = w := by
  have hstory := h.tells_after rfl hlog
  have hfate := (Fate.of_eq_requeued_iff policy now w ending).2 hkept
  have hv : (QueueEvent.dispatched v).node? = some w.node := congrArg some hnode
  rw [story_append, story_cons_self hv] at hstory
  refine Life.eq_of_waiting hstory ?_ (story_pulled hpull) (story_dispatched hnext)
  simp [Life.after, hfate, Fate.remainder?]

theorem node_ne_of_over (h : Told policy log items held) {before between after : List QueueEvent}
    {now : Instant} {w : WorkItem} {ending : WorkEnding}
    (hlog : log = before ++ .settled now w ending :: (between ++ after))
    (hover : Fate.of policy w ending = .succeeded ∨ Fate.of policy w ending = .abandoned)
    (hpull : ∀ now p, .pulled now p ∈ between → p.nodeName ≠ w.node) :
    ∀ e ∈ between, e.node? ≠ some w.node := by
  have hstory := h.tells_after rfl hlog
  rw [story_append, Life.tells_append] at hstory
  have hgone : ((lifeOf policy before w.node).after policy (.settled now w ending)).standing =
      .gone := by
    rcases hover with hfate | hfate <;> simp [Life.after, hfate, Fate.remainder?]
  have hnil := Life.eq_nil_of_gone hstory.1 hgone (story_pulled hpull)
  intro e he hnode
  have hmem : e ∈ story w.node between := List.mem_filter.2 ⟨he, decide_eq_true hnode⟩
  rw [hnil] at hmem
  exact absurd hmem List.not_mem_nil

end Told

/-- Whatever happens to a queue, its policy keeps what it promises. -/
theorem queue_attempts_bounded {policy : RetryPolicy} {log : List QueueEvent} {s : QueueStage}
    (h : Run QueueStage.Move (.idle { policy }) log s) : s.Bounded policy log := by
  have ht := QueueStage.Moves.told h
  obtain ⟨hs, hpolicy, -⟩ := QueueStage.Moves.sound h
  refine ⟨?_, fun w hw => ht.retries_le hw, ?_, ?_, ?_, ?_⟩
  · intro node before segment after hlog hpull
    exact ht.attempts_le hlog hpull
  · rintro d shown d' rfl move now w ending hshown hkept
    have he := move.effect hs
    rw [he.items.mem_iff, List.mem_append]
    have hfate := (Fate.of_eq_requeued_iff d.queue.policy now w ending).2 hkept
    exact Or.inr (List.mem_filterMap.2
      ⟨(w, ending), mem_outcomes hshown, by simp [hfate, Fate.remainder?]⟩)
  · intro before now w ending between v after hlog hkept hnode hpull hnext
    exact ht.eq_of_kept hlog hkept hnode hpull hnext
  · rintro d shown d' rfl move
    have hd : d.queue.policy = policy := hpolicy
    have he := move.effect hs
    have hnodes := he.nodes .abandoned (by decide)
    rw [hd] at hnodes
    refine ⟨hnodes, fun now w ending hshown => Fate.of_eq_abandoned_iff ending (ht.retries_le ?_)⟩
    have hout : w ∈ (outcomes shown).map (·.1) :=
      List.mem_map.2 ⟨(w, ending), mem_outcomes hshown, rfl⟩
    exact List.mem_append_right _ (he.held.mem_iff.2 (List.mem_append_right _ hout))
  · intro before now w ending between after hlog hover hpull
    exact ht.node_ne_of_over hlog hover hpull

/-- Without retries, the first attempt is the last one. -/
theorem queue_attempts_bounded_no_retries :
    ∃ log s, Run QueueStage.Move (.idle { policy := { maxRetries := 0 } }) log s ∧
      (log.countP fun e => e.node? = some "a" && e.isAttempt) = 1 ∧
        s.Bounded { maxRetries := 0 } log := by
  let w : Nat × WorkItem := (0, ⟨{ nodeName := "a" }, 0⟩)
  have hbegin := (Run.single (QueueStage.Move.enqueue { policy := { maxRetries := 0 } }
    w.2.peer)).tail (.begin _ (Nat.le_refl 0))
  have hstart := hbegin.tail (.work (.start (w := w) List.mem_cons_self (by decide)))
  have hend := hstart.tail
    (.work (.finish (w := w) List.mem_cons_self (.value (.error (.emptyIdentity "a")))))
  have hrun := hend.tail (.work (@Drain.Move.join _ _ 0 _ _ [] [] rfl rfl))
  exact ⟨_, _, hrun, rfl, queue_attempts_bounded hrun⟩

end Rendezvous
