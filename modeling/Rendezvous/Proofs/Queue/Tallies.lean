import Rendezvous.Proofs.Pool.TaskAccounts
import Rendezvous.Proofs.Queue.Workshop
import Rendezvous.Proofs.Resolve.CallCosts

/-!
# The ledger of a node

The tasks that work for a node, one after the other, share a ledger: what one of them has found is
known to the next, its commands are counted on, and each of them brings in one command more. All other
tasks are free to do as they like, since they only add to what is kept.
-/

namespace Rendezvous

open Routine

/-- Terms that count nothing and allow everything cover whatever is needed. -/
theorem Terms.free_covers (B : Belief) (p : Peer) : Terms.Covers {} B p where
  own _ := ⟨fun _ _ _ _ => trivial, fun _ _ =>
    ⟨fun h => absurd h (by simp), fun h => absurd h (by simp), fun _ _ _ => trivial⟩⟩
  others _ := ⟨fun _ _ => ⟨fun _ _ _ _ => trivial, fun _ _ =>
    ⟨fun h => absurd h (by simp), fun h => absurd h (by simp), fun _ _ _ => trivial⟩⟩,
    fun _ _ _ => trivial⟩

namespace Workshop

variable {w : World} {s : Settings} {policy : RetryPolicy} {B : Belief} {T : Terms} {L : Ledger}
  {node : String} {c c' : Workshop} {log shown : List WorkshopEvent}
  {st : Nat → TaskAccount (Except ResolveError Resolution)}

/-! ## The ledger of a node -/

/-- What the tasks of a node have gone through. -/
def eventsOf (node : String) (log : List WorkshopEvent) : List TaskEvent :=
  log.filterMap fun
    | .did item e => if item.node = node then some e else none
    | _ => none

/-- The commands that the tasks of a node have started. -/
def calls (node : String) (log : List WorkshopEvent) : List Request :=
  (eventsOf node log).filterMap TaskEvent.called?

/-- The ledger of a node after an event. -/
def note (T : Terms) (node : String) (L : Ledger) : WorkshopEvent → Ledger
  | .queue (.started _ item) => if item.node = node then L.grant else L
  | .did item e => if item.node = node then L.note T e else L
  | _ => L

/-- The ledger of a node after some events. -/
def tally (T : Terms) (node : String) (L : Ledger) (log : List WorkshopEvent) : Ledger :=
  log.foldl (note T node) L

theorem eventsOf_append (node : String) (log log' : List WorkshopEvent) :
    eventsOf node (log ++ log') = eventsOf node log ++ eventsOf node log' :=
  List.filterMap_append

theorem note_started (id : Nat) (item : WorkItem) :
    note T node L (.queue (.started id item)) = if item.node = node then L.grant else L := rfl

/-- What the queue shows is entered only where an attempt begins. -/
theorem note_queue {e : QueueEvent} (h : e.start? = none) : note T node L (.queue e) = L := by
  cases e with
  | started id item => exact absurd h (by simp [QueueEvent.start?])
  | _ => rfl

theorem note_did (item : WorkItem) (e : TaskEvent) :
    note T node L (.did item e) = if item.node = node then L.note T e else L := rfl

theorem tally_append (T : Terms) (node : String) (L : Ledger) (log log' : List WorkshopEvent) :
    tally T node L (log ++ log') = tally T node (tally T node L log) log' :=
  List.foldl_append

theorem tally_queue (h : ∀ e ∈ shown, ∃ e', e = .queue e' ∧ e'.start? = none) :
    tally T node L shown = L := by
  induction shown with
  | nil => rfl
  | cons e shown ih =>
    rw [List.forall_mem_cons] at h
    obtain ⟨⟨e', rfl, hstart⟩, hrest⟩ := h
    show tally T node (note T node L (.queue e')) shown = L
    rw [note_queue hstart]
    exact ih hrest

theorem tally_did (T : Terms) (L : Ledger) (item : WorkItem) (shown : List (Nat × TaskEvent)) :
    tally T node L (shown.map fun e => .did item e.2) =
      if item.node = node then (shown.map (·.2)).foldl (Ledger.note T) L else L := by
  by_cases hnode : item.node = node
  · rw [if_pos hnode]
    induction shown generalizing L with
    | nil => rfl
    | cons e shown ih =>
      have hnote : note T node L (.did item e.2) = L.note T e.2 := if_pos hnode
      show tally T node (note T node L (.did item e.2)) _ = _
      rw [hnote, ih]
      rfl
  · rw [if_neg hnode]
    induction shown with
    | nil => rfl
    | cons e shown ih =>
      have hnote : note T node L (.did item e.2) = L := if_neg hnode
      show tally T node (note T node L (.did item e.2)) _ = _
      rw [hnote]
      exact ih

theorem known_tally (T : Terms) (node : String) (L : Ledger) (log : List WorkshopEvent) :
    L.known ⊆ (tally T node L log).known := by
  induction log generalizing L with
  | nil => exact Finset.Subset.refl _
  | cons e log ih =>
    refine Finset.Subset.trans ?_ (ih (note T node L e))
    cases e with
    | queue e =>
      cases e with
      | started id item =>
        rw [note_started]
        split <;> exact Finset.Subset.refl _
      | _ => exact Finset.Subset.refl _
    | did item e =>
      rw [note_did]
      split
      · exact L.known_note T e
      · exact Finset.Subset.refl _
    | forgot _ => exact Finset.Subset.refl _

/-- Within an attempt, every command remains that nothing has been kept for. -/
theorem idle_tally (hstarted : ∀ id item, .queue (.started id item) ∈ log → item.node ≠ node)
    (hfound : ∀ e ∈ eventsOf node log, e.found? = none) : L.idle ≤ (tally T node L log).idle := by
  induction log generalizing L with
  | nil => exact le_refl _
  | cons e log ih =>
    have hrest : ∀ e ∈ eventsOf node log, e.found? = none := by
      intro e' he'
      refine hfound e' ?_
      rw [← List.singleton_append, eventsOf_append]
      exact List.mem_append_right _ he'
    have hone : L.idle ≤ (note T node L e).idle := by
      cases e with
      | queue e =>
        cases e with
        | started id item =>
          rw [note_started, if_neg (hstarted id item List.mem_cons_self)]
        | _ => exact le_refl _
      | did item e =>
        rw [note_did]
        by_cases hnode : item.node = node
        · have hmem : e ∈ eventsOf node (.did item e :: log) := by simp [eventsOf, hnode]
          rw [if_pos hnode]
          exact Ledger.idle_note (hfound e hmem)
        · rw [if_neg hnode]
      | forgot _ => exact le_refl _
    exact hone.trans
      (ih (fun id item hmem => hstarted id item (List.mem_cons_of_mem _ hmem)) hrest)

/-- Every command that was started for a node was paid for and could be started by then. -/
def Allowed (T : Terms) (node : String) (L : Ledger) (log : List WorkshopEvent) : Prop :=
  ∀ before item r after, log = before ++ .did item (.called r) :: after → item.node = node →
    (tally T node L before).Paid T ∧ T.may (tally T node L before).known r

theorem Allowed.of_not_mem (h : ∀ item r, .did item (.called r) ∈ log → item.node ≠ node) :
    Allowed T node L log := by
  intro before item r after hlog hnode
  refine absurd hnode (h item r ?_)
  rw [hlog]
  exact List.mem_append_cons_self

theorem Allowed.queue (h : ∀ e ∈ shown, ∃ e', e = .queue e' ∧ e'.start? = none) :
    Allowed T node L shown := by
  refine Allowed.of_not_mem fun item r hmem => ?_
  obtain ⟨e', heq, -⟩ := h _ hmem
  exact absurd heq (by simp)

/-- What a task shows in one turn for an item of the node. -/
theorem Allowed.did {item : WorkItem} {shown : List (Nat × TaskEvent)} (hone : shown.length ≤ 1)
    (h : ∀ e ∈ shown, ∀ r, e.2 = .called r → L.Paid T ∧ T.may L.known r) :
    Allowed T node L (shown.map fun e => .did item e.2) := by
  intro before item' r after hshown _
  have hlength := congrArg List.length hshown
  simp only [List.length_map, List.length_append, List.length_cons] at hlength
  have hbefore : before = [] := List.length_eq_zero_iff.1 (by omega)
  subst hbefore
  have hmem : .did item' (.called r) ∈ shown.map fun e => WorkshopEvent.did item e.2 := by
    rw [hshown]
    exact List.mem_cons_self
  obtain ⟨e, he, heq⟩ := List.mem_map.1 hmem
  obtain ⟨-, hcalled⟩ := WorkshopEvent.did.inj heq
  exact h e he r hcalled

theorem Allowed.append (h : Allowed T node L log) (h' : Allowed T node (tally T node L log) shown) :
    Allowed T node L (log ++ shown) := by
  intro before item r after hlog hnode
  rcases List.append_eq_append_iff.1 hlog with ⟨mid, rfl, hshown⟩ | ⟨mid, rfl, hafter⟩
  · rw [tally_append]
    exact h' mid item r after hshown hnode
  · cases mid with
    | nil =>
      rw [List.append_nil] at h'
      exact h' [] item r after hafter.symm hnode
    | cons e mid =>
      obtain ⟨rfl, -⟩ := List.cons.inj hafter
      exact h before item r mid rfl hnode

/-- Where a task of a node has started a command, it could start it by then. -/
theorem Allowed.called (h : Allowed T node L log) {before after : List TaskEvent} {r : Request}
    (hlog : eventsOf node log = before ++ .called r :: after) :
    ∃ log', eventsOf node log' = before ∧ T.may (tally T node L log').known r := by
  obtain ⟨log₁, log₂, rfl, hbefore, hrest⟩ := List.filterMap_eq_append_iff.1 hlog
  obtain ⟨log₃, event, log₄, rfl, hnone, hevent, -⟩ := List.filterMap_eq_cons_iff.1 hrest
  refine ⟨log₁ ++ log₃, ?_, ?_⟩
  · rw [eventsOf_append]
    have hnil : eventsOf node log₃ = [] := List.filterMap_eq_nil_iff.2 hnone
    rw [hnil, List.append_nil]
    exact hbefore
  · cases event with
    | did item e =>
      dsimp only at hevent
      by_cases hnode : item.node = node
      · rw [if_pos hnode, Option.some.injEq] at hevent
        subst hevent
        exact (h (log₁ ++ log₃) item r log₄ (by simp) hnode).2
      · rw [if_neg hnode] at hevent
        exact absurd hevent (by simp)
    | _ => exact absurd hevent (by simp)

/-- Between two commands of one attempt something is kept. -/
theorem Allowed.between (h : Allowed T node L log) {before mid after : List WorkshopEvent}
    {i i' : WorkItem} {r r' : Request}
    (hlog : log = before ++ .did i (.called r) :: (mid ++ .did i' (.called r') :: after))
    (hi : i.node = node) (hi' : i'.node = node)
    (hstarted : ∀ id item, .queue (.started id item) ∈ mid → item.node ≠ node) :
    ∃ e ∈ eventsOf node mid, ∃ f, e.found? = some f := by
  by_contra hnone
  have hfound : ∀ e ∈ eventsOf node mid, e.found? = none := by
    intro e he
    cases hf : e.found? with
    | none => rfl
    | some f => exact absurd ⟨e, he, f, hf⟩ hnone
  have hsplit : log = (before ++ .did i (.called r) :: mid) ++ .did i' (.called r') :: after := by
    rw [hlog, List.append_assoc]
    rfl
  obtain ⟨⟨-, hidle⟩, -⟩ := h _ i' r' after hsplit hi'
  have htally : tally T node L (before ++ .did i (.called r) :: mid) =
      tally T node (tally T node L before).call mid := by
    have hcall : note T node (tally T node L before) (.did i (.called r)) =
        (tally T node L before).call := if_pos hi
    rw [tally_append, ← hcall]
    rfl
  have hmore := @idle_tally T (tally T node L before).call node mid hstarted hfound
  rw [htally] at hidle
  rw [hidle] at hmore
  exact absurd hmore (Nat.not_succ_le_zero _)

/-- The task that works for a node goes by the ledger of the node, and all others are free. -/
structure Tallied (w : World) (B : Belief) (lifetime : Duration) (T : Terms) (node : String)
    (c : Workshop) (st : Nat → TaskAccount (Except ResolveError Resolution)) (L : Ledger) : Prop where
  inLine : Pool.InLine w B lifetime c.pool st
  shared : ∀ j ∈ c.jobs, j.item.node = node → (st j.task).terms = T ∧ (st j.task).ledger = L
  sound : L.Sound c.pool.memory T
  free : ∀ i, (st i).terms = T ∨ (st i).terms = {}

/-- A new task comes in, and the tasks that there are go on as they did. -/
theorem Tallied.spawn {stage : QueueStage} {p : Pool (Except ResolveError Resolution)}
    {jobs : List Job} (h : Tallied w B s.lifetime T node ⟨stage, p, jobs⟩ st L) {stage' : QueueStage}
    {j : Job} {L' : Ledger} {r : Routine (Except ResolveError Resolution)}
    (new : TaskAccount (Except ResolveError Resolution)) (hj : j.task = p.tasks.length)
    (hother : ∀ i ∈ jobs, i.task ≠ j.task)
    (hr : r.Ensures (underLedger new.terms B s.lifetime) new.aim new.ledger)
    (hnew : new.Sound p.memory) (hsound : L'.Sound p.memory T)
    (hmine : j.item.node = node → new.terms = T ∧ new.ledger = L')
    (hsame : ∀ i ∈ jobs, i.item.node = node → L' = L) (hfree : new.terms = T ∨ new.terms = {}) :
    ∃ st', Tallied w B s.lifetime T node ⟨stage', p.spawn r, jobs ++ [j]⟩ st' L' := by
  refine ⟨_, h.inLine.spawn hr hnew, ?_, hsound, ?_⟩
  · intro i hi hnode
    rcases List.mem_append.1 hi with hi | hi
    · have hne : i.task ≠ p.tasks.length := hj ▸ hother i hi
      rw [Function.update_of_ne hne, hsame i hi hnode]
      exact h.shared i hi hnode
    · obtain rfl := List.mem_singleton.1 hi
      rw [hj, Function.update_self]
      exact hmine hnode
  · intro i
    by_cases hi : i = p.tasks.length
    · rw [hi, Function.update_self]
      exact hfree
    · rw [Function.update_of_ne hi]
      exact h.free i

/-- A task is started for an item. If the item is one of the node, no other task works for the node, and
a new attempt is entered in its ledger. -/
theorem Tallied.start {stage stage' : QueueStage} {p : Pool (Except ResolveError Resolution)}
    {jobs : List Job} {id : Nat} {item : WorkItem}
    (h : Tallied w B s.lifetime T node ⟨stage, p, jobs⟩ st L) (htells : ∀ writes, T.tells writes)
    (hcovers : item.node = node → .record node ∉ L.known → T.Covers B item.peer)
    (hfresh : ∀ i ∈ jobs, i.task ≠ p.tasks.length)
    (halone : item.node = node → ∀ i ∈ jobs, i.item.node ≠ node) :
    ∃ st', Tallied w B s.lifetime T node
      ⟨stage', p.spawn (Resolve.process s item.peer).run, jobs ++ [⟨p.tasks.length, id, item⟩]⟩ st'
      (note T node L (.queue (.started id item))) := by
  rw [note_started]
  by_cases hnode : item.node = node
  · have hprocess := Resolve.costs_process (s := s) (p := item.peer) h.sound.spent.grant
      (fun hnone => hcovers hnode (hnode ▸ hnone)) (fun _ _ writes _ _ => htells writes)
    have hgrant := h.sound.grant
    rw [if_pos hnode]
    exact h.spawn { terms := T, ledger := L.grant } rfl hfresh (hprocess.mono fun _ _ _ => trivial)
      hgrant hgrant (fun _ => ⟨rfl, rfl⟩) (fun i hi heq => absurd heq (halone hnode i hi)) (Or.inl rfl)
  · have hpaid : Ledger.Paid {} {} := ⟨fun hcounts => absurd hcounts (by simp), rfl⟩
    have hprocess := Resolve.costs_process (s := s) (p := item.peer) hpaid
      (fun _ => Terms.free_covers B item.peer) (fun _ _ _ _ _ => trivial)
    rw [if_neg hnode]
    exact h.spawn {} rfl hfresh (hprocess.mono fun _ _ _ => trivial) (Ledger.sound_new p.memory {})
      h.sound (fun heq => absurd heq hnode) (fun _ _ _ => rfl) (Or.inr rfl)

/-- A task that works for an item has its turn. If the item is one of the node, the turn is entered in
the ledger of the node. -/
theorem Tallied.work (hw : w.Trusty B s.lifetime) {stage : QueueStage}
    {p p' : Pool (Except ResolveError Resolution)} {jobs : List Job} {j : Job}
    {shown : List (Nat × TaskEvent)} (hc : Sound policy log ⟨stage, p, jobs⟩)
    (h : Tallied w B s.lifetime T node ⟨stage, p, jobs⟩ st L) (hj : j ∈ jobs)
    (hturn : Pool.Turn w p shown p') (hown : ∀ e ∈ shown, e.1 = j.task) :
    (∃ st', Tallied w B s.lifetime T node ⟨stage, p', jobs⟩ st'
      (tally T node L (shown.map fun e => .did j.item e.2))) ∧
      Allowed T node L (shown.map fun e => .did j.item e.2) := by
  obtain ⟨hline, hlicensed⟩ := hturn.inLine hw h.inLine
  rw [tally_did]
  by_cases hnode : j.item.node = node
  · obtain ⟨hterms, hledger⟩ := h.shared j hj hnode
    have hafter : ((st j.task).after (own j.task shown)).ledger =
        (shown.map (·.2)).foldl (Ledger.note T) L := by
      rw [TaskAccount.after, own_eq_map hown, hterms, hledger]
    rw [if_pos hnode]
    refine ⟨⟨_, hline, ?_, ?_, h.free⟩, Allowed.did hturn.length_shown fun e he r hcalled => ?_⟩
    · intro i hi heq
      obtain rfl : i = j := List.inj_on_of_nodup_map hc.nodes_nodup hi hj (heq.trans hnode.symm)
      exact ⟨hterms, hafter⟩
    · have hsound := hline.sound j.task
      have hterms' : ((st j.task).after (own j.task shown)).terms = T := hterms
      rwa [TaskAccount.Sound, hafter, hterms'] at hsound
    · have hlicense := hlicensed e he
      rw [hcalled, hown e he] at hlicense
      rw [← hterms, ← hledger]
      exact hlicense
  · rw [if_neg hnode]
    refine ⟨⟨_, hline, ?_, h.sound.mono (hturn.keeps hw h.inLine), h.free⟩, ?_⟩
    · intro i hi heq
      have hne : i ≠ j := fun h => hnode (h ▸ heq)
      have htask : i.task ≠ j.task := fun heq => hne (List.inj_on_of_nodup_map hc.tasks_nodup hi hj heq)
      have hnone := own_eq_nil_of fun e he => (hown e he).trans_ne htask.symm
      rw [hnone, TaskAccount.after_nil]
      exact h.shared i hi heq
    · refine Allowed.of_not_mem fun item r hmem => ?_
      obtain ⟨e, -, heq⟩ := List.mem_map.1 hmem
      obtain ⟨rfl, -⟩ := WorkshopEvent.did.inj heq
      exact hnode

/-- A step of the workshop keeps the tasks of a node and its ledger in line. -/
theorem Tallied.step (hw : w.Trusty B s.lifetime) (htells : ∀ writes, T.tells writes)
    (hc : Sound policy log c) (h : Tallied w B s.lifetime T node c st L)
    (step : Step w s c shown c')
    (hcovers : ∀ id item, .queue (.started id item) ∈ shown → item.node = node →
      .record node ∉ L.known → T.Covers B item.peer)
    (hforgot : ∀ other, .forgot other ∈ shown → ¬ T.Tracks (.id other) ∧ ¬ T.Tracks (.own other)) :
    (∃ st', Tallied w B s.lifetime T node c' st' (tally T node L shown)) ∧
      Allowed T node L shown := by
  have hafter := step.sound hc
  cases step with
  | @queue stage stage' p jobs shown hmove hplaces =>
    have hqueue : ∀ e ∈ shown.map WorkshopEvent.queue, ∃ e', e = .queue e' ∧ e'.start? = none := by
      intro e he
      obtain ⟨e', he', rfl⟩ := List.mem_map.1 he
      exact ⟨e', rfl, List.filterMap_eq_nil_iff.1 (starts_move hmove hplaces) e' he'⟩
    rw [tally_queue hqueue]
    exact ⟨⟨st, h.inLine, h.shared, h.sound, h.free⟩, Allowed.queue hqueue⟩
  | @start stage stage' p jobs id item hmove =>
    refine ⟨h.start htells (hcovers id item List.mem_cons_self) hc.task_ne_length ?_,
      Allowed.of_not_mem fun item r hmem => by simp at hmem⟩
    intro hnode i hi heq
    have hnodes := hafter.nodes_nodup
    rw [List.map_append, List.nodup_append] at hnodes
    exact hnodes.2.2 i.item.node (List.mem_map_of_mem hi) item.node (by simp) (heq.trans hnode.symm)
  | work hj hturn hown => exact h.work hw hc hj hturn hown
  | drop ht _ hcut =>
    exact ⟨⟨st, h.inLine.drop ht hcut, h.shared, h.sound, h.free⟩, Allowed.of_not_mem (by simp)⟩
  | finish hj _ _ _ =>
    refine ⟨⟨st, h.inLine, ?_, h.sound, h.free⟩, Allowed.of_not_mem (by simp)⟩
    exact fun i hi => h.shared i (List.mem_of_mem_erase hi)
  | cancel =>
    exact ⟨⟨st, h.inLine.cancel, h.shared, h.sound.cancel, h.free⟩, Allowed.of_not_mem (by simp)⟩
  | forget _ other =>
    have hother := hforgot other List.mem_cons_self
    refine ⟨⟨st, h.inLine.forget ?_, h.shared, h.sound.forget hother.1 hother.2, h.free⟩,
      Allowed.of_not_mem (by simp)⟩
    intro i
    rcases h.free i with hterms | hterms
    · rw [hterms]
      exact hother
    · rw [hterms]
      simp [Terms.Tracks, Finding.isRecord]

theorem Tallied.run {log₀ : List WorkshopEvent} (hw : w.Trusty B s.lifetime)
    (htells : ∀ writes, T.tells writes) (hc : Sound policy log₀ c)
    (h : Tallied w B s.lifetime T node c st L) (run : Run (Step w s) c log c')
    (hcovers : ∀ id item, .queue (.started id item) ∈ log → item.node = node →
      .record node ∉ L.known → T.Covers B item.peer)
    (hforgot : ∀ other, .forgot other ∈ log → ¬ T.Tracks (.id other) ∧ ¬ T.Tracks (.own other)) :
    (∃ st', Tallied w B s.lifetime T node c' st' (tally T node L log)) ∧ Allowed T node L log := by
  induction run with
  | refl => exact ⟨⟨st, h⟩, Allowed.of_not_mem (by simp)⟩
  | @tail c₁ c₂ log shown run step ih =>
    obtain ⟨⟨st₁, h₁⟩, hallowed⟩ := ih
      (fun id item hitem => hcovers id item (List.mem_append_left _ hitem))
      (fun other hother => hforgot other (List.mem_append_left _ hother))
    obtain ⟨htallied, hshown⟩ := h₁.step hw htells (hc.run run) step
      (fun id item hitem hnode hnew => hcovers id item (List.mem_append_right _ hitem) hnode
        fun hmem => hnew (known_tally T node L log hmem))
      (fun other hother => hforgot other (List.mem_append_right _ hother))
    rw [tally_append]
    exact ⟨htallied, hallowed.append hshown⟩

end Workshop

end Rendezvous
