import Mathlib.Data.Finset.Dedup
import Rendezvous.Proofs.Pool.Tasks
import Rendezvous.Proofs.Queue.Attempts
import Rendezvous.Proofs.Queue.Calls
import Rendezvous.Resolve.Process

/-!
# A queue and the tasks that process its items

When an item takes a place in a drain, a task is started that processes its peer, and the item gives
its place back when the task has ended. Between a pull of a node and the next one, the tasks that were
started for the node are as many as its settled attempts, and one more while an attempt goes on or is
not settled; so there are no more of them than the policy allows.
-/

namespace Rendezvous

open scoped List

/-- A task and the item, with its number in the drain, for which it was started. -/
structure Job where
  /-- The task. -/
  task : Nat
  /-- The number of the item. -/
  id : Nat
  /-- The item. -/
  item : WorkItem
deriving DecidableEq

/-- The item with its number. -/
def Job.place (j : Job) : Nat × WorkItem := (j.id, j.item)

/-- A queue, the tasks that process its items, and who works for what. -/
structure Workshop where
  /-- The queue. -/
  stage : QueueStage
  /-- The tasks. -/
  pool : Pool (Except ResolveError Resolution)
  /-- The tasks that work for the items that have a place. -/
  jobs : List Job := []

/-- What is shown of a queue and its tasks. -/
inductive WorkshopEvent where
  /-- The queue shows something. When it shows that the processing of an item begins, a task is
  started for the item. -/
  | queue (e : QueueEvent)
  /-- The task of an item goes through something. -/
  | did (item : WorkItem) (e : TaskEvent)
  /-- What is noted about a node is dropped. -/
  | forgot (node : String)

/-- The different names among the dependencies of a peer, addresses apart. -/
def Peer.bareNames (p : Peer) : Finset String :=
  (p.connectsTo.filter fun entry => !isLiteralAddress entry).toFinset

namespace QueueStage

/-- The items that have a place, with their numbers. -/
def places : QueueStage → List (Nat × WorkItem)
  | .idle _ => []
  | .draining d => d.running

/-- The items that have a place and those that have ended and are not settled. -/
def busy : QueueStage → List WorkItem
  | .idle _ => []
  | .draining d => d.running.map (·.2) ++ d.ended.map (·.1)

theorem busy_sublist (stage : QueueStage) : stage.busy.Sublist stage.held := by
  cases stage with
  | idle q => exact List.Sublist.refl _
  | draining d =>
    show (d.running.map (·.2) ++ d.ended.map (·.1)).Sublist d.held
    rw [Drain.held, List.append_assoc]
    exact List.sublist_append_right _ _

end QueueStage

namespace Workshop

variable {w : World} {s : Settings} {policy : RetryPolicy} {c c' : Workshop}
  {log shown : List WorkshopEvent}

/-- How a queue and its tasks go on. -/
inductive Step (w : World) (s : Settings) : Workshop → List WorkshopEvent → Workshop → Prop where
  /-- The queue goes on, and no place is taken or given back. -/
  | queue {stage stage' : QueueStage} {p : Pool (Except ResolveError Resolution)} {jobs : List Job}
      {shown : List QueueEvent} (h : QueueStage.Move stage shown stage')
      (hplaces : stage'.places = stage.places) :
      Step w s ⟨stage, p, jobs⟩ (shown.map .queue) ⟨stage', p, jobs⟩
  /-- An item takes a place, and a task is started for it. -/
  | start {stage stage' : QueueStage} {p : Pool (Except ResolveError Resolution)} {jobs : List Job}
      {id : Nat} {item : WorkItem} (h : QueueStage.Move stage [.started id item] stage') :
      Step w s ⟨stage, p, jobs⟩ [.queue (.started id item)]
        ⟨stage', p.spawn (Resolve.process s item.peer).run, jobs ++ [⟨p.tasks.length, id, item⟩]⟩
  /-- A task has its turn. -/
  | work {stage : QueueStage} {p p' : Pool (Except ResolveError Resolution)} {jobs : List Job}
      {j : Job} {shown : List (Nat × TaskEvent)} (hj : j ∈ jobs) (h : Pool.Turn w p shown p')
      (hown : ∀ e ∈ shown, e.1 = j.task) :
      Step w s ⟨stage, p, jobs⟩ (shown.map fun e => .did j.item e.2) ⟨stage, p', jobs⟩
  /-- A task breaks down or is aborted. -/
  | drop {stage : QueueStage} {p : Pool (Except ResolveError Resolution)} {jobs : List Job}
      {i : Nat} {a : Activity (Except ResolveError Resolution)} (h : p.tasks[i]? = some a)
      (hon : ∀ ending, a ≠ .ended ending) {ending : Ending (Except ResolveError Resolution)}
      (hcut : ending.value? = none) :
      Step w s ⟨stage, p, jobs⟩ [] ⟨stage, p.drop i ending, jobs⟩
  /-- An item whose task has ended gives its place back. -/
  | finish {stage stage' : QueueStage} {p : Pool (Except ResolveError Resolution)} {jobs : List Job}
      {j : Job} {ending : Ending (Except ResolveError Resolution)} {result : WorkEnding} (hj : j ∈ jobs)
      (hended : p.ending? j.task = some ending)
      (hresult : result = ending.map fun value => value.map fun _ => ())
      (h : QueueStage.Move stage [.stopped j.id j.item result] stage') :
      Step w s ⟨stage, p, jobs⟩ [.queue (.stopped j.id j.item result)] ⟨stage', p, jobs.erase j⟩
  /-- The controller begins to shut down. -/
  | cancel (c : Workshop) : Step w s c [] { c with pool := c.pool.cancel }
  /-- What is noted about a node is dropped. -/
  | forget (c : Workshop) (node : String) :
      Step w s c [.forgot node] { c with pool := c.pool.forget node }

/-- A new queue without tasks. -/
def start (policy : RetryPolicy) (m : Memory) : Workshop where
  stage := .idle { policy }
  pool := { memory := m }

/-- What the queue shows. -/
def queueLog (log : List WorkshopEvent) : List QueueEvent :=
  log.filterMap fun
    | .queue e => some e
    | _ => none

@[simp] theorem queueLog_append (log log' : List WorkshopEvent) :
    queueLog (log ++ log') = queueLog log ++ queueLog log' :=
  List.filterMap_append

@[simp] theorem queueLog_queue (shown : List QueueEvent) : queueLog (shown.map .queue) = shown := by
  unfold queueLog
  rw [List.filterMap_map]
  exact List.filterMap_some

@[simp] theorem queueLog_did (item : WorkItem) (shown : List (Nat × TaskEvent)) :
    queueLog (shown.map fun e => .did item e.2) = [] := by
  unfold queueLog
  rw [List.filterMap_map]
  exact List.filterMap_none shown

theorem mem_queueLog {e : QueueEvent} : e ∈ queueLog log ↔ .queue e ∈ log := by
  unfold queueLog
  rw [List.mem_filterMap]
  constructor
  · rintro ⟨event, hmem, h⟩
    cases event with
    | queue e' =>
      obtain rfl := Option.some.inj h
      exact hmem
    | _ => exact absurd h (by simp)
  · intro h
    exact ⟨_, h, rfl⟩

/-! ## Every place has a task -/

/-- The queue is in order and each of its places has one task. -/
structure Sound (policy : RetryPolicy) (log : List WorkshopEvent) (c : Workshop) : Prop where
  /-- Everything is in one place. -/
  stage : c.stage.Sound
  /-- The queue retries as it always did. -/
  policy_eq : c.stage.queue.policy = policy
  /-- What the queue has shown puts every item where it is. -/
  told : Told policy (queueLog log) c.stage.queue.items c.stage.held
  /-- There is one job for each place. -/
  jobs : c.jobs.map Job.place ~ c.stage.places
  /-- No task has two jobs. -/
  tasks_nodup : (c.jobs.map Job.task).Nodup
  /-- Jobs are done by tasks. -/
  isSome : ∀ j ∈ c.jobs, c.pool.tasks[j.task]?.isSome = true

theorem sound_start (policy : RetryPolicy) (m : Memory) : Sound policy [] (start policy m) where
  stage := RetryQueue.Sound.fresh policy
  policy_eq := rfl
  told := Told.nil policy
  jobs := List.Perm.refl _
  tasks_nodup := List.nodup_nil
  isSome := fun _ hj => absurd hj List.not_mem_nil

/-- Different jobs are for different nodes. -/
theorem Sound.nodes_nodup (h : Sound policy log c) : (c.jobs.map fun j => j.item.node).Nodup := by
  have hplaces : (c.stage.places.map fun x => x.2.node).Nodup := by
    cases hstage : c.stage with
    | idle q => exact List.nodup_nil
    | draining d =>
      have hd : d.Sound := by
        have hsound := h.stage
        rw [hstage] at hsound
        exact hsound
      have hnodup := hd.running_nodup
      rw [List.map_map] at hnodup
      exact hnodup
  have hjobs := h.jobs.map fun x => x.2.node
  rw [List.map_map] at hjobs
  exact hjobs.nodup_iff.2 hplaces

/-- A new task has no job yet. -/
theorem Sound.task_ne_length (h : Sound policy log c) : ∀ j ∈ c.jobs, j.task ≠ c.pool.tasks.length := by
  intro j hj heq
  have hsome := h.isSome j hj
  rw [heq] at hsome
  simp at hsome

/-- What the queue does by itself keeps its order. -/
theorem Sound.move (h : Sound policy log c) {stage' : QueueStage} {shown : List QueueEvent}
    (hmove : QueueStage.Move c.stage shown stage') :
    stage'.Sound ∧ stage'.queue.policy = policy ∧
      Told policy (queueLog log ++ shown) stage'.queue.items stage'.held :=
  ⟨hmove.sound h.stage, (hmove.policy h.stage).trans h.policy_eq,
    hmove.told h.stage h.policy_eq h.told⟩

theorem Step.sound (step : Step w s c shown c') (h : Sound policy log c) :
    Sound policy (log ++ shown) c' := by
  cases step with
  | queue hmove hplaces =>
    obtain ⟨hstage, hpolicy, htold⟩ := h.move hmove
    refine ⟨hstage, hpolicy, ?_, ?_, h.tasks_nodup, h.isSome⟩
    · rw [queueLog_append, queueLog_queue]
      exact htold
    · dsimp only
      rw [hplaces]
      exact h.jobs
  | @start stage stage' p jobs id item hmove =>
    obtain ⟨hstage, hpolicy, htold⟩ := h.move hmove
    obtain ⟨d, rfl, -, rfl⟩ := hmove.started
    have hfresh : p.tasks.length ∉ jobs.map Job.task := by
      intro hmem
      obtain ⟨j, hj, heq⟩ := List.mem_map.1 hmem
      exact h.task_ne_length j hj heq
    refine ⟨hstage, hpolicy, ?_, ?_, ?_, ?_⟩
    · rw [queueLog_append]
      exact htold
    · show (jobs ++ [_]).map Job.place ~ d.running ++ [(id, item)]
      rw [List.map_append]
      exact h.jobs.append_right [(id, item)]
    · show ((jobs ++ [_]).map Job.task).Nodup
      rw [List.map_append, List.nodup_append]
      refine ⟨h.tasks_nodup, List.nodup_singleton _, ?_⟩
      rintro i hi i' hi' rfl
      obtain rfl := List.mem_singleton.1 hi'
      exact hfresh hi
    · intro j hj
      show (p.tasks ++ [_])[j.task]?.isSome = true
      rcases List.mem_append.1 hj with hj | hj
      · have hsome := h.isSome j hj
        obtain ⟨a, ha⟩ := Option.isSome_iff_exists.1 hsome
        obtain ⟨hlt, -⟩ := List.getElem?_eq_some_iff.1 ha
        rw [List.getElem?_append_left hlt]
        exact hsome
      · obtain rfl := List.mem_singleton.1 hj
        simp
  | work hj hturn hown =>
    refine ⟨h.stage, h.policy_eq, ?_, h.jobs, h.tasks_nodup, fun j hj => ?_⟩
    · rw [queueLog_append, queueLog_did, List.append_nil]
      exact h.told
    · exact (Pool.isSome_task (Run.single (.turn hturn)) j.task).trans (h.isSome j hj)
  | drop ht hon hcut =>
    refine ⟨h.stage, h.policy_eq, ?_, h.jobs, h.tasks_nodup, fun j hj => ?_⟩
    · rw [List.append_nil]
      exact h.told
    · have hdrop := @Pool.Step.drop _ w _ _ _ ht hon _ hcut
      exact (Pool.isSome_task (Run.single hdrop) j.task).trans (h.isSome j hj)
  | @finish stage stage' p jobs j ending result hj hended hresult hmove =>
    obtain ⟨hstage, hpolicy, htold⟩ := h.move hmove
    obtain ⟨d, rfl, hplace, rfl⟩ := hmove.stopped
    have hrunning := (Drain.Sound.finish h.stage hplace result).1
    have herase : jobs ~ j :: jobs.erase j := List.perm_cons_erase hj
    refine ⟨hstage, hpolicy, ?_, ?_, ?_, fun j' hj' => h.isSome j' (List.mem_of_mem_erase hj')⟩
    · rw [queueLog_append]
      exact htold
    · have hboth : j.place :: (jobs.erase j).map Job.place ~
          j.place :: (d.finish j.id result).running :=
        ((herase.map Job.place).symm.trans h.jobs).trans hrunning
      exact hboth.cons_inv
    · exact h.tasks_nodup.sublist (List.erase_sublist.map _)
  | cancel =>
    rw [List.append_nil]
    exact ⟨h.stage, h.policy_eq, h.told, h.jobs, h.tasks_nodup, h.isSome⟩
  | forget _ node =>
    refine ⟨h.stage, h.policy_eq, ?_, h.jobs, h.tasks_nodup, h.isSome⟩
    have hnone : queueLog [.forgot node] = [] := rfl
    rw [queueLog_append, hnone, List.append_nil]
    exact h.told

theorem Sound.run {log₀ : List WorkshopEvent} (hc : Sound policy log₀ c)
    (h : Run (Step w s) c log c') : Sound policy (log₀ ++ log) c' := by
  refine h.preserves (P := fun log c => Sound policy (log₀ ++ log) c) ?_ ?_
  · rw [List.append_nil]
    exact hc
  · intro log c shown c' hsound step
    rw [← List.append_assoc]
    exact step.sound hsound

theorem sound_run {m : Memory} (h : Run (Step w s) (start policy m) log c) : Sound policy log c :=
  (sound_start policy m).run h

/-! ## Tasks that are started for one node -/

/-- The tasks that were started for a node. -/
def starts (node : String) (log : List WorkshopEvent) : Nat :=
  log.countP fun
    | .queue (.started _ item) => item.node = node
    | _ => false

/-- The attempts at a node that were settled. -/
def settlements (node : String) (log : List QueueEvent) : Nat :=
  log.countP fun
    | .settled _ item _ => item.node = node
    | _ => false

/-- A peer is not pulled anew, none of its attempts is cancelled, and nothing that is noted about it
and its dependencies is dropped. -/
structure Undisturbed (x : Peer) (log : List WorkshopEvent) : Prop where
  pulled : ∀ now p, .queue (.pulled now p) ∈ log → p.nodeName ≠ x.nodeName
  settled : ∀ now item ending, .queue (.settled now item ending) ∈ log → item.node = x.nodeName →
    (QueueEvent.settled now item ending).isAttempt = true
  forgot : ∀ node, .forgot node ∈ log → node ≠ x.nodeName ∧ node ∉ x.bareNames

/-- How many of some items are for a node. -/
def itemsOf (node : String) (items : List WorkItem) : Nat :=
  items.countP fun item => item.node = node

/-- The queue starts nothing while no place is taken. -/
theorem starts_move {stage stage' : QueueStage} {shown : List QueueEvent}
    (h : QueueStage.Move stage shown stage') (hplaces : stage'.places = stage.places) :
    Rendezvous.starts shown = [] := by
  cases h with
  | enqueue q p => rfl
  | begin q _ => simp [Rendezvous.starts, beginning, QueueEvent.start?]
  | close _ => rfl
  | work hmove =>
    cases hmove with
    | start _ _ =>
      have hlength := congrArg List.length hplaces
      simp [QueueStage.places, Drain.place] at hlength
    | join _ _ => exact starts_settlement _ _ _ _
    | _ => rfl

/-- and it settles only what has ended. -/
theorem settlements_move {stage stage' : QueueStage} {shown : List QueueEvent} {node : String}
    (h : QueueStage.Move stage shown stage') (hplaces : stage'.places = stage.places) :
    itemsOf node stage.busy ≤ settlements node shown + itemsOf node stage'.busy := by
  cases h with
  | enqueue q p => exact Nat.zero_le _
  | begin q _ => exact Nat.zero_le _
  | close hover =>
    simp only [Drain.isOver, Bool.and_eq_true, List.isEmpty_iff] at hover
    simp [settlements, itemsOf, QueueStage.busy, hover.1.2, hover.2]
  | @work d d' shown hmove =>
    cases hmove with
    | arrive p => exact Nat.le_add_left _ _
    | start _ _ =>
      have hlength := congrArg List.length hplaces
      simp [QueueStage.places, Drain.place] at hlength
    | @finish x _ ending =>
      rcases Drain.finish_eq d x.1 ending with hsame | ⟨e, he, heq⟩
      · rw [hsame]
        exact Nat.le_add_left _ _
      · have hless := length_filter_lt he
        have hlength := congrArg List.length hplaces
        rw [heq] at hlength
        simp only [QueueStage.places] at hlength
        omega
    | @withdraw x hx =>
      simp only [itemsOf, QueueStage.busy, Drain.withdraw, List.map_append, List.countP_append]
      omega
    | @join _ now item ending before after hended hsettle =>
      obtain ⟨queue, rfl, -⟩ := Drain.settle?_eq hsettle
      have hone : settlements node (settlement d.queue.policy now item ending) =
          if item.node = node then 1 else 0 := by
        simp [settlements, settlement, List.countP_cons, List.countP_map, Function.comp_def]
      rw [hone]
      simp only [itemsOf, QueueStage.busy, hended, List.map_append, List.map_cons,
        List.countP_append, List.countP_cons, decide_eq_true_eq]
      omega

/-- A task is started for each attempt, and its attempt is settled unless the item is busy. -/
theorem Step.starts_le {node : String} (step : Step w s c shown c') (hc : Sound policy log c) :
    starts node shown + itemsOf node c.stage.busy ≤
      settlements node (queueLog shown) + itemsOf node c'.stage.busy := by
  cases step with
  | @queue stage stage' p jobs shown hmove hplaces =>
    have hnone : starts node (shown.map .queue) = 0 := by
      refine List.countP_eq_zero.2 fun e he => ?_
      obtain ⟨e', he', rfl⟩ := List.mem_map.1 he
      have hstart := List.filterMap_eq_nil_iff.1 (starts_move hmove hplaces) e' he'
      cases e' <;> simp [QueueEvent.start?] at hstart ⊢
    rw [hnone, queueLog_queue, Nat.zero_add]
    exact settlements_move hmove hplaces
  | @start stage stage' p jobs id item hmove =>
    obtain ⟨d, rfl, -, rfl⟩ := hmove.started
    have hone : starts node [.queue (.started id item)] = if item.node = node then 1 else 0 := by
      simp [starts, List.countP_cons]
    have hnone : settlements node (queueLog [.queue (.started id item)]) = 0 := rfl
    rw [hone, hnone]
    simp only [itemsOf, QueueStage.busy, Drain.place, List.map_append, List.map_cons, List.map_nil,
      List.countP_append, List.countP_cons, List.countP_nil, decide_eq_true_eq]
    omega
  | @work stage p p' jobs j shown hj hturn hown =>
    have hnone : starts node (shown.map fun e => .did j.item e.2) = 0 := by
      simp [starts, List.countP_map, Function.comp_def]
    rw [hnone, queueLog_did]
    exact Nat.le_refl _
  | drop _ _ _ => exact Nat.le_refl _
  | @finish stage stage' p jobs j ending result hj hended hresult hmove =>
    obtain ⟨d, rfl, hplace, rfl⟩ := hmove.stopped
    obtain ⟨hrunning, heq⟩ := Drain.Sound.finish hc.stage hplace result
    have hitems := (hrunning.map (·.2)).countP_eq fun item => decide (item.node = node)
    rw [List.map_cons, List.countP_cons] at hitems
    have hnone : starts node [.queue (.stopped j.id j.item result)] = 0 := rfl
    have hnone' : settlements node (queueLog [.queue (.stopped j.id j.item result)]) = 0 := rfl
    rw [hnone, hnone']
    dsimp only at heq hitems
    rw [heq]
    simp only [itemsOf, QueueStage.busy, List.map_append, List.map_cons, List.map_nil,
      List.countP_append, List.countP_cons, List.countP_nil]
    omega
  | cancel => exact Nat.le_refl _
  | forget _ other => exact Nat.le_refl _

theorem starts_append (node : String) (log log' : List WorkshopEvent) :
    starts node (log ++ log') = starts node log + starts node log' :=
  List.countP_append

theorem settlements_append (node : String) (log log' : List QueueEvent) :
    settlements node (log ++ log') = settlements node log + settlements node log' :=
  List.countP_append

theorem starts_run {node : String} {log₀ : List WorkshopEvent} (h : Run (Step w s) c log c')
    (hc : Sound policy log₀ c) :
    starts node log + itemsOf node c.stage.busy ≤
      settlements node (queueLog log) + itemsOf node c'.stage.busy := by
  induction h with
  | refl => exact Nat.le_refl _
  | @tail c₁ c₂ log shown run step ih =>
    have hstep := @Step.starts_le w s policy c₁ c₂ _ _ node step (hc.run run)
    rw [starts_append, queueLog_append, settlements_append]
    omega

/-- The queue pulls when a drain begins, and then nothing has a place yet. -/
theorem Step.pull {x : Peer} {now : Instant} (step : Step w s c shown c')
    (hpull : .queue (.pulled now x) ∈ shown) :
    c.stage.places = [] ∧ c'.stage.busy = [] ∧ c'.jobs = c.jobs ∧
      ∀ e ∈ shown, ∃ e', e = .queue e' ∧ e'.start? = none := by
  cases step with
  | @queue stage stage' p jobs events hmove hplaces =>
    have hnone := List.filterMap_eq_nil_iff.1 (starts_move hmove hplaces)
    have hevents : ∀ e ∈ events.map WorkshopEvent.queue, ∃ e', e = .queue e' ∧ e'.start? = none := by
      intro e he
      obtain ⟨e', he', rfl⟩ := List.mem_map.1 he
      exact ⟨e', rfl, hnone e' he'⟩
    have hevent : .pulled now x ∈ events := by
      rw [← mem_queueLog, queueLog_queue] at hpull
      exact hpull
    cases hmove with
    | enqueue q p => exact absurd hevent (by simp)
    | begin q _ => exact ⟨rfl, rfl, rfl, hevents⟩
    | close hover => exact absurd hevent List.not_mem_nil
    | work hmove =>
      cases hmove with
      | join _ _ => exact absurd hevent (by simp [settlement])
      | _ => exact absurd hevent (by simp)
  | start hmove => exact absurd hpull (by simp)
  | work hj hturn hown => exact absurd hpull (by simp)
  | finish _ _ _ _ => exact absurd hpull (by simp)
  | forget _ node => exact absurd hpull (by simp)
  | _ => exact absurd hpull List.not_mem_nil

/-- Since a peer was pulled, its settled attempts and the one that goes on are as many as the policy
allows. -/
theorem Sound.settlements_le {x : Peer} {now : Instant} {before seg : List WorkshopEvent}
    (h : Sound policy log c) (hlog : log = before ++ .queue (.pulled now x) :: seg)
    (hquiet : Undisturbed x seg) :
    settlements x.nodeName (queueLog seg) + itemsOf x.nodeName c.stage.busy ≤
      policy.maxRetries + 1 := by
  have hlog' : queueLog log = queueLog before ++ .pulled now x :: queueLog seg := by
    rw [hlog, queueLog_append]
    rfl
  have hpull : ∀ now p, .pulled now p ∈ queueLog seg → p.nodeName ≠ x.nodeName :=
    fun now p hp => hquiet.pulled now p (mem_queueLog.1 hp)
  have hheld : (c.stage.held.map WorkItem.node).Nodup := by
    have hstage := h.stage
    cases hc : c.stage with
    | idle q => exact List.nodup_nil
    | draining d =>
      rw [hc] at hstage
      exact Drain.Sound.held_nodup hstage
  have hle := h.told.attempts_since_pull hlog' hpull hheld
  have hbusy : itemsOf x.nodeName c.stage.busy ≤ itemsOf x.nodeName c.stage.held :=
    c.stage.busy_sublist.countP_le
  have hattempts : settlements x.nodeName (queueLog seg) =
      (queueLog seg).countP fun e => e.node? = some x.nodeName && e.isAttempt := by
    refine List.countP_congr fun e he => ?_
    cases e with
    | settled now item ending =>
      have hattempt := hquiet.settled now item ending (mem_queueLog.1 he)
      by_cases hnode : item.node = x.nodeName
      · simp [QueueEvent.node?, hnode, hattempt hnode]
      · simp [QueueEvent.node?, hnode]
    | _ => simp [QueueEvent.isAttempt]
  have hitems : itemsOf x.nodeName c.stage.held =
      c.stage.held.countP fun item => item.node = x.nodeName := rfl
  omega

/-- Since a peer was pulled, there were no more tasks for it than the policy allows attempts. -/
theorem starts_le {x : Peer} {now : Instant} {m : Memory} {before seg : List WorkshopEvent}
    (h : Run (Step w s) (start policy m) log c)
    (hlog : log = before ++ .queue (.pulled now x) :: seg) (hquiet : Undisturbed x seg) :
    starts x.nodeName seg ≤ policy.maxRetries + 1 := by
  obtain ⟨c₁, c₂, log₁, shown₁, shown₂, log₂, hfirst, hstep, hsecond, -, rfl⟩ := h.split_at hlog
  obtain ⟨-, hbusy, -, hevents⟩ := hstep.pull List.mem_append_cons_self
  have hnone : starts x.nodeName shown₂ = 0 := by
    refine List.countP_eq_zero.2 fun e he => ?_
    obtain ⟨e', rfl, hstart⟩ := hevents e (List.mem_append_right _ (List.mem_cons_of_mem _ he))
    cases e' <;> simp [QueueEvent.start?] at hstart ⊢
  have hsound := hstep.sound (sound_run hfirst)
  have hcount := @starts_run w s policy _ _ _ x.nodeName _ hsecond hsound
  have hle := (sound_run h).settlements_le hlog hquiet
  rw [queueLog_append, settlements_append] at hle
  rw [hbusy] at hcount
  rw [starts_append]
  have hzero : itemsOf x.nodeName [] = 0 := rfl
  omega

/-- A task is started only for an item that waits for its place. -/
theorem Step.started {id : Nat} {item : WorkItem} (step : Step w s c shown c')
    (h : .queue (.started id item) ∈ shown) :
    shown = [.queue (.started id item)] ∧ item ∈ c.stage.held := by
  cases step with
  | @queue stage stage' p jobs events hmove hplaces =>
    rw [← mem_queueLog, queueLog_queue] at h
    have hnone := List.filterMap_eq_nil_iff.1 (starts_move hmove hplaces) _ h
    exact absurd hnone (by simp [QueueEvent.start?])
  | @start stage stage' p jobs id' item' hmove =>
    obtain ⟨rfl, rfl⟩ : id = id' ∧ item = item' := by simpa using h
    obtain ⟨d, rfl, hwaiting, -⟩ := hmove.started
    exact ⟨rfl, Drain.mem_held_of_waiting hwaiting⟩
  | work hj hturn hown => exact absurd h (by simp)
  | finish _ _ _ _ => exact absurd h (by simp)
  | forget _ node => exact absurd h (by simp)
  | _ => exact absurd h List.not_mem_nil

end Workshop

end Rendezvous
