import Rendezvous.Proofs.Pool.Tasks
import Rendezvous.Proofs.Propagation.Fanout

/-!
# Tasks and the writes of their propagations

Tasks run side by side, and the writes of their propagations start and end one by one between the
turns of the tasks. A task goes on from a propagation when nothing of it is left to wait for, so that
the commands of all its writes have been started by then; and no other commands of writes are started.
-/

namespace Rendezvous

open Routine

/-! ## Tasks with the writes of their propagations -/

/-- What is shown when nodes are processed side by side. -/
inductive SpreadEvent where
  /-- A task goes through something. -/
  | task (i : Nat) (e : TaskEvent)
  /-- Something happens to a write of the propagation of a task. -/
  | write (i : Nat) (e : FanoutEvent)

/-- What a task goes through. -/
def SpreadEvent.task? : SpreadEvent → Option (Nat × TaskEvent)
  | .task i e => some (i, e)
  | .write .. => none

/-- Tasks side by side, with the numbers of those writes of their propagations whose command has not
been started. -/
structure SpreadingPool (α : Type) where
  /-- The tasks. -/
  pool : Pool α
  /-- For each task, the writes that have not started their command. -/
  unsent : Nat → List Nat := fun _ => []

namespace SpreadingPool

variable {α : Type} {w : World} {c c' : SpreadingPool α} {log shown : List SpreadEvent} {i : Nat}

/-- When a propagation begins, none of its commands has been started. -/
def announce (unsent : List Nat) : TaskEvent → List Nat
  | .told writes => List.range writes.length
  | _ => unsent

/-- No propagation goes on. -/
def Still (p p' : Pool α) : Prop :=
  ∀ {i : Nat} {run : Propagation} {next : PropagationReport → Routine α},
    p.tasks[i]? = some (.propagating run next) → p'.tasks[i]? = some (.propagating run next)

/-- What can happen while nothing is cancelled. A task whose propagation goes on waits until nothing
of it is left to wait for. -/
inductive Step (w : World) : SpreadingPool α → List SpreadEvent → SpreadingPool α → Prop where
  /-- A task has its turn that is not in a propagation. -/
  | turn {c : SpreadingPool α} {p' : Pool α} {shown : List (Nat × TaskEvent)}
      (h : Pool.Turn w c.pool shown p') (hstill : Still c.pool p') :
      Step w c (shown.map fun e => .task e.1 e.2)
        ⟨p', fun i => (own i shown).foldl announce (c.unsent i)⟩
  /-- A propagation goes on. -/
  | spread {c : SpreadingPool α} {i : Nat} {run : Propagation} {next : PropagationReport → Routine α}
      {f : Fanout} {shown : List FanoutEvent}
      (h : c.pool.tasks[i]? = some (.propagating run next))
      (hstep : Fanout.Step ⟨run, c.unsent i⟩ shown f) :
      Step w c (shown.map (.write i))
        ⟨c.pool.set i (.propagating f.run next), Function.update c.unsent i f.unsent⟩
  /-- A task goes on with the report of a propagation in which nothing is left to wait for. -/
  | report {c : SpreadingPool α} {i : Nat} {run : Propagation} {next : PropagationReport → Routine α}
      (h : c.pool.tasks[i]? = some (.propagating run next)) (hover : run.isOver = true) :
      Step w c [.task i (.reported run.report)]
        { c with pool := c.pool.set i (.ready (next run.report)) }
  /-- A task breaks down or is aborted. -/
  | drop {c : SpreadingPool α} {i : Nat} {a : Activity α} (h : c.pool.tasks[i]? = some a)
      (hon : ∀ ending, a ≠ .ended ending) {ending : Ending α} (hcut : ending.value? = none) :
      Step w c [] { c with pool := c.pool.drop i ending }
  /-- What is noted about a node is dropped. -/
  | forget (c : SpreadingPool α) (node : String) : Step w c [] { c with pool := c.pool.forget node }

/-- What the tasks go through. -/
def parts (log : List SpreadEvent) : List (Nat × TaskEvent) := log.filterMap SpreadEvent.task?

@[simp] theorem parts_append (log log' : List SpreadEvent) :
    parts (log ++ log') = parts log ++ parts log' :=
  List.filterMap_append

@[simp] theorem parts_tasks (shown : List (Nat × TaskEvent)) :
    parts (shown.map fun e => .task e.1 e.2) = shown := by
  unfold parts
  rw [List.filterMap_map]
  exact List.filterMap_some

@[simp] theorem parts_writes (i : Nat) (shown : List FanoutEvent) :
    parts (shown.map (.write i)) = [] := by
  unfold parts
  rw [List.filterMap_map]
  exact List.filterMap_none shown

theorem mem_parts {e : TaskEvent} : (i, e) ∈ parts log ↔ .task i e ∈ log := by
  unfold parts
  rw [List.mem_filterMap]
  constructor
  · rintro ⟨event, hmem, h⟩
    cases event with
    | task j e' =>
      obtain ⟨rfl, rfl⟩ := Prod.mk.inj (Option.some.inj h)
      exact hmem
    | write j e' => exact absurd h (by simp [SpreadEvent.task?])
  · intro h
    exact ⟨_, h, rfl⟩

/-- A propagation that goes on is one that goes on in the pool. -/
theorem spread_eq {run : Propagation} {f : Fanout} {unsent : List Nat} {shown : List FanoutEvent}
    (hstep : Fanout.Step ⟨run, unsent⟩ shown f) :
    f.run = run ∨ (∃ id outcome, f.run = run.finish id outcome) ∨ run.join? = some f.run := by
  cases hstep with
  | send running unsent => exact Or.inl rfl
  | finish outcome running sent => exact Or.inr (Or.inl ⟨_, outcome, rfl⟩)
  | join joins => exact Or.inr (Or.inr joins)

theorem Step.pool (h : Step w c shown c') : Run (Pool.Step w) c.pool (parts shown) c'.pool := by
  cases h with
  | turn h hstill =>
    rw [parts_tasks]
    exact .single (.turn h)
  | @spread i run next f shown ht hstep =>
    rw [parts_writes]
    rcases spread_eq hstep with hsame | hrun
    · have hset : c.pool.set i (.propagating f.run next) = c.pool := by
        obtain ⟨hi, hget⟩ := List.getElem?_eq_some_iff.1 ht
        rw [hsame, Pool.set, ← hget, List.set_getElem_self]
      rw [hset]
      exact .refl _
    · exact .single (.turn (.write ht hrun))
  | report ht hover => exact .single (.turn (.report ht (Or.inl ⟨hover, rfl⟩)))
  | drop ht hon hcut => exact .single (.drop ht hon hcut)
  | forget node => exact .single (.forget c.pool node)

/-- Tasks side by side are a pool, whatever happens to their writes. -/
theorem pool_run (h : Run (Step w) c log c') : Run (Pool.Step w) c.pool (parts log) c'.pool := by
  induction h with
  | refl => exact .refl _
  | tail _ step ih =>
    rw [parts_append]
    exact ih.trans step.pool

/-! ## Propagations deal out their writes -/

/-- The commands of all writes have been started. -/
def Sent (log : List SpreadEvent) (i : Nat) (writes : List TrustWrite) : Prop :=
  ∀ w ∈ writes, .write i (.sent w) ∈ log

theorem Sent.append {writes : List TrustWrite} (h : Sent log i writes) :
    Sent (log ++ shown) i writes :=
  fun w hw => List.mem_append_left _ (h w hw)

/-- How far a task is with the writes of its propagations: when it goes on, the commands of all of them
have been started. -/
def Dealt (log : List SpreadEvent) (unsent : List Nat) (i : Nat) : Activity α → Prop
  | .propagating run _ => ∃ writes flog, .told writes ∈ own i (parts log) ∧
      Run Fanout.Step (.start writes) flog ⟨run, unsent⟩ ∧ (∀ e ∈ flog, .write i e ∈ log) ∧
        ∀ writes', .told writes' ∈ own i (parts log) → writes' = writes ∨ Sent log i writes'
  | .ended .crashed => True
  | .ended .aborted => True
  | _ => ∀ writes, .told writes ∈ own i (parts log) → Sent log i writes

/-- The writes of all propagations are accounted for. -/
structure Orderly (log : List SpreadEvent) (c : SpreadingPool α) : Prop where
  /-- Every task is as far as it should be. -/
  dealt : ∀ {i} {a : Activity α}, c.pool.tasks[i]? = some a → Dealt log (c.unsent i) i a
  /-- Every write whose command was started is one of a propagation. -/
  told : ∀ {i w}, .write i (.sent w) ∈ log → ∃ writes, .told writes ∈ own i (parts log) ∧ w ∈ writes

/-- What happens elsewhere changes nothing. -/
theorem Dealt.append {a : Activity α} {unsent : List Nat} (h : Dealt log unsent i a)
    (hquiet : ∀ writes, .told writes ∉ own i (parts shown)) : Dealt (log ++ shown) unsent i a := by
  have hback : ∀ {writes}, .told writes ∈ own i (parts (log ++ shown)) →
      .told writes ∈ own i (parts log) := by
    intro writes hmem
    rw [parts_append, own_append, List.mem_append] at hmem
    exact hmem.resolve_right (hquiet writes)
  have hplain : (∀ writes, .told writes ∈ own i (parts log) → Sent log i writes) →
      ∀ writes, .told writes ∈ own i (parts (log ++ shown)) → Sent (log ++ shown) i writes :=
    fun h writes hmem => (h writes (hback hmem)).append
  cases a with
  | propagating run next =>
    obtain ⟨writes, flog, htold, hrun, hlog, hothers⟩ := h
    refine ⟨writes, flog, ?_, hrun, fun e he => List.mem_append_left _ (hlog e he), ?_⟩
    · rw [parts_append, own_append]
      exact List.mem_append_left _ htold
    · intro writes' hmem
      exact (hothers writes' (hback hmem)).imp_right Sent.append
  | ready r => exact hplain h
  | calling request next => exact hplain h
  | ended ending =>
    cases ending with
    | value a => exact hplain h
    | crashed => trivial
    | aborted => trivial

theorem Orderly.turn {p' : Pool α} {shown : List (Nat × TaskEvent)} (h : Orderly log c)
    (turn : Pool.Turn w c.pool shown p') (hstill : Still c.pool p') :
    Orderly (log ++ shown.map fun e => .task e.1 e.2)
      ⟨p', fun i => (own i shown).foldl announce (c.unsent i)⟩ := by
  constructor
  case told =>
    intro i w hmem
    rcases List.mem_append.1 hmem with hmem | hmem
    · obtain ⟨writes, htold, hw⟩ := h.told hmem
      refine ⟨writes, ?_, hw⟩
      rw [parts_append, own_append]
      exact List.mem_append_left _ htold
    · obtain ⟨e, -, he⟩ := List.mem_map.1 hmem
      exact absurd he (by simp)
  case dealt =>
    intro j a ha
    dsimp only at ha ⊢
    have hquiet : ∀ {b : Activity α}, Dealt log (c.unsent j) j b →
        (∀ writes, .told writes ∉ own j shown) →
        Dealt (log ++ shown.map fun e => .task e.1 e.2) (c.unsent j) j b := by
      intro b hb hnone
      refine hb.append ?_
      rw [parts_tasks]
      exact hnone
    rcases (Pool.Step.turn turn).move j with ⟨hsame, hnone⟩ | ⟨b, b', hb, hb', hmove⟩
    · rw [hnone]
      refine hquiet (h.dealt ?_) (by simp [hnone])
      rw [← hsame]
      exact ha
    · have hdealt := h.dealt hb
      obtain rfl := Option.some.inj (hb'.symm.trans ha)
      have hparts : own j (parts (log ++ shown.map fun e => .task e.1 e.2)) =
          own j (parts log) ++ own j shown := by
        rw [parts_append, parts_tasks, own_append]
      generalize own j shown = events at hmove hquiet hparts
      cases hmove with
      | finish a => exact hquiet (b := .ended (.value a)) hdealt (by simp)
      | consult next answer => exact hquiet (b := .ready (next answer)) hdealt (by simp)
      | call request next => exact hquiet (b := .calling request next) hdealt (by simp)
      | answer request next answer => exact hquiet (b := .ready (next answer)) hdealt (by simp)
      | acquire node next => exact hquiet (b := .ready (next ())) hdealt (by simp)
      | release node next => exact hquiet (b := .ready (next ())) hdealt (by simp)
      | tell writes next =>
        refine ⟨writes, [], ?_, .refl _, by simp, fun writes' hmem => ?_⟩
        · rw [hparts]
          exact List.mem_append_right _ List.mem_cons_self
        · rw [hparts] at hmem
          rcases List.mem_append.1 hmem with hmem | hmem
          · exact Or.inr (hdealt writes' hmem).append
          · exact Or.inl (by simpa using hmem)
      | write run run' next =>
        have hrun := hstill hb
        rw [hb'] at hrun
        rw [Option.some.inj hrun]
        exact hquiet hdealt (by simp)
      | report run next report =>
        have hrun := hstill hb
        rw [hb'] at hrun
        exact absurd (Option.some.inj hrun) (by simp)
      | @drop _ _ ending hcut =>
        cases ending with
        | value a => exact absurd hcut (by simp [Ending.value?])
        | crashed => trivial
        | aborted => trivial

/-- Every write of a propagation that goes on is one of those that were told. -/
theorem Orderly.spread {run : Propagation} {next : PropagationReport → Routine α} {f : Fanout}
    {shown : List FanoutEvent} (h : Orderly log c)
    (ht : c.pool.tasks[i]? = some (.propagating run next))
    (hstep : Fanout.Step ⟨run, c.unsent i⟩ shown f) :
    Orderly (log ++ shown.map (.write i))
      ⟨c.pool.set i (.propagating f.run next), Function.update c.unsent i f.unsent⟩ := by
  obtain ⟨writes, flog, htold, hrun, hlog, hothers⟩ := h.dealt ht
  have hparts : parts (log ++ shown.map (.write i)) = parts log := by
    rw [parts_append, parts_writes, List.append_nil]
  constructor
  case told =>
    intro j w hmem
    rw [hparts]
    rcases List.mem_append.1 hmem with hmem | hmem
    · exact h.told hmem
    · obtain ⟨e, he, heq⟩ := List.mem_map.1 hmem
      obtain ⟨rfl, rfl⟩ : i = j ∧ e = .sent w := by simpa using heq
      -- What has been sent is one of the writes with which the propagation began.
      have hsent : w ∈ Fanout.sends (flog ++ shown) :=
        List.mem_filterMap.2 ⟨_, List.mem_append_right _ he, rfl⟩
      exact ⟨writes, htold,
        (Fanout.accounts (hrun.tail hstep)).sent.mem_iff.2 (List.mem_append_left _ hsent)⟩
  case dealt =>
    intro j a ha
    dsimp only at ha ⊢
    rw [c.pool.set_tasks ht] at ha
    by_cases hij : i = j
    · subst hij
      rw [if_pos rfl, Option.some.injEq] at ha
      subst ha
      rw [Function.update_self]
      refine ⟨writes, flog ++ shown, ?_, hrun.tail hstep, ?_, ?_⟩
      · rw [hparts]
        exact htold
      · intro e he
        rcases List.mem_append.1 he with he | he
        · exact List.mem_append_left _ (hlog e he)
        · exact List.mem_append_right _ (List.mem_map_of_mem he)
      · intro writes' hmem
        rw [hparts] at hmem
        exact (hothers writes' hmem).imp_right Sent.append
    · rw [if_neg hij] at ha
      rw [Function.update_of_ne (Ne.symm hij)]
      exact (h.dealt ha).append (by simp)

/-- A task goes on when all of its writes have been started. -/
theorem Orderly.report {run : Propagation} {next : PropagationReport → Routine α} (h : Orderly log c)
    (ht : c.pool.tasks[i]? = some (.propagating run next)) (hover : run.isOver = true) :
    Orderly (log ++ [.task i (.reported run.report)])
      { c with pool := c.pool.set i (.ready (next run.report)) } := by
  have hparts : parts (log ++ [.task i (.reported run.report)]) =
      parts log ++ [(i, .reported run.report)] := parts_append log [.task i (.reported run.report)]
  have hquiet : ∀ j writes, .told writes ∉ own j (parts [.task i (.reported run.report)]) := by
    intro j writes hmem
    have hmem := mem_parts.1 (mem_own.1 hmem)
    exact absurd (List.mem_singleton.1 hmem) (by simp)
  constructor
  case told =>
    intro j w hmem
    rcases List.mem_append.1 hmem with hmem | hmem
    · obtain ⟨writes, htold, hw⟩ := h.told hmem
      refine ⟨writes, ?_, hw⟩
      rw [parts_append, own_append]
      exact List.mem_append_left _ htold
    · exact absurd (List.mem_singleton.1 hmem) (by simp)
  case dealt =>
    intro j a ha
    dsimp only at ha ⊢
    rw [c.pool.set_tasks ht] at ha
    by_cases hij : i = j
    · subst hij
      rw [if_pos rfl, Option.some.injEq] at ha
      subst ha
      obtain ⟨writes, flog, htold, hrun, hlog, hothers⟩ := h.dealt ht
      have hall := ((Fanout.accounts hrun).over hover).1
      have hsent : Sent log i writes := by
        intro w hw
        obtain ⟨e, he, heq⟩ := List.mem_filterMap.1 (hall.mem_iff.1 hw)
        cases e with
        | sent w' =>
          obtain rfl := Option.some.inj heq
          exact hlog _ he
        | ended w' outcome => exact absurd heq (by simp [FanoutEvent.sent?])
      refine Dealt.append (a := .ready (next run.report)) ?_ (hquiet i)
      intro writes' hmem
      rcases hothers writes' hmem with rfl | hsent'
      · exact hsent
      · exact hsent'
    · rw [if_neg hij] at ha
      exact (h.dealt ha).append (hquiet j)

theorem Step.orderly (step : Step w c shown c') (h : Orderly log c) : Orderly (log ++ shown) c' := by
  cases step with
  | turn turn hstill => exact h.turn turn hstill
  | spread ht hstep => exact h.spread ht hstep
  | report ht hover => exact h.report ht hover
  | @drop i a ht hon ending hcut =>
    rw [List.append_nil]
    refine ⟨?_, h.told⟩
    intro j b hb
    have htasks := c.pool.set_tasks ht (.ended ending) j
    rw [show (c.pool.drop i ending).tasks = (c.pool.set i (.ended ending)).tasks from rfl, htasks] at hb
    by_cases hij : i = j
    · rw [if_pos hij, Option.some.injEq] at hb
      subst hb
      cases ending with
      | value a => exact absurd hcut (by simp [Ending.value?])
      | crashed => trivial
      | aborted => trivial
    · rw [if_neg hij] at hb
      exact h.dealt hb
  | forget node =>
    rw [List.append_nil]
    exact ⟨h.dealt, h.told⟩

theorem orderly_run (hstart : Orderly [] c) (h : Run (Step w) c log c') : Orderly log c' := by
  refine h.preserves (P := Orderly) hstart ?_
  intro log c shown c' h step
  exact step.orderly h

end SpreadingPool

end Rendezvous
