import Rendezvous.Proofs.Pool.Steps
import Rendezvous.Proofs.Routine.Surroundings

/-!
# Routines that run alone

A routine that runs alone is answered by the memory of the controller and by the nodes, and by nobody
else. What it ensures in these surroundings holds when its task has ended in a pool of one task. In
the other direction, a task can be run to its end in one go, which gives runs of a pool to look at.
-/

namespace Rendezvous

/-- What a routine that runs alone finds: a memory that only it changes, nodes that answer its
commands, locks that are free. -/
def World.surroundings (w : World) : Surroundings Memory where
  allows _ _ := True
  answers m e answer m' :=
    match e, answer with
    | .consult q, answer => ∃ now, w.timely now ∧ m.consult now q = some (answer, m')
    | .run request, answer => w.brings request answer ∧ m' = m
    | .acquire _, _ => m' = m
    | .release _, _ => m' = m
    | .propagate _, _ => m' = m

/-- A command with its answer. -/
abbrev Exchange := Request × Except ExecError String

/-- The same surroundings, which keep account of the commands and their answers. -/
def World.noting (w : World) : Surroundings (Memory × List Exchange) where
  allows _ _ := True
  answers st e answer st' :=
    match e, answer with
    | .consult q, answer =>
      ∃ now, w.timely now ∧ st.1.consult now q = some (answer, st'.1) ∧ st'.2 = st.2
    | .run request, answer => w.brings request answer ∧ st' = (st.1, st.2 ++ [(request, answer)])
    | .acquire _, _ => st' = st
    | .release _, _ => st' = st
    | .propagate _, _ => st' = st

/-- What is ensured is ensured as well when account is kept. -/
theorem Routine.Ensures.noting {α : Type} {w : World} {Q : α → Memory → Prop} {m : Memory}
    {r : Routine α} (h : r.Ensures w.surroundings Q m) (calls : List Exchange) :
    r.Ensures w.noting (fun a st => Q a st.1) (m, calls) := by
  induction r generalizing m calls with
  | done a => exact .done (Routine.ensures_done.1 h)
  | ask e next ih =>
    refine .ask trivial ?_
    rintro answer ⟨m', calls'⟩ hanswer
    refine ih answer ((Routine.ensures_ask.1 h).2 answer m' ?_) calls'
    cases e with
    | consult q =>
      obtain ⟨now, hnow, hm, -⟩ := hanswer
      exact ⟨now, hnow, hm⟩
    | run request =>
      obtain ⟨hbrings, hst⟩ := hanswer
      exact ⟨hbrings, (Prod.mk.inj hst).1⟩
    | acquire node => exact (Prod.mk.inj hanswer).1
    | release node => exact (Prod.mk.inj hanswer).1
    | propagate writes => exact (Prod.mk.inj hanswer).1

/-- The commands of a log that have been answered, with their answers. -/
def exchanges (log : List (Nat × TaskEvent)) : List Exchange := log.filterMap (·.2.answered?)

/-- The commands of a log that have been started. -/
def requests (log : List (Nat × TaskEvent)) : List Request := log.filterMap (·.2.called?)

@[simp] theorem exchanges_append (log log' : List (Nat × TaskEvent)) :
    exchanges (log ++ log') = exchanges log ++ exchanges log' :=
  List.filterMap_append

@[simp] theorem requests_append (log log' : List (Nat × TaskEvent)) :
    requests (log ++ log') = requests log ++ requests log' :=
  List.filterMap_append

theorem exchanges_single (i : Nat) (e : TaskEvent) :
    exchanges [(i, e)] = e.answered?.toList := by
  cases e <;> rfl

theorem requests_single (i : Nat) (e : TaskEvent) : requests [(i, e)] = e.called?.toList := by
  cases e <;> rfl

namespace Activity

variable {α : Type}

/-- What is left of a routine that runs alone ensures `Q`. -/
def Ensures (w : World) (Q : α → Memory × List Exchange → Prop) (st : Memory × List Exchange) :
    Activity α → Prop
  | .ready r => r.Ensures w.noting Q st
  | .calling request next =>
    ∀ answer, w.brings request answer →
      (next answer).Ensures w.noting Q (st.1, st.2 ++ [(request, answer)])
  | .propagating _ next => ∀ report, (next report).Ensures w.noting Q st
  | .ended (.value a) => Q a st
  | .ended _ => True

/-- The command that waits for its answer. -/
def open? : Activity α → List Request
  | .calling request _ => [request]
  | _ => []

end Activity

namespace Pool

variable {α : Type} {w : World} {Q : α → Memory × List Exchange → Prop} {m : Memory}
  {r : Routine α} {a : α} {p p' : Pool α} {log shown : List (Nat × TaskEvent)}

/-- A pool of one task. -/
def alone (m : Memory) (r : Routine α) : Pool α :=
  { memory := m, tasks := [.ready r] }

/-- The turns of a task that is alone keep what is left of it in line, and a command that it has
started is answered or waits for its answer. -/
theorem Turn.ensures (h : Turn w p shown p') {a : Activity α} (ha : p.tasks = [a])
    (hens : a.Ensures w Q (p.memory, exchanges log))
    (hcalls : requests log = (exchanges log).map Prod.fst ++ a.open?) :
    ∃ a', p'.tasks = [a'] ∧ a'.Ensures w Q (p'.memory, exchanges (log ++ shown)) ∧
      requests (log ++ shown) = (exchanges (log ++ shown)).map Prod.fst ++ a'.open? := by
  -- There is no other task whose turn it could be.
  have htask : ∀ {i : Nat} {b : Activity α}, p.tasks[i]? = some b → i = 0 ∧ b = a := by
    intro i b hb
    rw [ha] at hb
    cases i with
    | zero => exact ⟨rfl, (Option.some.inj hb).symm⟩
    | succ i => exact absurd hb (by simp)
  simp only [exchanges_append, requests_append, hcalls]
  cases h with
  | @finish i b ht =>
    obtain ⟨rfl, rfl⟩ := htask ht
    simp only [exchanges, requests, List.filterMap_nil, List.append_nil]
    refine ⟨.ended (.value b), by simp [set, ha], ?_, by simp [Activity.open?]⟩
    have hdone : Routine.Ensures w.noting Q (p.memory, exchanges log) (.done b) := hens
    show Q b (p.memory, exchanges log)
    exact Routine.ensures_done.1 hdone
  | @consult i q next now answer memory ht hnow hm =>
    obtain ⟨rfl, rfl⟩ := htask ht
    simp only [exchanges_single, requests_single, TaskEvent.answered?, TaskEvent.called?,
      Option.toList_none, List.append_nil]
    refine ⟨.ready (next answer), by simp [set, ha], ?_, by simp [Activity.open?]⟩
    exact (Routine.ensures_ask.1 hens).2 answer (memory, exchanges log) ⟨now, hnow, hm, rfl⟩
  | @call i request next ht =>
    obtain ⟨rfl, rfl⟩ := htask ht
    simp only [exchanges_single, requests_single, TaskEvent.answered?, TaskEvent.called?,
      Option.toList_none, Option.toList_some, List.append_nil]
    refine ⟨.calling request next, by simp [set, ha], ?_, by simp [Activity.open?]⟩
    intro answer hbrings
    exact (Routine.ensures_ask.1 hens).2 answer _ ⟨hbrings, rfl⟩
  | @answer i request next answer ht hbrings =>
    obtain ⟨rfl, rfl⟩ := htask ht
    simp only [exchanges_single, requests_single, TaskEvent.answered?, TaskEvent.called?,
      Option.toList_none, Option.toList_some, List.append_nil]
    exact ⟨.ready (next answer), by simp [set, ha], hens answer hbrings, by simp [Activity.open?]⟩
  | @acquire i node next ht hfree =>
    obtain ⟨rfl, rfl⟩ := htask ht
    simp only [exchanges_single, requests_single, TaskEvent.answered?, TaskEvent.called?,
      Option.toList_none, List.append_nil]
    refine ⟨.ready (next ()), by simp [set, ha], ?_, by simp [Activity.open?]⟩
    exact (Routine.ensures_ask.1 hens).2 () _ rfl
  | @release i node next ht =>
    obtain ⟨rfl, rfl⟩ := htask ht
    simp only [exchanges_single, requests_single, TaskEvent.answered?, TaskEvent.called?,
      Option.toList_none, List.append_nil]
    refine ⟨.ready (next ()), by simp [set, ha], ?_, by simp [Activity.open?]⟩
    exact (Routine.ensures_ask.1 hens).2 () _ rfl
  | @tell i writes next ht =>
    obtain ⟨rfl, rfl⟩ := htask ht
    simp only [exchanges_single, requests_single, TaskEvent.answered?, TaskEvent.called?,
      Option.toList_none, List.append_nil]
    refine ⟨.propagating (.start writes) next, by simp [set, ha], ?_, by simp [Activity.open?]⟩
    intro report
    exact (Routine.ensures_ask.1 hens).2 report _ rfl
  | @write i run run' next ht hrun =>
    obtain ⟨rfl, rfl⟩ := htask ht
    simp only [exchanges, requests, List.filterMap_nil, List.append_nil]
    exact ⟨.propagating run' next, by simp [set, ha], hens, by simp [Activity.open?]⟩
  | @report i run run' next ht hrun =>
    obtain ⟨rfl, rfl⟩ := htask ht
    simp only [exchanges_single, requests_single, TaskEvent.answered?, TaskEvent.called?,
      Option.toList_none, List.append_nil]
    exact ⟨.ready (next run'.report), by simp [set, ha], hens run'.report, by simp [Activity.open?]⟩

/-- What a routine ensures in the memory of a controller, and by the commands that it runs, holds when
its task has ended alone. -/
theorem noted_of_alone (h : r.Ensures w.noting Q (m, [])) (hrun : Run (Turn w) (alone m r) log p)
    (hended : p.tasks[0]? = some (.ended (.value a))) :
    Q a (p.memory, exchanges log) ∧ requests log = (exchanges log).map Prod.fst := by
  have hall : ∃ a', p.tasks = [a'] ∧ a'.Ensures w Q (p.memory, exchanges log) ∧
      requests log = (exchanges log).map Prod.fst ++ a'.open? := by
    refine hrun.preserves (P := fun log p => ∃ a', p.tasks = [a'] ∧
      a'.Ensures w Q (p.memory, exchanges log) ∧
        requests log = (exchanges log).map Prod.fst ++ a'.open?) ?_ ?_
    · exact ⟨.ready r, rfl, h, rfl⟩
    · rintro log t shown u ⟨a', htasks, hens, hcalls⟩ turn
      exact turn.ensures htasks hens hcalls
  obtain ⟨a', htasks, hens, hcalls⟩ := hall
  rw [htasks] at hended
  obtain rfl := Option.some.inj hended
  exact ⟨hens, hcalls.trans (List.append_nil _)⟩

/-- What a routine ensures in the memory of a controller holds when its task has ended alone. -/
theorem ensures_of_alone {Q : α → Memory → Prop} (h : r.Ensures w.surroundings Q m)
    (hrun : Run (Turn w) (alone m r) log p) (hended : p.tasks[0]? = some (.ended (.value a))) :
    Q a p.memory :=
  (noted_of_alone (h.noting []) hrun hended).1

/-! ## Running a task in one go -/

/-- Run a task, at one instant, with given answers to its commands; it stops where a command has no
answer. Nothing comes of it when a lock is taken, when a record would outlive the clock, or when the
task tells somebody. -/
def runTask? (now : Instant) (answer? : Request → Option (Except ExecError String)) (i : Nat) :
    Routine α → Pool α → Option (List (Nat × TaskEvent) × Pool α)
  | .done a, p => some ([], p.set i (.ended (.value a)))
  | .ask (.consult q) next, p =>
    match p.memory.consult now q with
    | some (answer, memory) =>
      (runTask? now answer? i (next answer) ({ p with memory }.set i (.ready (next answer)))).map
        fun x => ((i, .consulted q answer) :: x.1, x.2)
    | none => none
  | .ask (.run request) next, p =>
    match answer? request with
    | some answer =>
      (runTask? now answer? i (next answer) (p.set i (.ready (next answer)))).map
        fun x => ((i, .called request) :: (i, .answered request answer) :: x.1, x.2)
    | none => some ([(i, .called request)], p.set i (.calling request next))
  | .ask (.acquire node) next, p =>
    if p.locks.contains node then none
    else (runTask? now answer? i (next ())
      ({ p with locks := p.locks.put node i }.set i (.ready (next ())))).map
        fun x => ((i, .acquired node) :: x.1, x.2)
  | .ask (.release node) next, p =>
    (runTask? now answer? i (next ())
      ({ p with locks := p.locks.erase node }.set i (.ready (next ())))).map
        fun x => ((i, .released node) :: x.1, x.2)
  | .ask (.propagate _) _, _ => none

/-- Run a task to its end. -/
def finish? (now : Instant) (answers : Request → Except ExecError String) (i : Nat)
    (r : Routine α) (p : Pool α) : Option (List (Nat × TaskEvent) × Pool α) :=
  runTask? now (fun request => some (answers request)) i r p

/-- Run tasks to their ends, one after another. -/
def finishAll? (now : Instant) (answers : Request → Except ExecError String) :
    List Nat → Pool α → Option (List (Nat × TaskEvent) × Pool α)
  | [], p => some ([], p)
  | i :: is, p =>
    match p.tasks[i]? with
    | some (.ready r) =>
      match finish? now answers i r p with
      | some (log, p') => (finishAll? now answers is p').map fun x => (log ++ x.1, x.2)
      | none => none
    | _ => none

/-- Running a task in one go is a run of the pool. -/
theorem runTask?_run {now : Instant} {answer? : Request → Option (Except ExecError String)} {i : Nat}
    (hnow : w.timely now)
    (hbrings : ∀ request answer, answer? request = some answer → w.brings request answer)
    (h : runTask? now answer? i r p = some (log, p')) (ht : p.tasks[i]? = some (.ready r)) :
    Run (Turn w) p log p' := by
  have hset : ∀ {p p₁ : Pool α} {a : Activity α} (b : Activity α), p.tasks[i]? = some a →
      p₁.tasks = p.tasks → (p₁.set i b).tasks[i]? = some b := by
    intro p p₁ a b ha hsame
    obtain ⟨hi, -⟩ := List.getElem?_eq_some_iff.1 ha
    simp [set, hsame, hi]
  induction r generalizing p log with
  | done b =>
    obtain ⟨rfl, rfl⟩ := Prod.mk.inj (Option.some.inj h)
    exact .single (.finish ht)
  | ask e next ih =>
    cases e with
    | consult q =>
      unfold runTask? at h
      split at h
      · rename_i answer memory hm
        obtain ⟨⟨rest, p''⟩, hrest, hx⟩ := Option.map_eq_some_iff.1 h
        obtain ⟨rfl, rfl⟩ := Prod.mk.inj hx
        have hturn := Run.single (Turn.consult ht hnow hm)
        exact hturn.trans (ih answer hrest (hset _ ht rfl))
      · exact absurd h (by simp)
    | run request =>
      unfold runTask? at h
      have hcall : Run (Turn w) p [(i, .called request)] (p.set i (.calling request next)) :=
        .single (.call ht)
      split at h
      · rename_i answer hanswer
        obtain ⟨⟨rest, p''⟩, hrest, hx⟩ := Option.map_eq_some_iff.1 h
        obtain ⟨rfl, rfl⟩ := Prod.mk.inj hx
        have hcalling := hset (.calling request next) ht rfl
        have hanswered := hcall.tail (.answer hcalling (hbrings request answer hanswer))
        rw [show (p.set i (.calling request next)).set i (.ready (next answer)) =
          p.set i (.ready (next answer)) by simp [set]] at hanswered
        exact hanswered.trans (ih answer hrest (hset _ ht rfl))
      · obtain ⟨rfl, rfl⟩ := Prod.mk.inj (Option.some.inj h)
        exact hcall
    | acquire node =>
      unfold runTask? at h
      split at h
      · exact absurd h (by simp)
      · rename_i hfree
        obtain ⟨⟨rest, p''⟩, hrest, hx⟩ := Option.map_eq_some_iff.1 h
        obtain ⟨rfl, rfl⟩ := Prod.mk.inj hx
        have hturn := Run.single (Turn.acquire (w := w) ht (by simpa using hfree))
        exact hturn.trans (ih () hrest (hset _ ht rfl))
    | release node =>
      unfold runTask? at h
      obtain ⟨⟨rest, p''⟩, hrest, hx⟩ := Option.map_eq_some_iff.1 h
      obtain ⟨rfl, rfl⟩ := Prod.mk.inj hx
      have hturn := Run.single (Turn.release (w := w) ht)
      exact hturn.trans (ih () hrest (hset _ ht rfl))
    | propagate writes =>
      unfold runTask? at h
      exact absurd h (by simp)

/-- Running a task to its end is a run of the pool. -/
theorem finish?_run {now : Instant} {answers : Request → Except ExecError String} {i : Nat}
    (hnow : w.timely now) (hbrings : ∀ request, w.brings request (answers request))
    (h : finish? now answers i r p = some (log, p')) (ht : p.tasks[i]? = some (.ready r)) :
    Run (Turn w) p log p' := by
  refine runTask?_run hnow (fun request answer hanswer => ?_) h ht
  obtain rfl := Option.some.inj hanswer
  exact hbrings request

/-- Running tasks one after another is a run of the pool. -/
theorem finishAll?_run {now : Instant} {answers : Request → Except ExecError String} {is : List Nat}
    (hnow : w.timely now) (hbrings : ∀ request, w.brings request (answers request))
    (h : finishAll? now answers is p = some (log, p')) : Run (Turn w) p log p' := by
  induction is generalizing p log with
  | nil =>
    obtain ⟨rfl, rfl⟩ := Prod.mk.inj (Option.some.inj h)
    exact .refl p
  | cons i is ih =>
    unfold finishAll? at h
    split at h
    · rename_i r ht
      split at h
      · rename_i log₁ p₁ hfirst
        obtain ⟨⟨rest, p''⟩, hrest, hx⟩ := Option.map_eq_some_iff.1 h
        obtain ⟨rfl, rfl⟩ := Prod.mk.inj hx
        exact (finish?_run hnow hbrings hfirst ht).trans (ih hrest)
      · exact absurd h (by simp)
    · exact absurd h (by simp)

end Pool

/-- The answers of nodes that all have one identifier and one address. -/
def sampleAnswer (request : Request) : Except ExecError String :=
  match request.command with
  | .peerInfo => .ok "12D3KooWAbCdEfGhIjKlMnOpQrStUvWxYz123456789abcdefghi"
  | .nodeIp => .ok "10.0.0.7"
  | .writeConnections text => .ok text
  | _ => .ok ""

/-- The address that every node has by these answers. -/
def sampleAddress : String :=
  "/ip4/10.0.0.7/tcp/2121/p2p/12D3KooWAbCdEfGhIjKlMnOpQrStUvWxYz123456789abcdefghi"

/-- The identifier that every node has by these answers. -/
def sampleId : String := "12D3KooWAbCdEfGhIjKlMnOpQrStUvWxYz123456789abcdefghi"

/-- Another identifier. -/
def laterId : String := "12D3KooWZyXwVuTsRqPoNmLkJiHgFeDcBa987654321zyxwvutsr"

/-- The answers of nodes that all have the other identifier by now. -/
def laterAnswer (request : Request) : Except ExecError String :=
  match request.command with
  | .peerInfo => .ok laterId
  | _ => sampleAnswer request

end Rendezvous
