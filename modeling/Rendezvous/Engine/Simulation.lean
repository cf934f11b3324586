import Rendezvous.Engine.Cluster
import Rendezvous.Engine.Pool

/-!
# Simulations

One course of a pool of tasks against a scripted cluster, on a clock of its own. Tasks take turns: a
task goes on until it waits or ends. When every task waits, the clock moves to the next timer. A
lock that becomes free goes to the task that has waited longest for it.

All changes of the pool are its own steps, so a course of a simulation is one of the pool's
interleavings.
-/

namespace Rendezvous

/-- A timer for a command. -/
structure CallTimer where
  /-- When it goes off. -/
  tick : Nat
  /-- The task that waits. -/
  task : Nat
  /-- The write of the task's propagation, unless the command is the task's own. -/
  write : Option Nat
  /-- The command. -/
  request : Request
  /-- The limit of the command, if its time is over then. -/
  exceeded : Option Duration
deriving Repr

/-- Tasks, a cluster and a clock. -/
structure Simulation (α : Type) where
  /-- The clock. -/
  now : Instant := 0
  /-- The tasks. -/
  pool : Pool α
  /-- The cluster. -/
  cluster : ScriptedCluster
  /-- How long a command may take. -/
  limit : Option Duration := none
  /-- When the controller begins to shut down. -/
  cancelTick : Option Nat := none
  /-- The tasks that can go on, in the order of their turns. -/
  turns : List Nat := []
  /-- The tasks that wait for the lock of a node, in the order in which they asked. -/
  lockQueue : List (String × Nat) := []
  /-- The timers, in the order in which they were set. -/
  timers : List CallTimer := []
  /-- The tasks that have ended since this was last asked, in order. -/
  ended : List Nat := []

namespace Simulation

variable {α : Type}

/-- Start a task. -/
def spawn (s : Simulation α) (routine : Routine α) : Simulation α :=
  { s with pool := s.pool.spawn routine, turns := s.turns ++ [s.pool.tasks.length] }

/-- A step of the pool after which a task has its turn. -/
def withTurn (s : Simulation α) (i : Nat) : Option (Pool α) → Simulation α
  | some pool => { s with pool, turns := s.turns ++ [i] }
  | none => s

/-- Give the first free lock that is waited for to the first task that waits for it. -/
def grant (s : Simulation α) : Simulation α :=
  match s.lockQueue.find? fun w => !s.pool.locks.contains w.1 with
  | some (_, i) =>
    { s with lockQueue := s.lockQueue.filter (·.2 != i) }.withTurn i (s.pool.advance? s.now i)
  | none => s

/-! ## Commands -/

/-- The cluster answers a command. -/
def answer (s : Simulation α) (r : Request) : Except ExecError String × Simulation α :=
  let (answer, cluster) := s.cluster.answer r
  (answer, { s with cluster })

/-- A write of a propagation ends and is counted. -/
def endWrite (s : Simulation α) (i id : Nat) (outcome : TrustOutcome) : Simulation α :=
  match (s.pool.finishWrite? i id outcome).bind (·.joinWrite? i) with
  | some pool => { s with pool }
  | none => s

/-- A command brings an answer to the task or to the write that waits for it. -/
def deliver (s : Simulation α) (i : Nat) (write : Option Nat)
    (answer : Except ExecError String) : Simulation α :=
  match write with
  | none => s.withTurn i (s.pool.answer? i answer)
  | some id => s.endWrite i id (.ofAnswer answer)

/-- Start a command. -/
def startCall (s : Simulation α) (i : Nat) (write : Option Nat) (r : Request) : Simulation α :=
  match CallCourse.of s.now (s.cluster.delays.get? r.node) s.limit with
  | .atOnce =>
    let (answer, s) := s.answer r
    s.deliver i write answer
  | .expiredAtOnce limit => s.deliver i write (.error (.timeout limit))
  | .answeredAt tick => { s with timers := s.timers ++ [⟨tick, i, write, r, none⟩] }
  | .expiredAt tick limit => { s with timers := s.timers ++ [⟨tick, i, write, r, some limit⟩] }

/-- A timer goes off. -/
def fire (s : Simulation α) (t : CallTimer) : Simulation α :=
  match t.exceeded with
  | some limit => s.deliver t.task t.write (.error (.timeout limit))
  | none =>
    let (answer, s) := s.answer t.request
    s.deliver t.task t.write answer

/-! ## Propagations -/

/-- A task goes on if nothing is left of its propagation. -/
def report (s : Simulation α) (i : Nat) : Simulation α :=
  s.withTurn i (s.pool.report? i)

/-- Stop the propagation of a task. -/
def stopPropagation (s : Simulation α) (i : Nat) : Simulation α :=
  match s.pool.stopPropagation? i with
  | some pool =>
    { s with pool, turns := s.turns ++ [i], timers := s.timers.filter (·.task != i) }
  | none => s

/-- Start the writes of a propagation, or stop it if the controller is shutting down. -/
def startPropagation (s : Simulation α) (i : Nat) (run : Propagation) : Simulation α :=
  if s.pool.memory.cancelled then s.stopPropagation i
  else (run.running.foldl (fun s w => s.startCall i (some w.1) w.2.request) s).report i

/-- The controller begins to shut down. -/
def cancel (s : Simulation α) : Simulation α :=
  let s := { s with pool := s.pool.cancel, cancelTick := none }
  (List.range s.pool.tasks.length).foldl (fun s i => s.stopPropagation i) s

/-! ## Turns -/

/-- A task takes one step. -/
def visit (s : Simulation α) (i : Nat) : Simulation α :=
  match s.pool.advance? s.now i with
  | none =>
    match s.pool.tasks[i]? with
    | some (.ready (.ask (.acquire node) _)) => { s with lockQueue := s.lockQueue ++ [(node, i)] }
    | _ => s
  | some pool =>
    let s := { s with pool }
    match pool.tasks[i]? with
    | some (.ready _) => { s with turns := i :: s.turns }.grant
    | some (.calling request _) => s.startCall i none request
    | some (.propagating run _) => s.startPropagation i run
    | some (.ended _) => { s with ended := s.ended ++ [i] }.grant
    | none => s

/-- Let the tasks take turns until each of them waits or has ended, for so many steps at most. -/
def settle : Nat → Simulation α → Simulation α
  | 0, s => s
  | steps + 1, s =>
    match s.turns with
    | [] => s
    | i :: turns => settle steps ({ s with turns }.visit i)

/-- Let the tasks take turns until each of them waits or has ended. -/
def rest (s : Simulation α) : Simulation α := s.settle courseLimit

/-! ## Time -/

/-- When the next timer goes off. -/
def nextTick? (s : Simulation α) : Option Nat :=
  (s.cancelTick.toList ++ s.timers.map (·.tick)).min?

/-- Move the clock to a tick and let go on what has waited for it. -/
def wakeAt (s : Simulation α) (tick : Nat) : Simulation α :=
  let now := Instant.moveTo s.now tick
  let due := s.timers.filter fun t => Instant.hasReached now t.tick
  let s := { s with now, timers := s.timers.filter fun t => !Instant.hasReached now t.tick }
  let s :=
    match s.cancelTick with
    | some tick => if Instant.hasReached now tick then s.cancel else s
    | none => s
  let s := (due.mergeSort fun a b => a.tick ≤ b.tick).foldl fire s
  (due.foldl (fun s t => if t.write.isSome then s.report t.task else s) s).rest

/-- Abort a task. -/
def abort (s : Simulation α) (i : Nat) : Simulation α :=
  { s with
    pool := s.pool.abort i
    turns := s.turns.filter (· != i)
    lockQueue := s.lockQueue.filter (·.2 != i)
    timers := s.timers.filter (·.task != i) }.grant.rest

/-- Let time pass until every task has ended, for so many timers at most. -/
def runTimers : Nat → Simulation α → Simulation α
  | 0, s => s
  | timers + 1, s =>
    if s.pool.tasks.all fun a => match a with | .ended _ => true | _ => false then s
    else
      match s.nextTick? with
      | some tick => runTimers timers (s.wakeAt tick)
      | none => s

/-- Let everything run until every task has ended. -/
def run (s : Simulation α) : Simulation α :=
  s.rest.runTimers courseLimit

end Simulation

end Rendezvous
