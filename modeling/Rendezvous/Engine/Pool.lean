import Rendezvous.Engine.Ending
import Rendezvous.Resolve.Memory

/-!
# Pools of tasks

Tasks that run routines side by side over one memory and one set of locks. A pool moves by small
steps: one task asks its next question, a command of one task is answered, a write of a propagation
ends, a task is aborted. Which step comes next is not the pool's business; every interleaving of the
tasks is a sequence of these steps.
-/

namespace Rendezvous

/-- What a task is at. -/
inductive Activity (α : Type) where
  /-- It can take its next step, unless that waits for a lock. -/
  | ready (routine : Routine α)
  /-- It waits for the answer to a command. -/
  | calling (request : Request) (next : Except ExecError String → Routine α)
  /-- It waits for a propagation. -/
  | propagating (p : Propagation) (next : PropagationReport → Routine α)
  /-- It has ended. -/
  | ended (ending : Ending α)

/-- Tasks over one memory. -/
structure Pool (α : Type) where
  /-- What the tasks share. -/
  memory : Memory
  /-- The task that holds the lock of a node. -/
  locks : Table Nat := {}
  /-- The tasks; a task is known by its position. -/
  tasks : List (Activity α) := []

namespace Pool

variable {α : Type}

/-- Start a task. -/
def spawn (p : Pool α) (routine : Routine α) : Pool α :=
  { p with tasks := p.tasks ++ [.ready routine] }

/-- A task goes over to something else. -/
def set (p : Pool α) (i : Nat) (a : Activity α) : Pool α :=
  { p with tasks := p.tasks.set i a }

/-- A task ends before its time and its locks become free. -/
def drop (p : Pool α) (i : Nat) (ending : Ending α) : Pool α :=
  { p with
    locks := p.locks.filter fun _ holder => holder != i
    tasks := p.tasks.set i (.ended ending) }

/-- A task takes its next step, if it can. -/
def advance? (p : Pool α) (now : Instant) (i : Nat) : Option (Pool α) :=
  match p.tasks[i]? with
  | some (.ready (.done a)) => some (p.set i (.ended (.value a)))
  | some (.ready (.ask (.consult q) next)) =>
    match p.memory.consult now q with
    | some (answer, memory) => some ({ p with memory }.set i (.ready (next answer)))
    | none => some (p.drop i .crashed)
  | some (.ready (.ask (.run request) next)) => some (p.set i (.calling request next))
  | some (.ready (.ask (.acquire node) next)) =>
    if p.locks.contains node then none
    else some ({ p with locks := p.locks.put node i }.set i (.ready (next ())))
  | some (.ready (.ask (.release node) next)) =>
    some ({ p with locks := p.locks.erase node }.set i (.ready (next ())))
  | some (.ready (.ask (.propagate writes) next)) =>
    some (p.set i (.propagating (.start writes) next))
  | _ => none

/-- The command of a task is answered. -/
def answer? (p : Pool α) (i : Nat) (answer : Except ExecError String) : Option (Pool α) :=
  match p.tasks[i]? with
  | some (.calling _ next) => some (p.set i (.ready (next answer)))
  | _ => none

/-- A write of the propagation of a task ends. -/
def finishWrite? (p : Pool α) (i id : Nat) (outcome : TrustOutcome) : Option (Pool α) :=
  match p.tasks[i]? with
  | some (.propagating run next) => some (p.set i (.propagating (run.finish id outcome) next))
  | _ => none

/-- A task counts the first of the writes that have ended. -/
def joinWrite? (p : Pool α) (i : Nat) : Option (Pool α) :=
  match p.tasks[i]? with
  | some (.propagating run next) => run.join?.map fun run => p.set i (.propagating run next)
  | _ => none

/-- A task goes on with the report of a propagation in which nothing is left to wait for. -/
def report? (p : Pool α) (i : Nat) : Option (Pool α) :=
  match p.tasks[i]? with
  | some (.propagating run next) =>
    if run.isOver then some (p.set i (.ready (next run.report))) else none
  | _ => none

/-- A task stops its propagation, because the controller is shutting down. -/
def stopPropagation? (p : Pool α) (i : Nat) : Option (Pool α) :=
  match p.tasks[i]? with
  | some (.propagating run next) => some (p.set i (.ready (next run.stop.report)))
  | _ => none

/-- A task is aborted, unless it has ended. -/
def abort (p : Pool α) (i : Nat) : Pool α :=
  match p.tasks[i]? with
  | none | some (.ended _) => p
  | _ => p.drop i .aborted

/-- The controller begins to shut down. -/
def cancel (p : Pool α) : Pool α :=
  { p with memory := { p.memory with cancelled := true } }

/-- What is noted about a node is dropped. -/
def forget (p : Pool α) (node : String) : Pool α :=
  { p with memory := { p.memory with memos := p.memory.memos.forget node } }

/-- How a task ended, if it has. -/
def ending? (p : Pool α) (i : Nat) : Option (Ending α) :=
  match p.tasks[i]? with
  | some (.ended e) => some e
  | _ => none

end Pool

end Rendezvous
