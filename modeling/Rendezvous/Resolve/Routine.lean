import Rendezvous.Address.Basic
import Rendezvous.Propagation.Basic

/-!
# Routines

What the controller does for a node is a sequence of steps, each of which either ends with a value
or asks its surroundings for one thing and goes on with the answer. Written this way a routine says
nothing of when it runs: many routines can be run side by side, in any interleaving, by whatever
answers their questions.

There are two kinds of question. The controller's own memory answers at once: the cache, the memos
of what has been probed, the registry, the sign that the controller is shutting down. A command on a
node, the lock of a node and a propagation may keep the routine waiting.
-/

namespace Rendezvous

/-- A question that the controller's memory answers at once. -/
inductive Query where
  /-- The record of a key. -/
  | cacheGet (key : String)
  /-- Record a value of a key for a lifetime. -/
  | cacheSet (key value : String) (lifetime : Duration)
  /-- All records. -/
  | cacheList
  /-- The identifier probed for a node. -/
  | recallId (node : String)
  /-- Note the identifier probed for a node. -/
  | noteId (node id : String)
  /-- The own address found for a node. -/
  | recallAddress (node : String)
  /-- Note the own address found for a node. -/
  | noteAddress (node : String) (address : MultiAddress)
  /-- Drop the own address of a node. -/
  | dropAddress (node : String)
  /-- Register an address of a node. -/
  | register (node address space : String)
  /-- Whether the controller is shutting down. -/
  | isCancelled

/-- The answers to a question. -/
@[reducible] def Query.Answer : Query → Type
  | .cacheGet _ => Except CacheError (Option String)
  | .cacheSet .. => Except CacheError Unit
  | .cacheList => Except CacheError (List (String × String))
  | .recallId _ => Option String
  | .noteId .. => Unit
  | .recallAddress _ => Option MultiAddress
  | .noteAddress .. => Unit
  | .dropAddress _ => Unit
  | .register .. => Unit
  | .isCancelled => Bool

/-- What a routine can ask for. -/
inductive Effect where
  /-- An answer from memory. -/
  | consult (q : Query)
  /-- The output of a command. -/
  | run (request : Request)
  /-- The lock of a node. -/
  | acquire (node : String)
  /-- Give the lock of a node back. -/
  | release (node : String)
  /-- The report of a propagation. -/
  | propagate (writes : List TrustWrite)

/-- The answers to what a routine asks for. -/
@[reducible] def Effect.Answer : Effect → Type
  | .consult q => q.Answer
  | .run _ => Except ExecError String
  | .acquire _ => Unit
  | .release _ => Unit
  | .propagate _ => PropagationReport

/-- A sequence of steps that ends with a value. -/
inductive Routine (α : Type) where
  /-- It has ended. -/
  | done (value : α)
  /-- It asks for something and goes on with the answer. -/
  | ask (effect : Effect) (next : effect.Answer → Routine α)

namespace Routine

variable {α β : Type}

/-- One routine after another. -/
def andThen : Routine α → (α → Routine β) → Routine β
  | .done a, f => f a
  | .ask e next, f => .ask e fun answer => andThen (next answer) f

instance : Monad Routine where
  pure := .done
  bind := andThen

/-- Ask for one thing. -/
def perform (e : Effect) : Routine e.Answer := .ask e .done

/-- Ask the memory. -/
def consult (q : Query) : Routine q.Answer := perform (.consult q)

/-- The same routine with another value at its end. -/
def mapValue (f : α → β) (r : Routine α) : Routine β :=
  r.andThen fun a => .done (f a)

end Routine

/-- A routine that can fail. -/
abbrev Attempt (α : Type) := ExceptT ResolveError Routine α

end Rendezvous
