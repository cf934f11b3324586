/-!
# Endings

The ways in which a task comes to its end.
-/

namespace Rendezvous

/-- How a task ended. -/
inductive Ending (α : Type) where
  /-- With a value. -/
  | value (a : α)
  /-- It broke down. -/
  | crashed
  /-- It was aborted. -/
  | aborted
deriving DecidableEq, Repr

namespace Ending

/-- The same ending with another value. -/
def map {α β : Type} (f : α → β) : Ending α → Ending β
  | .value a => .value (f a)
  | .crashed => .crashed
  | .aborted => .aborted

/-- The value of a task that ended with one. -/
def value? {α : Type} : Ending α → Option α
  | .value a => some a
  | _ => none

end Ending

end Rendezvous
