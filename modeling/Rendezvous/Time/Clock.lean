import Rendezvous.Time.Duration

/-!
# Timers

A timer goes off at a whole millisecond. One that is set for a fraction of a millisecond goes off at
the next whole one, and a clock that stands still until the next timer moves by whole milliseconds.
-/

namespace Rendezvous

/-- How many steps a course on a clock takes before it is broken off, wherever it has come to by
then. What is proved of courses holds of any such number. -/
def courseLimit : Nat := 1000000000000

namespace Instant

/-- The millisecond at which a timer set for an instant goes off. -/
def tick (deadline : Instant) : Nat :=
  (deadline + (nanosPerMilli - 1)) / nanosPerMilli

/-- Whether a timer has gone off. -/
def hasReached (now : Instant) (tick : Nat) : Bool :=
  tick ≤ now / nanosPerMilli

/-- The instant to which a clock moves for a timer. -/
def moveTo (now : Instant) (tick : Nat) : Instant :=
  now + (tick - now / nanosPerMilli) * nanosPerMilli

end Instant

/-- A periodic timer. -/
structure Ticker where
  /-- The instant for which the next tick is set. -/
  deadline : Instant
  /-- The time between ticks. -/
  period : Duration
deriving DecidableEq, Repr

namespace Ticker

/-- A timer whose first tick is due at once. It needs a period. -/
def start? (now : Instant) (period : Duration) : Option Ticker :=
  if period.nanos = 0 then none else some ⟨now, period⟩

/-- How late a tick may be taken without moving the ticks after it. -/
def tolerance : Duration := .ofMillis 5

/-- The timer after a tick was taken. A tick taken too late moves the following ones. -/
def next (t : Ticker) (now : Instant) : Ticker :=
  if t.deadline + tolerance.nanos < now then { t with deadline := now + t.period.nanos }
  else { t with deadline := t.deadline + t.period.nanos }

end Ticker

end Rendezvous
