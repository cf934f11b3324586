import Rendezvous.Time.Duration

/-!
# Retry policy

When a failed item is tried again, and how often. The delays form a geometric sequence that is cut
off at a greatest delay; they are computed in doubles and rounded to the nearest nanosecond.
-/

namespace Rendezvous

/-- How a queue retries. -/
structure RetryPolicy where
  /-- The delay before the first retry. -/
  initialDelay : Duration := .ofSecs 5
  /-- The greatest delay between retries. -/
  maxDelay : Duration := .ofSecs 60
  /-- The factor from one delay to the next. -/
  backoffFactor : Float := 2.0
  /-- Retries after the first attempt before an item is given up. -/
  maxRetries : Nat := 5
  /-- The time between two drains. -/
  drainInterval : Duration := .ofSecs 5
  /-- How many items are worked on at once. -/
  concurrency : Nat := 8
  /-- Whether a malformed address is retried like any other failure. -/
  retryFormatErrors : Bool := false

namespace RetryPolicy

/-- How many items of one drain may be worked on at once. Places are handed out by a semaphore, which
has at most `2 ^ 61 - 1` permits: with a greater concurrency, every drain that has something to do
would break down as it begins. That is left out here. -/
def slots (p : RetryPolicy) : Nat := max 1 p.concurrency

end RetryPolicy

namespace Backoff

/-- The exponent of the delay before retry number `attempt`, which is kept in 32 bits with a
sign. -/
def exponent (attempt : Nat) : Int :=
  Int.bmod ((attempt - 1 : Nat) : Int) 0x100000000

/-- `r * a ^ n` by repeated squaring, in the order in which a processor does it. -/
def powFrom (r a : Float) (n : Nat) : Float :=
  if h : n = 0 then r
  else
    let r := if n % 2 = 1 then r * a else r
    if n / 2 = 0 then r else powFrom r (a * a) (n / 2)
termination_by n
decreasing_by omega

/-- An integral power of a double; a negative one is the inverse of the positive one. -/
def power (a : Float) (n : Int) : Float :=
  let r := powFrom 1.0 a n.natAbs
  if n < 0 then 1.0 / r else r

/-- The lesser of two doubles; one that is not a number loses. -/
def least (x y : Float) : Float :=
  if x.isNaN then y else if y.isNaN then x else if y < x then y else x

end Backoff

/-- The delay before retry number `attempt`, counted from one. Nothing when the policy leads to a
negative delay or to one beyond the range of durations. -/
def RetryPolicy.backoff? (p : RetryPolicy) (attempt : Nat) : Option Duration :=
  Duration.ofSeconds? (Backoff.least
    (p.initialDelay.toSeconds * Backoff.power p.backoffFactor (Backoff.exponent attempt))
    p.maxDelay.toSeconds)

end Rendezvous
