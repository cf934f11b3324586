/-!
# Durations and instants

Time is counted in whole nanoseconds. A duration is what a policy, a timeout or a lifetime is given
as; an instant is the time since the clock started. The clock does not reach arbitrarily far, so
adding a duration to an instant can fail.
-/

namespace Rendezvous

/-- A length of time. -/
structure Duration where
  /-- Its nanoseconds. -/
  nanos : Nat
deriving DecidableEq, Repr, Inhabited

/-- Nanoseconds since the clock started. -/
abbrev Instant := Nat

/-- Nanoseconds in a second. -/
def nanosPerSec : Nat := 1000000000

/-- Nanoseconds in a millisecond. -/
def nanosPerMilli : Nat := 1000000

namespace Duration

/-- So many seconds. -/
def ofSecs (n : Nat) : Duration := ⟨n * nanosPerSec⟩

/-- So many milliseconds. -/
def ofMillis (n : Nat) : Duration := ⟨n * nanosPerMilli⟩

/-- Seconds and further nanoseconds. -/
def ofParts (secs nanos : Nat) : Duration := ⟨secs * nanosPerSec + nanos⟩

/-- The whole seconds. -/
def secs (d : Duration) : Nat := d.nanos / nanosPerSec

/-- The nanoseconds beyond the whole seconds. -/
def subsecNanos (d : Duration) : Nat := d.nanos % nanosPerSec

/-- The whole milliseconds. -/
def millis (d : Duration) : Nat := d.nanos / nanosPerMilli

/-- One duration has no more than `2 ^ 64` seconds. -/
def secsLimit : Nat := 0x10000000000000000

/-! ## Text -/

/-- The digits of a part, out of so many decimal places, without trailing zeros. -/
def fractionDigits (places part : Nat) : List Char :=
  let digits := Nat.toDigits 10 part
  let padded := List.replicate (places - digits.length) '0' ++ digits
  (padded.reverse.dropWhile (· == '0')).reverse

/-- `n / 10 ^ places` in decimal, without trailing zeros and without a bare point. -/
def decimalText (n places : Nat) : String :=
  let unit := Nat.pow 10 places
  let whole := toString (n / unit)
  match fractionDigits places (n % unit) with
  | [] => whole
  | digits => whole ++ "." ++ String.ofList digits

/-- A duration in the largest unit of which it has at least one, from seconds to nanoseconds. -/
def text (d : Duration) : String :=
  if nanosPerSec ≤ d.nanos then decimalText d.nanos 9 ++ "s"
  else if 1000000 ≤ d.nanos then decimalText d.nanos 6 ++ "ms"
  else if 1000 ≤ d.nanos then decimalText d.nanos 3 ++ "µs"
  else decimalText d.nanos 0 ++ "ns"

/-! ## Seconds as a binary fraction -/

/-- The seconds of a duration as a double. -/
def toSeconds (d : Duration) : Float :=
  d.secs.toUInt64.toFloat + d.subsecNanos.toUInt64.toFloat / 1000000000.0

/-- `num / 2 ^ shift`, rounded to the nearest integer, a tie to the even one. -/
def roundShift (num shift : Nat) : Nat :=
  let q := num >>> shift
  let r := num - (q <<< shift)
  let half := 1 <<< shift
  if 2 * r > half || (2 * r == half && q % 2 == 1) then q + 1 else q

/-- The fraction of a double is less than so much: it has 52 bits. -/
def fractionLimit : Nat := 0x10000000000000

/-- The duration nearest to a double of seconds, a tie to the even nanosecond. A negative number, a
number of `2 ^ 64` seconds or more and what is not a number have none. -/
def ofSeconds? (x : Float) : Option Duration :=
  let bits := x.toBits.toNat
  let exponent := bits / fractionLimit % 2048
  let fraction := bits % fractionLimit
  if x < 0.0 then none
  else if exponent = 2047 then none
  else
    let mantissa := if exponent = 0 then fraction else fractionLimit + fraction
    let power := if exponent = 0 then 1 else exponent
    let nanos :=
      if 1075 ≤ power then (mantissa * nanosPerSec) <<< (power - 1075)
      else roundShift (mantissa * nanosPerSec) (1075 - power)
    if nanos < secsLimit * nanosPerSec then some ⟨nanos⟩ else none

end Duration

namespace Instant

/-- The clock ends before so many seconds. -/
def secsLimit : Nat := 0x8000000000000000

/-- The instant `d` after `t`, unless the clock ends before it. -/
def after? (t : Instant) (d : Duration) : Option Instant :=
  if t + d.nanos < secsLimit * nanosPerSec then some (t + d.nanos) else none

/-- An instant that the clock reaches is the sum. -/
theorem after?_eq_some {t u : Instant} {d : Duration} (h : after? t d = some u) :
    u = t + d.nanos := by
  unfold after? at h
  split at h
  · exact (Option.some.inj h).symm
  · exact absurd h (by simp)

/-- The whole milliseconds up to an instant. -/
def millis (t : Instant) : Nat := t / nanosPerMilli

end Instant

end Rendezvous
