import Rendezvous.Failure
import Rendezvous.Table

/-!
# Timed records

The map from node names to addresses that the controller shares with its own earlier runs. Each
record lives until its time is over. A record that holds an empty value reads as no record.
-/

namespace Rendezvous

/-- The lifetime of a record when none is given: a thousand hours. -/
def defaultLifetime : Duration := .ofSecs (1000 * 3600)

/-- A value and the instant at which it stops being known. -/
structure TimedValue where
  /-- The value. -/
  value : String
  /-- The first instant at which the record is gone. -/
  expiresAt : Instant
deriving DecidableEq, Repr

/-- Timed records by key. -/
structure TimedCache where
  /-- One record for each key. -/
  records : Table TimedValue := {}
deriving DecidableEq, Repr, Inhabited

namespace TimedCache

/-- Whether a record is there at an instant. -/
def isLive (now : Instant) (r : TimedValue) : Bool := now < r.expiresAt

/-- Whether a record is there at an instant and holds a value. -/
def isKnown (now : Instant) (r : TimedValue) : Bool := isLive now r && !r.value.isEmpty

/-- Records that all start now and have the default lifetime. -/
def ofRecords (now : Instant) (records : List (String × String)) : TimedCache :=
  ⟨.ofList (records.map fun r => (r.1, ⟨r.2, now + defaultLifetime.nanos⟩))⟩

/-- The value that is known for a key. -/
def get? (c : TimedCache) (now : Instant) (key : String) : Option String :=
  match c.records.get? key with
  | some r => if isKnown now r then some r.value else none
  | none => none

/-- Store a value for a lifetime, unless that ends after the clock does. -/
def set? (c : TimedCache) (now : Instant) (key value : String) (lifetime : Duration) :
    Option TimedCache :=
  (Instant.after? now lifetime).map fun expiresAt => ⟨c.records.put key ⟨value, expiresAt⟩⟩

/-- Everything that is known. -/
def toList (c : TimedCache) (now : Instant) : List (String × String) :=
  (c.records.entries.filter fun r => isKnown now r.2).map fun r => (r.1, r.2.value)

/-- How many records are there, the empty ones among them. -/
def size (c : TimedCache) (now : Instant) : Nat :=
  (c.records.entries.filter fun r => isLive now r.2).length

end TimedCache

/-- The answer of a cache as far as a resolution is concerned: a failure is a miss, and so is an
empty value. -/
def knownValue (answer : Except CacheError (Option String)) : Option String :=
  match answer with
  | .ok (some value) => if value.isEmpty then none else some value
  | _ => none

end Rendezvous
