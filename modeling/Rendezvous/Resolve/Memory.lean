import Rendezvous.Cache.Timed
import Rendezvous.Registry
import Rendezvous.Resolve.Routine

/-!
# The memory of a controller

What the routines of a controller share: the cache, the memos of probes that have not been recorded
yet, the registry, and the sign that the controller is shutting down. It answers the questions of
routines, each in one step.
-/

namespace Rendezvous

/-- What has been probed and not been recorded yet. -/
structure Memos where
  /-- Identifiers by node. -/
  ids : Table String := {}
  /-- Own addresses by node. -/
  addresses : Table MultiAddress := {}
deriving Repr, Inhabited

namespace Memos

/-- Drop everything about a node, for instance because it has started anew. -/
def forget (m : Memos) (node : String) : Memos :=
  ⟨m.ids.erase node, m.addresses.erase node⟩

end Memos

/-- Which calls of the cache fail. -/
structure CacheFaults where
  /-- Reading a record. -/
  get : Bool := false
  /-- Writing a record. -/
  set : Bool := false
  /-- Listing the records. -/
  list : Bool := false
deriving DecidableEq, Repr, Inhabited

/-- The failure of a cache that is down. -/
def cacheDown : CacheError := .unavailable "connection refused"

/-- The memory of a controller. -/
structure Memory where
  /-- The records. -/
  cache : TimedCache := {}
  /-- Which calls of the cache fail. -/
  faults : CacheFaults := {}
  /-- The memos. -/
  memos : Memos := {}
  /-- The registered addresses. -/
  registry : Registry := {}
  /-- Whether the controller is shutting down. -/
  cancelled : Bool := false
deriving Repr, Inhabited

namespace Memory

/-- Answer a question. There is no answer when a record would outlive the clock. -/
def consult (m : Memory) (now : Instant) : (q : Query) → Option (q.Answer × Memory)
  | .cacheGet key =>
    some (if m.faults.get then .error cacheDown else .ok (m.cache.get? now key), m)
  | .cacheSet key value lifetime =>
    if m.faults.set then some (.error cacheDown, m)
    else (m.cache.set? now key value lifetime).map fun cache => (.ok (), { m with cache })
  | .cacheList => some (if m.faults.list then .error cacheDown else .ok (m.cache.toList now), m)
  | .recallId node => some (m.memos.ids.get? node, m)
  | .noteId node id =>
    some ((), { m with memos := { m.memos with ids := m.memos.ids.put node id } })
  | .recallAddress node => some (m.memos.addresses.get? node, m)
  | .noteAddress node address =>
    some ((), { m with memos := { m.memos with addresses := m.memos.addresses.put node address } })
  | .dropAddress node =>
    some ((), { m with memos := { m.memos with addresses := m.memos.addresses.erase node } })
  | .register node address space =>
    some ((), { m with registry := m.registry.register node address space })
  | .isCancelled => some (m.cancelled, m)

end Memory

end Rendezvous
