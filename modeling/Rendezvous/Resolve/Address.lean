import Rendezvous.Address.Connections
import Rendezvous.Cache.Timed
import Rendezvous.Resolve.Routine

/-!
# Resolving one node

Resolving a node takes three steps. A recorded identity is the answer. Otherwise the node's own
address is probed, if its type makes one known; then its dependencies are resolved and written into
it; only then is the own address recorded. A node that does not answer thus costs one command an
attempt, and what has been probed is noted, so that the next attempt repeats only what failed.

Probing a node and recording what came of it happens under the lock of that node, and looks into the
cache again once it has the lock. A routine holds one lock at a time, so that nodes that depend on
each other do not wait for each other.
-/

namespace Rendezvous

/-- What came of resolving a node. -/
structure Resolution where
  /-- The node. -/
  node : String
  /-- Its own address, or the recorded value. -/
  address : Option String
  /-- The connections written into it. -/
  connections : Option Connections
  /-- Whether the answer was a recorded one. -/
  cached : Bool
deriving DecidableEq, Repr

/-- What resolving goes by. -/
structure Settings where
  /-- The peers. -/
  config : Config
  /-- How long a resolved identity is known. -/
  lifetime : Duration := defaultLifetime
  /-- How the names of the nodes begin whose readiness is followed. -/
  nodeLead : String := "da"

namespace Attempt

/-- Turn a malformed answer of a node into a failure of the attempt. -/
def ofFormat {α : Type} (node : String) : Except FormatError α → Attempt α
  | .ok a => pure a
  | .error e => throw (.format node e)

/-- Run a command. -/
def execute (request : Request) : Attempt String := do
  match ← (Routine.perform (.run request) : Routine _) with
  | .ok output => pure output
  | .error e => throw (.execution request.node e)

/-- Do something with the lock of a node held, and give it back however it ends. -/
def locked {α : Type} (node : String) (body : Attempt α) : Attempt α :=
  ExceptT.mk do
    Routine.perform (.acquire node)
    let result ← body.run
    Routine.perform (.release node)
    return result

end Attempt

namespace Resolve

/-- The recorded value of a node, if the cache has one and answers. -/
def lookup (node : String) : Routine (Option String) := do
  return knownValue (← Routine.consult (.cacheGet node))

/-- Record and register an address. A cache that does not take it costs nothing but the time to find
the address again. -/
def store (s : Settings) (p : Peer) (address : MultiAddress) : Routine Unit := do
  let _ ← Routine.consult (.cacheSet p.nodeName address.text s.lifetime)
  Routine.consult (.register p.nodeName address.text p.space)

/-! ## Probes -/

/-- Ask a node for its identifier. -/
def probeIdentity (p : Peer) : Attempt String := do
  let raw := Text.trim (← Attempt.execute (.main p .peerInfo))
  if raw.isEmpty then throw (.emptyIdentity p.nodeName)
  Attempt.ofFormat p.nodeName (truncatePeerId raw peerIdLength)

/-- Ask a node for its IP address. -/
def probeIp (p : Peer) : Attempt Host := do
  let output ← Attempt.execute (.main p .nodeIp)
  if (Text.trim output).isEmpty then throw (.emptyIdentity p.nodeName)
  Attempt.ofFormat p.nodeName (Host.parseIp output)

/-- The identifier of a node, as noted or as probed now. -/
def peerIdOf (p : Peer) : Attempt String := do
  match ← (Routine.consult (.recallId p.nodeName) : Routine _) with
  | some id => pure id
  | none =>
    let id ← probeIdentity p
    let _ ← (Routine.consult (.noteId p.nodeName id) : Routine _)
    pure id

/-- The host of a node: the DNS name that stands for it, or its IP address. -/
def hostOf (p : Peer) : Option String → Attempt Host
  | some dns => pure (.dns dns)
  | none => probeIp p

/-- The host under which a node makes itself known: its name without the number of its first pod if
it is in DNS, its IP address otherwise. -/
def ownHost (p : Peer) : Attempt Host :=
  if p.dnsConnections.isEmpty then probeIp p
  else pure (.dns (Text.dropEnding p.nodeName "-0"))

/-! ## Addresses -/

/-- The recorded address of a dependency as its dependent is to see it. The dependent may set a DNS
name for it, which replaces the host. A record that is no address is taken for an identifier. -/
def cachedAddress (p : Peer) (dns : Option String) : Attempt (Option MultiAddress) := do
  match ← (lookup p.nodeName : Routine _) with
  | none => pure none
  | some value =>
    if hasLead value then
      let known ← Attempt.ofFormat p.nodeName (MultiAddress.parse value)
      match dns with
      | none => pure (some known)
      | some dns =>
        some <$> Attempt.ofFormat p.nodeName (MultiAddress.ofHost (.dns dns) known.peerId)
    else
      let id ← Attempt.ofFormat p.nodeName (truncatePeerId (Text.trim value) peerIdLength)
      let host ← hostOf p dns
      some <$> Attempt.ofFormat p.nodeName (MultiAddress.ofHost host id)

/-- Probe a dependency for its address as its dependent is to see it, and record it. -/
def probeDependency (s : Settings) (p : Peer) (dns : Option String) : Attempt MultiAddress := do
  let id ← peerIdOf p
  let host ← hostOf p dns
  let address ← Attempt.ofFormat p.nodeName (MultiAddress.ofHost host id)
  let _ ← (store s p address : Routine _)
  pure address

/-- The address of a dependency as its dependent is to see it. -/
def dependencyAddress (s : Settings) (p : Peer) (dns : Option String) : Attempt MultiAddress := do
  match ← cachedAddress p dns with
  | some address => pure address
  | none =>
    Attempt.locked p.nodeName do
      match ← cachedAddress p dns with
      | some address => pure address
      | none => probeDependency s p dns

/-- Probe a node for its own address and note it. -/
def probeOwn (p : Peer) : Attempt MultiAddress := do
  let id ← peerIdOf p
  let host ← ownHost p
  let address ← Attempt.ofFormat p.nodeName (MultiAddress.ofHost host id)
  let _ ← (Routine.consult (.noteAddress p.nodeName address) : Routine _)
  pure address

/-- The own address of a node, as noted or as probed now. -/
def ownAddress (p : Peer) : Attempt MultiAddress := do
  match ← (Routine.consult (.recallAddress p.nodeName) : Routine _) with
  | some address => pure address
  | none =>
    Attempt.locked p.nodeName do
      match ← (lookup p.nodeName : Routine _) with
      | some value => Attempt.ofFormat p.nodeName (MultiAddress.parse value)
      | none => probeOwn p

/-! ## Connections -/

/-- The peer of a dependency's name. One that is not configured is taken for a data availability
node in the namespace of the dependent. -/
def dependency (s : Settings) (name : String) (dependent : Peer) : Peer :=
  match s.config.find? name with
  | some p => p
  | none => Peer.withDefaults { nodeName := name } dependent.space

/-- The address for one listed dependency. -/
def segment (s : Settings) (p : Peer) (i : Nat) (entry : String) : Attempt MultiAddress :=
  if isLiteralAddress entry then Attempt.ofFormat p.nodeName (MultiAddress.parse entry)
  else dependencyAddress s (dependency s entry p) (p.dnsFor? i)

/-- Add the addresses of the dependencies from position `i` on. -/
def assembleFrom (s : Settings) (p : Peer) : Nat → List String → Connections → Attempt Connections
  | _, [], connections => pure connections
  | i, entry :: entries, connections => do
    let address ← segment s p i entry
    let connections ← Attempt.ofFormat p.nodeName (connections.push address.text)
    assembleFrom s p (i + 1) entries connections

/-- The connection string of a node, in the order of its dependencies. -/
def assemble (s : Settings) (p : Peer) : Attempt Connections :=
  assembleFrom s p 0 p.connectsTo .empty

/-- Bring the dependencies into a node. -/
def connect (s : Settings) (p : Peer) : Attempt (Option Connections) :=
  match p.connectsTo with
  | [] => pure none
  | dependency :: _ =>
    if p.connectsAsEnvVar then do
      let _ ← Attempt.execute (.setup p (.envVarFile dependency p.nodeType))
      pure none
    else do
      let connections ← assemble s p
      let _ ← Attempt.execute (.setup p (.writeConnections connections.text))
      pure (some connections)

/-- Resolve a node that is not recorded. -/
def resolveAnew (s : Settings) (p : Peer) : Attempt Resolution := do
  let own ← if p.nodeType.advertises then some <$> ownAddress p else pure none
  let connections ← connect s p
  match own with
  | some address =>
    let _ ← (store s p address : Routine _)
    let _ ← (Routine.consult (.dropAddress p.nodeName) : Routine _)
    pure ⟨p.nodeName, some address.text, connections, false⟩
  | none => pure ⟨p.nodeName, none, connections, false⟩

/-- Resolve a node. -/
def resolve (s : Settings) (p : Peer) : Attempt Resolution := do
  match ← (lookup p.nodeName : Routine _) with
  | some value =>
    let _ ← (Routine.consult (.register p.nodeName value p.space) : Routine _)
    pure ⟨p.nodeName, some value, none, true⟩
  | none => resolveAnew s p

end Resolve

end Rendezvous
