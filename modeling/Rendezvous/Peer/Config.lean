import Rendezvous.Peer.Basic

/-!
# Configurations

A configuration lists groups of peers that are to know each other. A valid one names every peer
once, so that looking up a node by name finds one peer and one group.
-/

namespace Rendezvous

/-- Peers that are to know each other's addresses. -/
structure PeerGroup where
  /-- The members. -/
  peers : List Peer := []
  /-- The consensus node of the group. -/
  consensusNode : Option String := none
  /-- The directory of each member's list of trusted peers. -/
  trustedPeersPath : Option String := none
deriving DecidableEq, Repr, Inhabited

namespace PeerGroup

/-- The directory used when a group names none. -/
def defaultTrustedPeersPath : String := "/tmp/"

/-- The directory of the lists of trusted peers. -/
def trustedPeersDir (g : PeerGroup) : String :=
  Peer.orElse (g.trustedPeersPath.getD "") defaultTrustedPeersPath

/-- Whether a node is a member. -/
def contains (g : PeerGroup) (node : String) : Bool :=
  g.peers.any (·.nodeName == node)

/-- The group with the defaults of its members filled in. -/
def withDefaults (g : PeerGroup) (space : String) : PeerGroup :=
  { g with peers := g.peers.map (·.withDefaults space) }

end PeerGroup

/-- All groups of peers. -/
structure Config where
  /-- The groups, in the order of the document. -/
  groups : List PeerGroup := []
deriving DecidableEq, Repr, Inhabited

/-- Why a configuration is not valid. -/
inductive ConfigError where
  /-- A name is blank. -/
  | emptyName
  /-- Two peers have one name. -/
  | duplicateName (name : String)
  /-- There are DNS names, but not as many as dependencies. -/
  | misalignedDns (node : String) (dns connects : Nat)
  /-- A dependency is to be injected, but none is listed. -/
  | missingEnvVarTarget (node : String)
deriving DecidableEq, Repr

/-- The sentence shown for an invalid configuration. -/
def ConfigError.message : ConfigError → String
  | .emptyName => "Peer name cannot be empty"
  | .duplicateName name => "Duplicate peer name: " ++ name
  | .misalignedDns node dns connects =>
    s!"Peer {node}: dnsConnections has {dns} entries but connectsTo has {connects}"
  | .missingEnvVarTarget node =>
    s!"Peer {node} connects as env var but has no connectsTo entry"

/-- The first rule that a peer breaks by itself. -/
def Peer.fault? (p : Peer) : Option ConfigError :=
  if Text.isBlankText p.nodeName then some .emptyName
  else if !p.dnsConnections.isEmpty && p.dnsConnections.length != p.connectsTo.length then
    some (.misalignedDns p.nodeName p.dnsConnections.length p.connectsTo.length)
  else if p.connectsAsEnvVar && p.connectsTo.isEmpty then some (.missingEnvVarTarget p.nodeName)
  else none

namespace Config

/-- The configuration with the defaults of all peers filled in. -/
def withDefaults (c : Config) (space : String) : Config :=
  { c with groups := c.groups.map (·.withDefaults space) }

/-- All peers, in the order of the document. -/
def peers (c : Config) : List Peer :=
  c.groups.flatMap (·.peers)

/-- The first rule that a list of peers breaks, where the names in `seen` came before it. -/
def faultAfter? (seen : List String) : List Peer → Option ConfigError
  | [] => none
  | p :: ps =>
    match p.fault? with
    | some e => some e
    | none =>
      if seen.contains p.nodeName then some (.duplicateName p.nodeName)
      else faultAfter? (p.nodeName :: seen) ps

/-- The first rule that a configuration breaks. -/
def fault? (c : Config) : Option ConfigError :=
  faultAfter? [] c.peers

/-- Accept a configuration that breaks no rule. -/
def validate (c : Config) : Except ConfigError Unit :=
  match c.fault? with
  | some e => .error e
  | none => .ok ()

/-- The peer of a name. -/
def find? (c : Config) (node : String) : Option Peer :=
  c.peers.find? (·.nodeName == node)

/-- The group of a node. -/
def groupOf? (c : Config) (node : String) : Option PeerGroup :=
  c.groups.find? (·.contains node)

/-- The namespace used when none is configured. -/
def defaultSpace : String := "default"

/-- The namespace of the controller: the configured one unless it is absent or blank. -/
def spaceOrDefault (space : Option String) : String :=
  match space with
  | some s => if Text.isBlankText s then defaultSpace else s
  | none => defaultSpace

end Config

end Rendezvous
