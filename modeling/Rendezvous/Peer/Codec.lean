import Rendezvous.Json.Record
import Rendezvous.Peer.Config

/-!
# Configurations in JSON

How peers, groups and configurations are written in JSON and read back. A peer needs its name; every
other field has a default. Writing a peer always gives all its fields, writing a group leaves out
what it does not name.
-/

namespace Rendezvous

/-- Read a node type: its name, or an object whose only member has that name and no value. -/
def NodeType.ofJson? : Json → Option NodeType
  | .text (some s) => ofName? s
  | .object [(some s, .null)] => ofName? s
  | _ => none

namespace Peer

/-- The fields of a peer, in order. -/
def fieldNames : List String :=
  ["nodeName", "nodeType", "containerName", "containerSetupName", "connectsAsEnvVar", "connectsTo",
    "dnsConnections", "namespace"]

/-- Read a peer. -/
def ofJson? (j : Json) : Option Peer :=
  match j.fields? fieldNames with
  | some [some nodeName, nodeType, container, setup, asEnvVar, connectsTo, dns, space] => do
    return {
      nodeName := ← nodeName.string?
      nodeType := ← Record.orDefault .da NodeType.ofJson? nodeType
      container := ← Record.orDefault "" Json.string? container
      setupContainer := ← Record.orDefault "" Json.string? setup
      connectsAsEnvVar := ← Record.orDefault false Json.bool? asEnvVar
      connectsTo := ← Record.orDefault [] Json.strings? connectsTo
      dnsConnections := ← Record.orDefault [] Json.strings? dns
      space := ← Record.orDefault "" Json.string? space }
  | _ => none

/-- Write a peer. -/
def toJson (p : Peer) : Json :=
  .ofMembers
    [("nodeName", .ofString p.nodeName),
      ("nodeType", .ofString p.nodeType.name),
      ("containerName", .ofString p.container),
      ("containerSetupName", .ofString p.setupContainer),
      ("connectsAsEnvVar", .bool p.connectsAsEnvVar),
      ("connectsTo", .list (p.connectsTo.map .ofString)),
      ("dnsConnections", .list (p.dnsConnections.map .ofString)),
      ("namespace", .ofString p.space)]

end Peer

namespace PeerGroup

/-- The fields of a group, in order. -/
def fieldNames : List String :=
  ["peers", "consensusNode", "trustedPeersPath"]

/-- Read a group. -/
def ofJson? (j : Json) : Option PeerGroup :=
  match j.fields? fieldNames with
  | some [peers, consensusNode, path] => do
    return {
      peers := ← Record.orDefault [] (fun j => j.items?.bind (·.mapM Peer.ofJson?)) peers
      consensusNode := ← Record.orDefault none Json.nullableString? consensusNode
      trustedPeersPath := ← Record.orDefault none Json.nullableString? path }
  | _ => none

/-- Write a group. -/
def toJson (g : PeerGroup) : Json :=
  .ofMembers
    (("peers", .list (g.peers.map Peer.toJson)) ::
      ((g.consensusNode.toList.map fun s => ("consensusNode", .ofString s)) ++
        (g.trustedPeersPath.toList.map fun s => ("trustedPeersPath", .ofString s))))

end PeerGroup

namespace Config

/-- The fields of a configuration, in order. -/
def fieldNames : List String := ["mutualPeers"]

/-- Read a configuration. -/
def ofJson? (j : Json) : Option Config :=
  match j.fields? fieldNames with
  | some [groups] => do
    return {
      groups :=
        ← Record.orDefault [] (fun j => j.items?.bind (·.mapM PeerGroup.ofJson?)) groups }
  | _ => none

/-- Write a configuration. -/
def toJson (c : Config) : Json :=
  .ofMembers [("mutualPeers", .list (c.groups.map PeerGroup.toJson))]

end Config

end Rendezvous
