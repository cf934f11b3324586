import Rendezvous.Engine.Scenario
import Rendezvous.Proofs.Peer.Defaults
import Rendezvous.Proofs.Peer.Validation
import Rendezvous.Proofs.Pool.Alone
import Rendezvous.Proofs.Propagation.Fanout
import Rendezvous.Proofs.Resolve.Confinement

/-!
# Where commands go

A command names a node, a container and a namespace, which come from the descriptor of a peer: the one
that is resolved, one that the configuration has under the name of a dependency, or one that is made
up for a dependency that nobody is named after. Whatever is answered and however calls interleave, each
command has all three from one and the same descriptor. What configures a node is for the peer that is
resolved, and what adds to a list of trusted peers names the directory of the group of its target.
-/

namespace Rendezvous

open Routine

/-- A call about a peer that may have commands run. -/
inductive Commission where
  /-- The peer is resolved and its group is told. -/
  | process (p : Peer)
  /-- The group of the peer is told. -/
  | propagate (p : Peer)

/-- The peers to which a call may send commands. -/
inductive Addressee (c : Config) : Commission → Peer → Prop where
  /-- A peer of the configuration. -/
  | configured {v : Commission} {q : Peer} (hq : q ∈ c.peers) : Addressee c v q
  /-- A dependency of the peer that is resolved, listed by a name that no configured peer has. It is
  taken for a data availability node in the namespace of its dependent. -/
  | stranger {p : Peer} {name : String} (hlists : p.Lists name)
      (hnone : ∀ q ∈ c.peers, q.nodeName ≠ name) :
      Addressee c (.process p)
        { nodeName := name, nodeType := .da, container := "da", setupContainer := "da-setup",
          space := p.space }

namespace Commission

/-- The peer that a call is about. -/
def peer : Commission → Peer
  | .process p => p
  | .propagate p => p

/-- The routine of a call. -/
def routine (s : Settings) : Commission → Routine Reply
  | .process p => (Resolve.process s p).run.mapValue .resolution
  | .propagate p => (Resolve.propagate s p.nodeName).mapValue .report

/-- The container of the peer `q` that a command is for. Only the peer that is resolved is configured,
and a directory of trusted peers is the one of the group of `q`. -/
def Places (c : Config) (v : Commission) (q : Peer) (container : String) : Command → Prop
  | .peerInfo => container = q.container
  | .nodeIp => container = q.container
  | .writeFile .. => container = q.setupContainer ∧ v = .process q
  | .envVarFile .. => container = q.setupContainer ∧ v = .process q
  | .appendTrustedPeer _ dir => container = q.container ∧
      ∃ g ∈ c.groups, q ∈ g.peers ∧ c.groupOf? q.nodeName = some g ∧ dir = g.trustedPeersDir

/-- A command goes to one peer: to its name, in its namespace and to one of its containers. -/
def Routes (c : Config) (v : Commission) (request : Request) : Prop :=
  ∃ q, Addressee c v q ∧ request.node = q.nodeName ∧ request.space = q.space ∧
    v.Places c q request.container request.command

/-- What a call may do. -/
def scope (c : Config) (v : Commission) : Scope where
  probes := Addressee c v
  configures := v.Routes c
  tells writes := ∀ w ∈ writes, v.Routes c w.request

variable {c : Config} {s : Settings} {v : Commission} {p q : Peer}

/-! ## Single commands -/

theorem routes_probes (hq : Addressee c v q) :
    v.Routes c (.main q .peerInfo) ∧ v.Routes c (.main q .nodeIp) :=
  ⟨⟨q, hq, rfl, rfl, rfl⟩, ⟨q, hq, rfl, rfl, rfl⟩⟩

theorem routes_envVarFile (hp : p ∈ c.peers) (dependency : String) :
    (Commission.process p).Routes c (.setup p (.envVarFile dependency p.nodeType)) :=
  ⟨p, .configured hp, rfl, rfl, rfl, rfl⟩

theorem routes_writeConnections (hp : p ∈ c.peers) (text : String) :
    (Commission.process p).Routes c (.setup p (.writeConnections text)) :=
  ⟨p, .configured hp, rfl, rfl, rfl, rfl⟩

/-- The peer of the name of a dependency is configured, or made up. -/
theorem addressee_dependency {name : String} (hlists : p.Lists name) :
    Addressee s.config (.process p) (Resolve.dependency s name p) := by
  unfold Resolve.dependency
  cases hfind : s.config.find? name with
  | some q => exact .configured (List.mem_of_find?_eq_some hfind)
  | none =>
    refine .stranger hlists fun q hq hname => ?_
    have hother := List.find?_eq_none.1 hfind q hq
    exact hother (by simpa using hname)

/-- The target of a write is a member of the group, which in a valid configuration is its only one. -/
theorem routes_trustWrites (hvalid : c.validate = .ok ()) {node : String} {g : PeerGroup}
    (hg : c.groupOf? node = some g) {records : List (String × String)} :
    ∀ w ∈ g.trustWrites records, v.Routes c w.request := by
  intro w hw
  obtain ⟨source, -, target, htarget, -, address, -, rfl⟩ := PeerGroup.mem_trustWrites.1 hw
  have hgroup : g ∈ c.groups := List.mem_of_find?_eq_some hg
  have hpeer : target ∈ c.peers := List.mem_flatMap.2 ⟨g, hgroup, htarget⟩
  exact ⟨target, .configured hpeer, rfl, rfl, rfl, g, hgroup, htarget,
    Config.groupOf?_eq_some hvalid hgroup htarget, rfl⟩

/-! ## Calls -/

theorem covers_process (hvalid : s.config.validate = .ok ()) (hp : p ∈ s.config.peers) :
    ((Commission.process p).scope s.config).Covers s p where
  keys _ _ := trivial
  own := .configured hp
  listed _ hlists := addressee_dependency hlists
  injects := routes_envVarFile hp
  writes := routes_writeConnections hp
  told _ _ hg := routes_trustWrites hvalid hg

/-- Whatever it is answered, a call about a configured peer sends its commands where they belong. -/
theorem confined_routine (hvalid : s.config.validate = .ok ()) (hv : v.peer ∈ s.config.peers) :
    (v.routine s).Confined (v.Routes s.config) := by
  have hleeway : Leeway (confined (v.Routes s.config)) (v.scope s.config) fun _ _ => True :=
    confined_leeway (fun _ => routes_probes) (fun _ h => h) fun _ h => h
  cases v with
  | process p =>
    exact (confined_of_keeps (hleeway.process (covers_process hvalid hv))).mapValue _
  | propagate p =>
    refine (confined_of_keeps (hleeway.propagate fun g records hg => ?_)).mapValue _
    exact routes_trustWrites hvalid hg

end Commission

namespace Pool

/-- The pool of some calls that have not begun. -/
def commissions (s : Settings) (memory : Memory) (calls : List Commission) : Pool Reply :=
  { memory, tasks := calls.map fun v => .ready (v.routine s) }

/-- With a configuration that has been read, every command of every call about one of its peers goes
where it belongs, whatever the memory has and the nodes answer, and however the calls interleave. -/
theorem commands_routed {text space : String} {s : Settings}
    (hparse : Config.parse text space = .ok s.config) {memory : Memory} {calls : List Commission}
    (hcalls : ∀ v ∈ calls, v.peer ∈ s.config.peers) {w : World} {log : List (Nat × TaskEvent)}
    {p : Pool Reply} (h : Run (Step w) (commissions s memory calls) log p) :
    ∀ i e, (i, e) ∈ log → ∃ v, calls[i]? = some v ∧
      ∀ request ∈ e.requests, v.Routes s.config request := by
  obtain ⟨-, -, hvalid⟩ := Config.parse_eq_ok hparse
  intro i e he
  cases hv : calls[i]? with
  | none =>
    have hnone : (commissions s memory calls).tasks[i]? = none := by simp [commissions, hv]
    have hown := own_eq_nil h hnone
    rw [← mem_own, hown] at he
    exact absurd he List.not_mem_nil
  | some v =>
    have htask : (commissions s memory calls).tasks[i]? = some (.ready (v.routine s)) := by
      simp [commissions, hv]
    have hpeer := hcalls v (List.mem_of_getElem? hv)
    exact ⟨v, rfl, allowed_of_run h htask (Commission.confined_routine hvalid hpeer) he⟩

/-- A consensus node with a dependency that is not configured. -/
def outpost : Peer :=
  { nodeName := "consensus-1", nodeType := .consensus, container := "consensus",
    setupContainer := "consensus-setup", connectsTo := ["da-9"], space := "east" }

/-- A document that lists this node. -/
def outpostText : String :=
  Text.unlines
    ["mutualPeers:",
      "- peers:",
      "  - nodeName: consensus-1",
      "    nodeType: consensus",
      "    namespace: east",
      "    connectsTo: [da-9]"]

/-- The unknown dependency is probed in the namespace of the node that lists it, and the connection
string is written into that node. -/
theorem commands_routed_outpost :
    ∃ s log p, Config.parse outpostText "default" = .ok s.config ∧
      Run (Step (.still 0 sampleAnswer)) (commissions s {} [.process outpost]) log p ∧
      requests log =
        [⟨"da-9", "da", "east", .peerInfo⟩, ⟨"da-9", "da", "east", .nodeIp⟩,
          ⟨"consensus-1", "consensus-setup", "east", .writeConnections sampleAddress⟩] ∧
      ∀ i e, (i, e) ∈ log → ∃ v, [Commission.process outpost][i]? = some v ∧
        ∀ request ∈ e.requests, v.Routes s.config request := by
  have hread : (Config.parse outpostText "default").toOption =
      some ⟨[{ peers := [outpost] }]⟩ := by
    decide +kernel
  have hparse : Config.parse outpostText "default" = .ok ⟨[{ peers := [outpost] }]⟩ := by
    cases hresult : Config.parse outpostText "default" with
    | error e => exact absurd (hresult ▸ hread) (by simp [Except.toOption])
    | ok c =>
      rw [hresult] at hread
      exact congrArg Except.ok (Option.some.inj hread)
  have hfinish : ∃ x ∈ finishAll? 0 sampleAnswer [0]
      (commissions { config := ⟨[{ peers := [outpost] }]⟩ } {} [.process outpost]),
      requests x.1 =
        [⟨"da-9", "da", "east", .peerInfo⟩, ⟨"da-9", "da", "east", .nodeIp⟩,
          ⟨"consensus-1", "consensus-setup", "east", .writeConnections sampleAddress⟩] := by
    decide +kernel
  obtain ⟨⟨log, p⟩, hx, hrequests⟩ := hfinish
  have hrun : Run (Step (.still 0 sampleAnswer))
      (commissions { config := ⟨[{ peers := [outpost] }]⟩ } {} [.process outpost]) log p :=
    (finishAll?_run (w := .still 0 sampleAnswer) rfl (fun _ => rfl) hx).mono .turn
  refine ⟨_, log, p, hparse, hrun, hrequests, commands_routed hparse ?_ hrun⟩
  simp [Commission.peer, Config.peers]

end Pool

end Rendezvous
