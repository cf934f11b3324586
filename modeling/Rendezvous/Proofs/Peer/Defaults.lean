import Mathlib.Data.List.Forall2
import Rendezvous.Peer.Document
import Rendezvous.Proofs.Peer.Validation
import Rendezvous.Workload.Request

/-!
# What defaults leave alone

Defaults stand for the empty container names and the empty namespaces of peers, and for nothing else.
So they can be filled in once only, and neither a search for a name nor validation notices whether
they have been. Once they are filled in, every request for a peer says where it is to be run.
-/

namespace Rendezvous

/-! ## Texts -/

/-- A text, or the one that stands for it if it is empty. -/
structure StandsFor (fallback s t : String) : Prop where
  /-- A text that is not empty stays what it is. -/
  kept : s ≠ "" → t = s
  /-- An empty text is replaced. -/
  filled : s = "" → t = fallback

namespace Peer

variable {s fallback fallback' : String}

theorem orElse_of_ne (h : s ≠ "") : orElse s fallback = s :=
  if_neg (by simpa using h)

@[simp]
theorem orElse_empty : orElse "" fallback = fallback := rfl

theorem standsFor_orElse : StandsFor fallback s (orElse s fallback) :=
  ⟨orElse_of_ne, fun h => h ▸ orElse_empty⟩

theorem orElse_ne (h : fallback ≠ "") : orElse s fallback ≠ "" := by
  by_cases hs : s = ""
  · simpa [hs] using h
  · rwa [orElse_of_ne hs]

theorem orElse_self : orElse s s = s :=
  ite_self s

/-- A text that stands for an empty one is not replaced again. -/
theorem orElse_orElse (h : fallback ≠ "" ∨ fallback' = fallback) :
    orElse (orElse s fallback) fallback' = orElse s fallback := by
  obtain hne | rfl := h
  · exact orElse_of_ne (orElse_ne hne)
  -- the text that stands for an empty one may be empty itself
  · by_cases hs : s = ""
    · rw [hs, orElse_empty, orElse_self]
    · rw [orElse_of_ne hs, orElse_of_ne hs]

end Peer

theorem NodeType.container_ne (t : NodeType) : t.container ≠ "" := by
  cases t <;> decide

theorem NodeType.setupContainer_ne (t : NodeType) : t.setupContainer ≠ "" := by
  cases t <;> decide

/-! ## Peers, groups and configurations with their defaults -/

/-- `q` is the peer `p` with its defaults. -/
structure Peer.FilledIn (space : String) (p q : Peer) : Prop where
  /-- The container is that of the node type unless there is one. -/
  container : StandsFor p.nodeType.container p.container q.container
  /-- The container for the setup is that of the node type unless there is one. -/
  setupContainer : StandsFor p.nodeType.setupContainer p.setupContainer q.setupContainer
  /-- The namespace is the given one unless there is one. -/
  space : StandsFor space p.space q.space
  /-- Nothing else is different. -/
  others :
    { q with container := p.container, setupContainer := p.setupContainer, space := p.space } = p

/-- `g'` is the group `g` with the defaults of its members. -/
structure PeerGroup.FilledIn (space : String) (g g' : PeerGroup) : Prop where
  /-- The members are the same ones in the same order, with their defaults. -/
  peers : List.Forall₂ (Peer.FilledIn space) g.peers g'.peers
  /-- Nothing else is different. -/
  others : { g' with peers := g.peers } = g

/-- `c'` is the configuration `c` with the defaults of all peers. -/
structure Config.FilledIn (space : String) (c c' : Config) : Prop where
  /-- The groups are the same ones in the same order, with the defaults of their members. -/
  groups : List.Forall₂ (PeerGroup.FilledIn space) c.groups c'.groups

section FilledIn

variable (space : String)

theorem Peer.filledIn_withDefaults (p : Peer) : p.FilledIn space (p.withDefaults space) where
  container := standsFor_orElse
  setupContainer := standsFor_orElse
  space := standsFor_orElse
  others := rfl

theorem PeerGroup.filledIn_withDefaults (g : PeerGroup) :
    g.FilledIn space (g.withDefaults space) where
  peers := List.forall₂_map_right_iff.2
    (List.forall₂_same.2 fun p _ => p.filledIn_withDefaults space)
  others := rfl

theorem Config.filledIn_withDefaults (c : Config) : c.FilledIn space (c.withDefaults space) where
  groups := List.forall₂_map_right_iff.2
    (List.forall₂_same.2 fun g _ => g.filledIn_withDefaults space)

end FilledIn

/-! ## Filling in twice -/

section Twice

variable {space space' : String} (h : space ≠ "" ∨ space' = space)

include h

theorem Peer.withDefaults_withDefaults (p : Peer) :
    (p.withDefaults space).withDefaults space' = p.withDefaults space := by
  simp only [withDefaults, orElse_orElse h, orElse_orElse (.inl p.nodeType.container_ne),
    orElse_orElse (.inl p.nodeType.setupContainer_ne)]

theorem PeerGroup.withDefaults_withDefaults (g : PeerGroup) :
    (g.withDefaults space).withDefaults space' = g.withDefaults space := by
  simp only [withDefaults, List.map_map, Function.comp_def, Peer.withDefaults_withDefaults h]

theorem Config.withDefaults_withDefaults (c : Config) :
    (c.withDefaults space).withDefaults space' = c.withDefaults space := by
  simp only [withDefaults, List.map_map, Function.comp_def, PeerGroup.withDefaults_withDefaults h]

end Twice

/-! ## Searching and validating -/

theorem PeerGroup.contains_withDefaults (g : PeerGroup) (space node : String) :
    (g.withDefaults space).contains node = g.contains node :=
  List.any_map

namespace Config

variable (c : Config) (space : String)

theorem peers_withDefaults : (c.withDefaults space).peers = c.peers.map (·.withDefaults space) := by
  rw [peers, peers, List.map_flatMap, withDefaults, List.flatMap_map]
  rfl

theorem find?_withDefaults (node : String) :
    (c.withDefaults space).find? node = (c.find? node).map (·.withDefaults space) := by
  rw [find?, find?, peers_withDefaults, List.find?_map]
  rfl

theorem groupOf?_withDefaults (node : String) :
    (c.withDefaults space).groupOf? node = (c.groupOf? node).map (·.withDefaults space) := by
  rw [groupOf?, groupOf?, withDefaults, List.find?_map]
  simp only [Function.comp_def, PeerGroup.contains_withDefaults]

theorem faultAfter?_withDefaults (seen : List String) (ps : List Peer) :
    faultAfter? seen (ps.map (·.withDefaults space)) = faultAfter? seen ps := by
  induction ps generalizing seen with
  | nil => rfl
  | cons p ps ih =>
    -- names, dependencies and DNS names are all that the rules are about
    have hfault : (p.withDefaults space).fault? = p.fault? := rfl
    have hname : (p.withDefaults space).nodeName = p.nodeName := rfl
    rw [List.map_cons, faultAfter?, faultAfter?, hfault, hname, ih]

theorem fault?_withDefaults : (c.withDefaults space).fault? = c.fault? := by
  rw [fault?, fault?, peers_withDefaults, faultAfter?_withDefaults]

end Config

/-! ## Requests -/

/-- Every request for a peer names a namespace and a container. -/
def Peer.IsAddressed (p : Peer) : Prop :=
  ∀ command, ∀ r ∈ [Request.main p command, Request.setup p command],
    r.space ≠ "" ∧ r.container ≠ ""

theorem Peer.isAddressed_withDefaults {space : String} (h : space ≠ "") (p : Peer) :
    (p.withDefaults space).IsAddressed := by
  intro command r hr
  obtain rfl | rfl : r = _ ∨ r = _ := by simpa using hr
  · exact ⟨orElse_ne h, orElse_ne p.nodeType.container_ne⟩
  · exact ⟨orElse_ne h, orElse_ne p.nodeType.setupContainer_ne⟩

namespace Config

/-- A configuration that was accepted has its defaults, and is valid. -/
theorem accept_eq_ok {c c' : Config} {space : String} (h : c.accept space = .ok c') :
    c.withDefaults space = c' ∧ c'.validate = .ok () := by
  unfold accept at h
  cases hfault : (c.withDefaults space).fault? with
  | some e => simp [hfault] at h
  | none =>
    obtain rfl : c.withDefaults space = c' := by simpa [hfault] using h
    exact ⟨rfl, by rw [validate, hfault]⟩

/-- A configuration that was read from a text has its defaults, and is valid. -/
theorem parse_eq_ok {text space : String} {c : Config} (h : parse text space = .ok c) :
    ∃ c₀ : Config, c₀.withDefaults space = c ∧ c.validate = .ok () := by
  unfold parse at h
  split at h
  · exact ⟨_, accept_eq_ok h⟩
  · exact absurd h nofun

/-- Filling in the defaults of a configuration changes what is empty, and nothing that depends on
anything else. -/
structure Conserved (space : String) (c : Config) : Prop where
  /-- Only empty containers and namespaces are filled in. -/
  filled : c.FilledIn space (c.withDefaults space)
  /-- Once is enough. -/
  again : (c.withDefaults space).withDefaults space = c.withDefaults space
  /-- Once a namespace is filled in, no other one is. -/
  settled : space ≠ "" →
    ∀ space', (c.withDefaults space).withDefaults space' = c.withDefaults space
  /-- A name finds the same peer as before. -/
  find? : ∀ node, (c.withDefaults space).find? node = (c.find? node).map (·.withDefaults space)
  /-- A name finds the same group as before. -/
  groupOf? : ∀ node,
    (c.withDefaults space).groupOf? node = (c.groupOf? node).map (·.withDefaults space)
  /-- The rules are kept or broken as before. -/
  validate : (c.withDefaults space).validate = c.validate

/-- Defaults change nothing but what is empty. A configuration that is read from a text gets them, and
is valid, so every request for one of its peers says where it is to be run. -/
theorem withDefaults_conservative (space : String) :
    (∀ c : Config, c.Conserved space) ∧
      ∀ text c, parse text space = .ok c →
        c.validate = .ok () ∧ (space ≠ "" → ∀ p ∈ c.peers, p.IsAddressed) := by
  constructor
  · intro c
    exact {
      filled := c.filledIn_withDefaults space
      again := c.withDefaults_withDefaults (.inr rfl)
      settled := fun hspace space' => c.withDefaults_withDefaults (.inl hspace)
      find? := c.find?_withDefaults space
      groupOf? := c.groupOf?_withDefaults space
      validate := by rw [Config.validate, Config.validate, fault?_withDefaults] }
  · intro text c hparse
    obtain ⟨c₀, rfl, hvalid⟩ := parse_eq_ok hparse
    refine ⟨hvalid, fun hspace p hp => ?_⟩
    rw [peers_withDefaults] at hp
    obtain ⟨p₀, -, rfl⟩ := List.mem_map.1 hp
    exact p₀.isAddressed_withDefaults hspace

/-- The node of a short document can be asked for its address. -/
theorem withDefaults_conservative_parse :
    ∃ c, parse "mutualPeers:\n- peers:\n  - nodeName: da-1\n" "ns" = .ok c ∧
      (∃ p ∈ c.peers, p.nodeName = "da-1") ∧ ∀ p ∈ c.peers, p.IsAddressed := by
  have hnames : (parse "mutualPeers:\n- peers:\n  - nodeName: da-1\n" "ns").toOption.map
      (·.peers.map Peer.nodeName) = some ["da-1"] := by decide +kernel
  cases hparse : parse "mutualPeers:\n- peers:\n  - nodeName: da-1\n" "ns" with
  | error e =>
    rw [hparse] at hnames
    exact absurd hnames (by simp [Except.toOption])
  | ok c =>
    rw [hparse] at hnames
    have hname : c.peers.map Peer.nodeName = ["da-1"] := Option.some.inj hnames
    exact ⟨c, rfl, List.mem_map.1 (hname ▸ List.mem_cons_self),
      ((withDefaults_conservative "ns").2 _ c hparse).2 (by decide)⟩

end Config

end Rendezvous
