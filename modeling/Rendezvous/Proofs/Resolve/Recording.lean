import Rendezvous.Proofs.Resolve.Discipline
import Rendezvous.Proofs.Resolve.Probes

/-!
# What is recorded

What a call leaves recorded of each node, while each node answers probes in one way. A dependency that
is not recorded yet is recorded as its dependent sees it, a node that is resolved as it makes itself
known, and what is recorded stays as it is.
-/

namespace Rendezvous

/-- The DNS name that stands for the host of a dependency, at the first place where it is listed. -/
def Peer.pin? (p : Peer) (node : String) : Option String :=
  p.dnsFor? (p.connectsTo.idxOf node)

namespace Memory

/-- Of two memories, the later one has the same record of a node, or a first one, which is the address
of the node by that DNS name. -/
def Gains (P : Probes) (m m' : Memory) (node : String) (dns : Option String) : Prop :=
  m'.recorded? node = m.recorded? node ∨
    m.recorded? node = none ∧ ∃ a, P.address node dns = .ok a ∧ m'.recorded? node = some a.text

variable {w : World} {P : Probes} {c : Config} {m m' : Memory} {node : String} {dns : Option String}

/-- What looking for a dependency leaves behind. -/
structure Sought (w : World) (P : Probes) (c : Config) (m : Memory) (node : String)
    (dns : Option String) (result : Except ResolveError MultiAddress) (m' : Memory) : Prop where
  steady : m'.Steady w P c
  others : ∀ other, other ≠ node → m'.recorded? other = m.recorded? other
  gains : m.Gains P m' node dns
  found : ∀ a, result = .ok a → m'.recorded? node ≠ none

theorem Sought.error {e : ResolveError} (hm : m'.Steady w P c) (hcache : m'.cache = m.cache) :
    m.Sought w P c node dns (.error e) m' where
  steady := hm
  others other _ := recorded?_congr hcache other
  gains := Or.inl (recorded?_congr hcache node)
  found _ h := absurd h (by simp)

theorem Sought.known {result : Except ResolveError MultiAddress} (hm : m.Steady w P c)
    (hsome : m.recorded? node ≠ none) : m.Sought w P c node dns result m where
  steady := hm
  others _ _ := rfl
  gains := Or.inl rfl
  found _ _ := hsome

end Memory

namespace Resolve

open Routine Attempt

variable {w : World} {P : Probes} {s : Settings} {c : Config} {m : Memory}

theorem ensures_register (hm : m.Steady w P c) (node address space : String) :
    Ensures w.surroundings (fun _ m' => m'.Steady w P c ∧ m'.cache = m.cache) m
      (consult (.register node address space)) := by
  refine ensures_ask_memory fun now u m' _ h => ?_
  obtain ⟨-, rfl⟩ := Prod.mk.inj (Option.some.inj h)
  exact ⟨hm.register address space, rfl⟩

/-- Storing an address records it, and nothing else. -/
theorem ensures_store (hw : w.Steady P s.lifetime) (hm : m.Steady w P c) (p : Peer)
    (a : MultiAddress) :
    Ensures w.surroundings (fun _ m' => m'.Steady w P c ∧
      ∀ node, m'.recorded? node = if node = p.nodeName then some a.text else m.recorded? node) m
      (store s p a) := by
  unfold store
  refine ensures_bind.2 (ensures_ask_memory fun now u m₁ hnow hset => ?_)
  simp only [Memory.consult, hm.set, Bool.false_eq_true, if_false, Option.map_eq_some_iff,
    Prod.mk.injEq] at hset
  obtain ⟨cache, hcache, -, rfl⟩ := hset
  obtain ⟨expiry, hexpiry, rfl⟩ := Option.map_eq_some_iff.1 hcache
  have hlive : ∀ t, w.timely t → t < expiry := by
    intro t ht
    rw [Instant.after?_eq_some hexpiry]
    exact hw.span now t hnow ht
  refine (ensures_register (hm.put a hlive) p.nodeName a.text p.space).mono ?_
  rintro u m₂ ⟨hm₂, hsame⟩
  refine ⟨hm₂, fun node => ?_⟩
  rw [Memory.recorded?_congr hsame, Memory.recorded?_put]

/-- A dependency that is probed is recorded as its dependent sees it. -/
theorem ensures_probeDependency (hw : w.Steady P s.lifetime) (hm : m.Steady w P c) (p : Peer)
    (dns : Option String) (hnone : m.recorded? p.nodeName = none) :
    Ensures w.surroundings (m.Sought w P c p.nodeName dns) m (probeDependency s p dns).run := by
  refine ensures_addressed hw hm (fun _ => ensures_hostOf hw p dns) ?_ ?_
  · intro e m' _ hm' hcache
    exact .error hm' hcache
  · intro a m₁ haddress hm₁ hcache
    refine ensures_run_bind.2 (ensures_run_lift.2 ((ensures_store hw hm₁ p a).mono ?_))
    rintro u m₂ ⟨hm₂, hrecorded⟩
    have hself : m₂.recorded? p.nodeName = some a.text := by rw [hrecorded, if_pos rfl]
    refine ensures_run_pure.2 ⟨hm₂, ?_, Or.inr ⟨hnone, a, haddress, hself⟩, ?_⟩
    · intro node hnode
      rw [hrecorded, if_neg hnode, Memory.recorded?_congr hcache]
    · intro a' _
      rw [hself]
      simp

/-- A dependency is looked for in the cache, and probed if it is not there. -/
theorem ensures_dependencyAddress (hw : w.Steady P s.lifetime) (hm : m.Steady w P c) (p : Peer)
    (dns : Option String) :
    Ensures w.surroundings (m.Sought w P c p.nodeName dns) m (dependencyAddress s p dns).run := by
  have hknown : ∀ {known : Option MultiAddress} {a : MultiAddress},
      (∀ known', Except.ok (ε := ResolveError) known = .ok known' →
        (known' = none ↔ m.recorded? p.nodeName = none)) →
      known = some a → m.recorded? p.nodeName ≠ none := by
    rintro known a hiff rfl hnone
    exact absurd ((hiff _ rfl).2 hnone) (by simp)
  unfold dependencyAddress
  refine ensures_run_bind.2 ((ensures_cachedAddress hw hm p dns).mono ?_)
  rintro result m₁ ⟨rfl, hiff⟩
  cases result with
  | error e => exact .error hm rfl
  | ok known =>
    cases known with
    | some a => exact ensures_run_pure.2 (.known hm (hknown hiff rfl))
    | none =>
      have hnone := (hiff none rfl).1 rfl
      refine ensures_locked.2 ⟨trivial, ?_⟩
      rintro m₂ rfl
      have hrelease : ∀ {result : Except ResolveError MultiAddress} {m₃ : Memory},
          m₂.Sought w P c p.nodeName dns result m₃ →
          w.surroundings.allows m₃ (.release p.nodeName) ∧
          ∀ m₄, w.surroundings.answers m₃ (.release p.nodeName) () m₄ →
            m₂.Sought w P c p.nodeName dns result m₄ := by
        intro result m₃ hsought
        refine ⟨trivial, ?_⟩
        rintro m₄ rfl
        exact hsought
      refine ensures_run_bind.2 ((ensures_cachedAddress hw hm p dns).mono ?_)
      rintro result m₃ ⟨rfl, hiff'⟩
      cases result with
      | error e => exact hrelease (.error hm rfl)
      | ok known =>
        cases known with
        | some a => exact ensures_run_pure.2 (hrelease (.known hm (hknown hiff' rfl)))
        | none => exact (ensures_probeDependency hw hm p dns hnone).mono fun _ _ => hrelease

end Resolve

/-! ## Dependencies in their order -/

namespace Memory

variable {w : World} {P : Probes} {c : Config} {m m' m₁ : Memory} {p : Peer} {i : Nat}
  {entry : String} {entries : List String}

/-- Between two memories nothing was recorded but dependencies, each as it is seen from the first place
at which it stands in the list, which begins at position `i`. -/
def Learned (P : Probes) (p : Peer) (i : Nat) (entries : List String) (m m' : Memory) : Prop :=
  ∀ node, m'.recorded? node = m.recorded? node ∨
    node ∈ entries ∧ isLiteralAddress node = false ∧
      m.Gains P m' node (p.dnsFor? (i + entries.idxOf node))

theorem Learned.refl (P : Probes) (p : Peer) (i : Nat) (entries : List String) (m : Memory) :
    m.Learned P p i entries m :=
  fun _ => Or.inl rfl

theorem Learned.cons_of_literal (hliteral : isLiteralAddress entry = true)
    (h : m.Learned P p (i + 1) entries m') : m.Learned P p i (entry :: entries) m' := by
  intro node
  rcases h node with hsame | ⟨hmem, hname, hgains⟩
  · exact Or.inl hsame
  · have hne : entry ≠ node := by
      rintro rfl
      rw [hliteral] at hname
      exact absurd hname (by simp)
    rw [List.idxOf_cons_ne entries hne, Nat.succ_eq_add_one, Nat.add_comm _ 1, ← Nat.add_assoc]
    exact Or.inr ⟨List.mem_cons_of_mem _ hmem, hname, hgains⟩

theorem Learned.of_sought {result : Except ResolveError MultiAddress}
    (hname : isLiteralAddress entry = false)
    (h : m.Sought w P c entry (p.dnsFor? i) result m') : m.Learned P p i (entry :: entries) m' := by
  intro node
  by_cases hnode : node = entry
  · subst hnode
    rw [List.idxOf_cons_self]
    exact Or.inr ⟨List.mem_cons_self, hname, h.gains⟩
  · exact Or.inl (h.others node hnode)

/-- Once a dependency is recorded, the later ones do not touch its record. -/
theorem Learned.cons_of_sought {a : MultiAddress} (hname : isLiteralAddress entry = false)
    (hfirst : m.Sought w P c entry (p.dnsFor? i) (.ok a) m₁)
    (hrest : m₁.Learned P p (i + 1) entries m') : m.Learned P p i (entry :: entries) m' := by
  intro node
  by_cases hnode : node = entry
  · subst hnode
    -- It may be listed again, but is then found.
    have hsame : m'.recorded? node = m₁.recorded? node := by
      rcases hrest node with hsame | ⟨-, -, hsame | ⟨hnone, -⟩⟩
      · exact hsame
      · exact hsame
      · exact absurd hnone (hfirst.found a rfl)
    rw [List.idxOf_cons_self]
    refine Or.inr ⟨List.mem_cons_self, hname, ?_⟩
    unfold Gains
    rw [hsame]
    exact hfirst.gains
  · have hfirst' := hfirst.others node hnode
    rcases hrest node with hsame | ⟨hmem, hname', hgains⟩
    · exact Or.inl (hsame.trans hfirst')
    · rw [List.idxOf_cons_ne entries (Ne.symm hnode), Nat.succ_eq_add_one, Nat.add_comm _ 1,
        ← Nat.add_assoc]
      unfold Gains at hgains ⊢
      rw [hfirst'] at hgains
      exact Or.inr ⟨List.mem_cons_of_mem _ hmem, hname', hgains⟩

/-- Between two memories nothing was recorded but dependencies of a peer, as the peer sees them. -/
def Taught (P : Probes) (p : Peer) (m m' : Memory) : Prop :=
  ∀ node, m'.recorded? node = m.recorded? node ∨ p.Lists node ∧ m.Gains P m' node (p.pin? node)

theorem Taught.of_cache (h : m'.cache = m.cache) : m.Taught P p m' :=
  fun node => Or.inl (recorded?_congr h node)

end Memory

namespace Resolve

open Routine Attempt

variable {w : World} {P : Probes} {s : Settings} {c : Config} {m : Memory}

theorem ensures_assembleFrom (hw : w.Steady P s.lifetime) (hm : m.Steady w P c) (p : Peer) (i : Nat)
    (entries : List String) (connections : Connections) :
    Ensures w.surroundings (fun _ m' => m'.Steady w P c ∧ m.Learned P p i entries m') m
      (assembleFrom s p i entries connections).run := by
  induction entries generalizing i connections m with
  | nil => exact ensures_run_pure.2 ⟨hm, .refl P p i [] m⟩
  | cons entry entries ih =>
    unfold assembleFrom segment
    refine ensures_run_bind.2 ?_
    by_cases hliteral : isLiteralAddress entry = true
    · rw [if_pos hliteral]
      refine ensures_ofFormat.2 ?_
      cases MultiAddress.parse entry with
      | error e => exact ⟨hm, .refl P p i _ m⟩
      | ok address =>
        refine ensures_run_bind.2 (ensures_ofFormat.2 ?_)
        cases connections.push address.text with
        | error e => exact ⟨hm, .refl P p i _ m⟩
        | ok connections =>
          refine (ih hm (i + 1) connections).mono ?_
          rintro result m' ⟨hm', hlearned⟩
          exact ⟨hm', hlearned.cons_of_literal hliteral⟩
    · have hname : isLiteralAddress entry = false := by simpa using hliteral
      rw [if_neg hliteral]
      refine (ensures_dependencyAddress hw hm (dependency s entry p) (p.dnsFor? i)).mono ?_
      rintro result m₁ hsought
      rw [dependency_nodeName] at hsought
      cases result with
      | error e => exact ⟨hsought.steady, .of_sought hname hsought⟩
      | ok address =>
        refine ensures_run_bind.2 (ensures_ofFormat.2 ?_)
        cases connections.push address.text with
        | error e => exact ⟨hsought.steady, .of_sought hname hsought⟩
        | ok connections =>
          refine (ih hsought.steady (i + 1) connections).mono ?_
          rintro result m' ⟨hm', hlearned⟩
          exact ⟨hm', hlearned.cons_of_sought hname hsought⟩

/-- Running a command on a node leaves the memory alone. -/
theorem ensures_execute_memory {request : Request} {Q : Except ResolveError String → Memory → Prop}
    (h : ∀ result, Q result m) : Ensures w.surroundings Q m (execute request).run := by
  refine ensures_execute.2 ⟨trivial, ?_⟩
  rintro answer m' ⟨-, rfl⟩
  exact h _

theorem ensures_connect (hw : w.Steady P s.lifetime) (hm : m.Steady w P c) (p : Peer) :
    Ensures w.surroundings (fun _ m' => m'.Steady w P c ∧ m.Taught P p m') m (connect s p).run := by
  unfold connect
  cases hlist : p.connectsTo with
  | nil => exact ensures_run_pure.2 ⟨hm, .of_cache rfl⟩
  | cons dependency rest =>
    dsimp only
    by_cases henv : p.connectsAsEnvVar = true
    · rw [if_pos henv]
      refine ensures_run_bind.2 (ensures_execute_memory fun result => ?_)
      cases result with
      | error e => exact ⟨hm, .of_cache rfl⟩
      | ok output => exact ensures_run_pure.2 ⟨hm, .of_cache rfl⟩
    · rw [if_neg henv]
      refine ensures_run_bind.2 ((ensures_assembleFrom hw hm p 0 p.connectsTo .empty).mono ?_)
      rintro result m' ⟨hm', hlearned⟩
      have htaught : m.Taught P p m' := by
        intro node
        rcases hlearned node with hsame | ⟨hmem, hname, hgains⟩
        · exact Or.inl hsame
        · rw [Nat.zero_add] at hgains
          exact Or.inr ⟨⟨by simpa using henv, hmem, hname⟩, hgains⟩
      cases result with
      | error e => exact ⟨hm', htaught⟩
      | ok connections =>
        refine ensures_run_bind.2 (ensures_execute_memory fun result => ?_)
        cases result with
        | error e => exact ⟨hm', htaught⟩
        | ok output => exact ensures_run_pure.2 ⟨hm', htaught⟩

end Resolve

/-! ## Whole calls -/

/-- What resolving a peer that is not recorded leaves behind. -/
structure Memory.Resolved (w : World) (P : Probes) (c : Config) (m : Memory) (p : Peer)
    (result : Except ResolveError Resolution) (m' : Memory) : Prop where
  steady : m'.Steady w P c
  others : ∀ node, node ≠ p.nodeName →
    m'.recorded? node = m.recorded? node ∨ p.Lists node ∧ m.Gains P m' node (p.pin? node)
  failed : ∀ e, result = .error e → m.Taught P p m'
  advertised : ∀ res, result = .ok res → p.nodeType.advertises = true →
    ∃ a connections, P.address p.nodeName p.ownDns? = .ok a ∧
      res = ⟨p.nodeName, some a.text, connections, false⟩ ∧ m'.recorded? p.nodeName = some a.text

theorem Memory.Resolved.error {w : World} {P : Probes} {c : Config} {m m' : Memory} {p : Peer}
    {e : ResolveError} (hm' : m'.Steady w P c) (h : m.Taught P p m') :
    m.Resolved w P c p (.error e) m' where
  steady := hm'
  others node _ := h node
  failed _ _ := h
  advertised _ hres := absurd hres (by simp)

namespace Resolve

open Routine Attempt

variable {w : World} {P : Probes} {s : Settings} {c : Config} {m : Memory}

/-- A peer that makes itself known is recorded by its own address once all has gone well. -/
theorem ensures_resolveAnew (hw : w.Steady P s.lifetime) (hm : m.Steady w P c)
    (hvalid : c.validate = .ok ()) {p : Peer} (hp : p ∈ c.peers)
    (hnone : m.recorded? p.nodeName = none) :
    Ensures w.surroundings (m.Resolved w P c p) m (resolveAnew s p).run := by
  unfold resolveAnew
  by_cases hown : p.nodeType.advertises = true
  · rw [if_pos hown]
    refine ensures_run_bind.2 (ensures_run_map.2 ((ensures_ownAddress hw hm hvalid hp hnone).mono ?_))
    rintro result m₁ ⟨rfl, hm₁, hcache⟩
    cases haddress : P.address p.nodeName p.ownDns? with
    | error e => exact .error hm₁ (.of_cache hcache)
    | ok a =>
      refine ensures_run_bind.2 ((ensures_connect hw hm₁ p).mono ?_)
      rintro result m₂ ⟨hm₂, htaught⟩
      have htaught' : m.Taught P p m₂ := by
        intro node
        have hsame := Memory.recorded?_congr hcache node
        have hnode := htaught node
        unfold Memory.Gains at hnode ⊢
        rwa [hsame] at hnode
      cases result with
      | error e => exact .error hm₂ htaught'
      | ok connections =>
        refine ensures_run_bind.2 (ensures_run_lift.2 ((ensures_store hw hm₂ p a).mono ?_))
        rintro u m₃ ⟨hm₃, hrecorded⟩
        refine ensures_run_bind.2 (ensures_run_lift.2 (ensures_ask_memory ?_))
        intro now u m₄ _ hdrop
        obtain ⟨-, rfl⟩ := Prod.mk.inj (Option.some.inj hdrop)
        refine ensures_run_pure.2 ⟨hm₃.dropAddress, ?_, ?_, ?_⟩
        · intro node hnode
          have hkeep : m₃.recorded? node = m₂.recorded? node := by rw [hrecorded, if_neg hnode]
          have hnode' := htaught' node
          unfold Memory.Gains at hnode' ⊢
          rw [← hkeep] at hnode'
          exact hnode'
        · intro e h
          exact absurd h (by simp)
        · intro res hres _
          refine ⟨a, connections, haddress, (Except.ok.inj hres).symm, ?_⟩
          have hself : m₃.recorded? p.nodeName = some a.text := by rw [hrecorded, if_pos rfl]
          exact hself
  · rw [if_neg hown]
    refine ensures_run_bind.2 (ensures_run_pure.2 ?_)
    refine ensures_run_bind.2 ((ensures_connect hw hm p).mono ?_)
    rintro result m₁ ⟨hm₁, htaught⟩
    cases result with
    | error e => exact .error hm₁ htaught
    | ok connections =>
      refine ensures_run_pure.2 ⟨hm₁, fun node _ => htaught node, fun _ _ => htaught, ?_⟩
      intro res _ hadvertises
      exact absurd hadvertises hown

/-- Resolving a peer comes to its record if there is one, which changes no record. -/
theorem ensures_resolve (hw : w.Steady P s.lifetime) (hm : m.Steady w P c)
    (hvalid : c.validate = .ok ()) {p : Peer} (hp : p ∈ c.peers) :
    Ensures w.surroundings (fun result m' =>
      (m.recorded? p.nodeName = none ∧ m.Resolved w P c p result m') ∨
      ∃ value, m.recorded? p.nodeName = some value ∧ result = .ok ⟨p.nodeName, some value, none, true⟩ ∧
        m'.Steady w P c ∧ m'.cache = m.cache) m (resolve s p).run := by
  unfold resolve
  refine ensures_run_bind.2 (ensures_run_lift.2 ((ensures_lookup hm p.nodeName).mono ?_))
  rintro known m₁ ⟨rfl, rfl⟩
  cases hrecorded : m₁.recorded? p.nodeName with
  | none =>
    refine (ensures_resolveAnew hw hm hvalid hp hrecorded).mono fun result m' h => ?_
    exact Or.inl ⟨rfl, h⟩
  | some value =>
    refine ensures_run_bind.2 (ensures_run_lift.2 ((ensures_register hm _ _ _).mono ?_))
    rintro u m₂ ⟨hm₂, hcache⟩
    exact ensures_run_pure.2 (Or.inr ⟨value, rfl, rfl, hm₂, hcache⟩)

end Resolve

end Rendezvous
