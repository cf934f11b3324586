import Rendezvous.Proofs.Address.Hosts
import Rendezvous.Proofs.Peer.Validation
import Rendezvous.Proofs.Pool.Alone
import Rendezvous.Proofs.Resolve.Attempts

/-!
# What probing comes to

While each node has one answer to each probe, what is found out about a node does not depend on when
it is found out, or on what has been noted before.
-/

namespace Rendezvous

/-- What the nodes answer when they are asked for their identifiers and IP addresses. -/
structure Probes where
  /-- The answer of a node that is asked for its identifier. -/
  ids : String → Except ExecError String
  /-- The answer of a node that is asked for its IP address. -/
  ips : String → Except ExecError String

namespace Probes

/-- What is read from the answer of a node. -/
def reading {α : Type} (node : String) (answer : Except ExecError String)
    (read : String → Except FormatError α) : Except ResolveError α :=
  match answer with
  | .error e => .error (.execution node e)
  | .ok output =>
    if (Text.trim output).isEmpty then .error (.emptyIdentity node)
    else (read output).mapError (.format node)

variable (P : Probes) (node : String)

/-- The identifier of a node. -/
def id : Except ResolveError String :=
  reading node (P.ids node) fun output => truncatePeerId (Text.trim output) peerIdLength

/-- The IP address of a node. -/
def ip : Except ResolveError Host := reading node (P.ips node) Host.parseIp

/-- The host of a node, for which a DNS name may stand. -/
def host : Option String → Except ResolveError Host
  | some dns => .ok (.dns dns)
  | none => P.ip node

/-- The address of a node, for whose host a DNS name may stand. -/
def address (dns : Option String) : Except ResolveError MultiAddress := do
  let id ← P.id node
  let host ← P.host node dns
  (MultiAddress.ofHost host id).mapError (.format node)

variable {P} {node}
variable {dns dns' : Option String} {value : String}

theorem address_of_id_error {e : ResolveError} (h : P.id node = .error e) :
    P.address node dns = .error e := by
  simp [address, h, bind, Except.bind]

theorem address_of_host_error {id : String} {e : ResolveError} (hid : P.id node = .ok id)
    (h : P.host node dns = .error e) : P.address node dns = .error e := by
  simp [address, hid, h, bind, Except.bind]

theorem address_of_host {id : String} {host : Host} (hid : P.id node = .ok id)
    (h : P.host node dns = .ok host) :
    P.address node dns = (MultiAddress.ofHost host id).mapError (.format node) := by
  simp [address, hid, h, bind, Except.bind]

/-! ## What an address tells -/

theorem mapError_eq_ok {α ε ε' : Type} {x : Except ε α} {f : ε → ε'} {a : α} :
    x.mapError f = .ok a ↔ x = .ok a := by
  cases x <;> simp [Except.mapError]

theorem exists_of_reading {α : Type} {answer : Except ExecError String}
    {read : String → Except FormatError α} {a : α} (h : reading node answer read = .ok a) :
    ∃ output, answer = .ok output ∧ (Text.trim output).isEmpty = false ∧ read output = .ok a := by
  unfold reading at h
  split at h
  · exact absurd h (by simp)
  · rename_i output
    split at h
    · exact absurd h (by simp)
    · rename_i hempty
      exact ⟨output, rfl, by simpa using hempty, mapError_eq_ok.1 h⟩

/-- A probed identifier is not all blank. -/
theorem not_blank_of_id {id : String} (h : P.id node = .ok id) :
    ∃ c ∈ id.toList, Text.isBlank c = false := by
  obtain ⟨output, -, hempty, hcut⟩ := exists_of_reading h
  exact not_blank_of_truncatePeerId hempty hcut

/-- A probed host is an IP address. -/
theorem exists_ip4_of_ip {host : Host} (h : P.ip node = .ok host) : ∃ ip, host = .ip4 ip := by
  obtain ⟨output, -, -, hread⟩ := exists_of_reading h
  obtain ⟨ip, -, rfl⟩ := Host.exists_ip4_of_parseIp hread
  exact ⟨ip, rfl⟩

/-- An address comes from an identifier and a host. -/
theorem exists_of_address {a : MultiAddress} (h : P.address node dns = .ok a) :
    ∃ id host, P.id node = .ok id ∧ P.host node dns = .ok host ∧
      MultiAddress.ofHost host id = .ok a := by
  cases hid : P.id node with
  | error e =>
    rw [address_of_id_error hid] at h
    exact absurd h (by simp)
  | ok id =>
    cases hhost : P.host node dns with
    | error e =>
      rw [address_of_host_error hid hhost] at h
      exact absurd h (by simp)
    | ok host =>
      rw [address_of_host hid hhost] at h
      exact ⟨id, host, rfl, rfl, mapError_eq_ok.1 h⟩

/-- A value is the address of a node, for whose host a DNS name may stand. -/
def Shows (P : Probes) (node : String) (dns : Option String) (value : String) : Prop :=
  ∃ a, P.address node dns = .ok a ∧ a.text = value

theorem shows_iff : P.Shows node dns value ↔ (P.address node dns).map MultiAddress.text = .ok value := by
  unfold Shows
  cases P.address node dns with
  | error e => simp [Except.map]
  | ok a => simp [Except.map]

instance : Decidable (P.Shows node dns value) := decidable_of_iff _ shows_iff.symm

/-- An address of a node tells what stands for its host. -/
theorem Shows.dns_eq (h : P.Shows node dns value) (h' : P.Shows node dns' value) : dns = dns' := by
  obtain ⟨a, ha, hvalue⟩ := h
  obtain ⟨a', ha', hvalue'⟩ := h'
  obtain ⟨id, host, hid, hhost, hof⟩ := exists_of_address ha
  obtain ⟨id', host', hid', hhost', hof'⟩ := exists_of_address ha'
  rw [hid] at hid'
  obtain rfl := Except.ok.inj hid'
  have hstem : host.stem = host'.stem :=
    MultiAddress.stem_of_ofHost (not_blank_of_id hid) hof hof' (hvalue.trans hvalue'.symm)
  cases dns with
  | none =>
    obtain ⟨ip, rfl⟩ := exists_ip4_of_ip hhost
    cases dns' with
    | none => rfl
    | some name' =>
      obtain rfl := Except.ok.inj hhost'
      exact absurd hstem (Host.ip4_stem_ne_dns ip name')
  | some name =>
    obtain rfl := Except.ok.inj hhost
    cases dns' with
    | none =>
      obtain ⟨ip, rfl⟩ := exists_ip4_of_ip hhost'
      exact absurd hstem.symm (Host.ip4_stem_ne_dns ip name)
    | some name' =>
      obtain rfl := Except.ok.inj hhost'
      rw [Host.dns_stem_inj hstem]

end Probes

/-- The DNS name under which a peer makes itself known, if it is in DNS. -/
def Peer.ownDns? (p : Peer) : Option String :=
  if p.dnsConnections.isEmpty then none else some (Text.dropEnding p.nodeName "-0")

/-- A world in which the nodes answer probes in one way, for a time in which no record of the given
lifetime ends. -/
structure World.Steady (w : World) (P : Probes) (lifetime : Duration) : Prop where
  id : ∀ p answer, w.brings (.main p .peerInfo) answer → answer = P.ids p.nodeName
  ip : ∀ p answer, w.brings (.main p .nodeIp) answer → answer = P.ips p.nodeName
  span : ∀ t t', w.timely t → w.timely t' → t' < t + lifetime.nanos

/-- A memory that holds only what the probes come to, in a cache that does not fail. -/
structure Memory.Steady (w : World) (P : Probes) (c : Config) (m : Memory) : Prop where
  get : m.faults.get = false
  set : m.faults.set = false
  ids : ∀ node id, m.memos.ids.get? node = some id → P.id node = .ok id
  addresses : ∀ node a, m.memos.addresses.get? node = some a →
    ∃ p ∈ c.peers, p.nodeName = node ∧ P.address node p.ownDns? = .ok a
  records : ∀ node r, m.cache.records.get? node = some r →
    (∀ t, w.timely t → t < r.expiresAt) ∧ ∃ a : MultiAddress, r.value = a.text

namespace Memory

variable {w : World} {P : Probes} {c : Config} {m m' : Memory} {node : String}

theorem steady_empty (w : World) (P : Probes) (c : Config) : Memory.Steady w P c {} where
  get := rfl
  set := rfl
  ids _ _ h := absurd h (by simp)
  addresses _ _ h := absurd h (by simp)
  records _ _ h := absurd h (by simp)

theorem Steady.noteId {id : String} (hm : m.Steady w P c) (hid : P.id node = .ok id) :
    Memory.Steady w P c { m with memos := { m.memos with ids := m.memos.ids.put node id } } where
  get := hm.get
  set := hm.set
  ids := Table.forall_put hm.ids hid
  addresses := hm.addresses
  records := hm.records

theorem Steady.noteAddress {p : Peer} {a : MultiAddress} (hm : m.Steady w P c) (hp : p ∈ c.peers)
    (ha : P.address p.nodeName p.ownDns? = .ok a) :
    Memory.Steady w P c
      { m with memos := { m.memos with addresses := m.memos.addresses.put p.nodeName a } } where
  get := hm.get
  set := hm.set
  ids := hm.ids
  addresses := Table.forall_put hm.addresses ⟨p, hp, rfl, ha⟩
  records := hm.records

theorem Steady.register (hm : m.Steady w P c) (address space : String) :
    Memory.Steady w P c { m with registry := m.registry.register node address space } where
  get := hm.get
  set := hm.set
  ids := hm.ids
  addresses := hm.addresses
  records := hm.records

theorem Steady.dropAddress (hm : m.Steady w P c) :
    Memory.Steady w P c
      { m with memos := { m.memos with addresses := m.memos.addresses.erase node } } where
  get := hm.get
  set := hm.set
  ids := hm.ids
  addresses := Table.forall_erase node hm.addresses
  records := hm.records

/-- Recording an address that lives long enough. -/
theorem Steady.put (hm : m.Steady w P c) (a : MultiAddress) {expiry : Instant}
    (hlive : ∀ t, w.timely t → t < expiry) :
    Memory.Steady w P c { m with cache := ⟨m.cache.records.put node ⟨a.text, expiry⟩⟩ } where
  get := hm.get
  set := hm.set
  ids := hm.ids
  addresses := hm.addresses
  records := Table.forall_put hm.records ⟨hlive, a, rfl⟩

/-- The recorded value of a node. -/
def recorded? (m : Memory) (node : String) : Option String :=
  (m.cache.records.get? node).map TimedValue.value

theorem recorded?_put (m : Memory) (node value : String) (expiry : Instant) (other : String) :
    recorded? { m with cache := ⟨m.cache.records.put node ⟨value, expiry⟩⟩ } other =
      if other = node then some value else m.recorded? other := by
  unfold recorded?
  rw [Table.get?_put]
  by_cases hother : other = node
  · rw [if_pos hother, if_pos hother]
    rfl
  · rw [if_neg hother, if_neg hother]

theorem recorded?_congr (h : m'.cache = m.cache) (node : String) :
    m'.recorded? node = m.recorded? node := by
  unfold recorded?
  rw [h]

/-- Every record is known, because none has ended. -/
theorem Steady.get?_eq {now : Instant} (hm : m.Steady w P c) (hnow : w.timely now) (node : String) :
    m.cache.get? now node = m.recorded? node := by
  unfold TimedCache.get? Memory.recorded?
  cases hrecord : m.cache.records.get? node with
  | none => rfl
  | some r =>
    obtain ⟨hlive, a, hvalue⟩ := hm.records node r hrecord
    have hknown : TimedCache.isKnown now r = true := by
      simp [TimedCache.isKnown, TimedCache.isLive, hlive now hnow, hvalue, a.text_ne_empty]
    simp [hknown]

end Memory

namespace Resolve

open Routine Attempt

variable {w : World} {P : Probes} {s : Settings} {c : Config} {m : Memory}

theorem ensures_ask_memory {q : Query} {Q : q.Answer → Memory → Prop}
    (h : ∀ now answer m', w.timely now → m.consult now q = some (answer, m') → Q answer m') :
    Ensures w.surroundings Q m (consult q) := by
  refine ensures_consult.2 ⟨trivial, ?_⟩
  rintro answer m' ⟨now, hnow, hm⟩
  exact h now answer m' hnow hm

/-- A record is found as long as no record ends. -/
theorem ensures_lookup (hm : m.Steady w P c) (node : String) :
    Ensures w.surroundings (fun known m' => known = m.recorded? node ∧ m' = m) m (lookup node) := by
  unfold lookup
  refine ensures_bind.2 (ensures_ask_memory fun now answer m' hnow hconsult => ?_)
  simp only [Memory.consult, hm.get, Bool.false_eq_true, if_false, Option.some.injEq,
    Prod.mk.injEq] at hconsult
  obtain ⟨rfl, rfl⟩ := hconsult
  refine ensures_pure.2 ⟨?_, rfl⟩
  rw [hm.get?_eq hnow]
  unfold Memory.recorded?
  cases hrecord : m.cache.records.get? node with
  | none => rfl
  | some r =>
    obtain ⟨-, a, hvalue⟩ := hm.records node r hrecord
    simp [knownValue, hvalue, a.text_ne_empty]

/-- A command with one answer is read in one way. -/
theorem ensures_reading {α : Type} {command : Command} {p : Peer}
    {read : String → Except FormatError α} {answer : Except ExecError String}
    (hbrings : ∀ answer', w.brings (.main p command) answer' → answer' = answer) :
    Ensures w.surroundings
      (fun result m' => result = Probes.reading p.nodeName answer read ∧ m' = m) m
      (do
        let output ← execute (.main p command)
        if (Text.trim output).isEmpty then throw (.emptyIdentity p.nodeName)
        ofFormat p.nodeName (read output) : Attempt α).run := by
  refine ensures_probe.2 ⟨trivial, ?_⟩
  rintro answer' m' ⟨hanswer, rfl⟩
  rw [hbrings answer' hanswer]
  refine ⟨?_, rfl⟩
  cases answer with
  | error e => rfl
  | ok output => rfl

theorem ensures_probeIdentity (hw : w.Steady P s.lifetime) (p : Peer) :
    Ensures w.surroundings (fun result m' => result = P.id p.nodeName ∧ m' = m) m
      (probeIdentity p).run :=
  ensures_reading (hw.id p)

theorem ensures_probeIp (hw : w.Steady P s.lifetime) (p : Peer) :
    Ensures w.surroundings (fun result m' => result = P.ip p.nodeName ∧ m' = m) m
      (probeIp p).run :=
  ensures_reading (hw.ip p)

theorem ensures_hostOf (hw : w.Steady P s.lifetime) (p : Peer) (dns : Option String) :
    Ensures w.surroundings (fun result m' => result = P.host p.nodeName dns ∧ m' = m) m
      (hostOf p dns).run := by
  cases dns with
  | some dns => exact ensures_run_pure.2 ⟨rfl, rfl⟩
  | none => exact ensures_probeIp hw p

theorem ensures_ownHost (hw : w.Steady P s.lifetime) (p : Peer) :
    Ensures w.surroundings (fun result m' => result = P.host p.nodeName p.ownDns? ∧ m' = m) m
      (ownHost p).run := by
  unfold ownHost Peer.ownDns?
  by_cases hdns : p.dnsConnections.isEmpty = true
  · rw [if_pos hdns, if_pos hdns]
    exact ensures_probeIp hw p
  · rw [if_neg hdns, if_neg hdns]
    exact ensures_run_pure.2 ⟨rfl, rfl⟩

/-- What is noted about a node is what probing it would come to. -/
theorem ensures_peerIdOf (hw : w.Steady P s.lifetime) (hm : m.Steady w P c) (p : Peer) :
    Ensures w.surroundings
      (fun result m' => result = P.id p.nodeName ∧ m'.Steady w P c ∧ m'.cache = m.cache) m
      (peerIdOf p).run := by
  unfold peerIdOf
  refine ensures_run_bind.2 (ensures_run_lift.2 (ensures_ask_memory fun now known m' _ hrecall => ?_))
  obtain ⟨rfl, rfl⟩ := Prod.mk.inj (Option.some.inj hrecall)
  cases hknown : m.memos.ids.get? p.nodeName with
  | some id => exact ensures_run_pure.2 ⟨(hm.ids _ _ hknown).symm, hm, rfl⟩
  | none =>
    refine ensures_run_bind.2 ((ensures_probeIdentity hw p).mono ?_)
    rintro result m' ⟨rfl, rfl⟩
    cases hid : P.id p.nodeName with
    | error e => exact ⟨rfl, hm, rfl⟩
    | ok id =>
      refine ensures_run_bind.2 (ensures_run_lift.2 (ensures_ask_memory fun now u m₁ _ hnote => ?_))
      obtain ⟨-, rfl⟩ := Prod.mk.inj (Option.some.inj hnote)
      exact ensures_run_pure.2 ⟨rfl, hm.noteId hid, rfl⟩

/-- A dependency has an address to be read from the cache if and only if it is recorded. -/
theorem ensures_cachedAddress (hw : w.Steady P s.lifetime) (hm : m.Steady w P c) (p : Peer)
    (dns : Option String) :
    Ensures w.surroundings
      (fun result m' => m' = m ∧
        ∀ known, result = .ok known → (known = none ↔ m.recorded? p.nodeName = none)) m
      (cachedAddress p dns).run := by
  unfold cachedAddress
  refine ensures_run_bind.2 (ensures_run_lift.2 ((ensures_lookup hm p.nodeName).mono ?_))
  rintro known m' ⟨rfl, rfl⟩
  cases hrecorded : m'.recorded? p.nodeName with
  | none =>
    refine ensures_run_pure.2 ⟨rfl, ?_⟩
    rintro known h
    obtain rfl := Except.ok.inj h
    simp
  | some value =>
    have hsome : ∀ {x : Except FormatError MultiAddress}, Ensures w.surroundings
        (fun result m₁ => m₁ = m' ∧ ∀ known, result = .ok known → (known = none ↔ some value = none))
        m' (some <$> ofFormat p.nodeName x).run := by
      intro x
      refine ensures_run_map.2 (ensures_ofFormat.2 ⟨rfl, ?_⟩)
      intro known h
      cases x with
      | ok a =>
        obtain rfl := Except.ok.inj h
        simp
      | error e => exact absurd h (by simp [Except.mapError, Except.map])
    dsimp only
    by_cases hlead : hasLead value = true
    · rw [if_pos hlead]
      refine ensures_run_bind.2 (ensures_ofFormat.2 ?_)
      cases MultiAddress.parse value with
      | error e => exact ⟨rfl, fun known h => absurd h (by simp)⟩
      | ok a =>
        cases dns with
        | some dns => exact hsome
        | none =>
          refine ensures_run_pure.2 ⟨rfl, ?_⟩
          rintro known h
          obtain rfl := Except.ok.inj h
          simp
    · rw [if_neg hlead]
      refine ensures_run_bind.2 (ensures_ofFormat.2 ?_)
      cases truncatePeerId (Text.trim value) peerIdLength with
      | error e => exact ⟨rfl, fun known h => absurd h (by simp)⟩
      | ok id =>
        refine ensures_run_bind.2 ((ensures_hostOf hw p dns).mono ?_)
        rintro result m₁ ⟨rfl, rfl⟩
        cases P.host p.nodeName dns with
        | error e => exact ⟨rfl, fun known h => absurd h (by simp)⟩
        | ok host => exact hsome

/-- The address of a node is put together from its identifier and a host in one way, whatever is done
with it then. -/
theorem ensures_addressed {α : Type} {p : Peer} {dns : Option String} {x : Attempt Host}
    {k : MultiAddress → Attempt α} {Q : Except ResolveError α → Memory → Prop}
    (hw : w.Steady P s.lifetime) (hm : m.Steady w P c)
    (hx : ∀ m, Ensures w.surroundings
      (fun result m' => result = P.host p.nodeName dns ∧ m' = m) m x.run)
    (herror : ∀ e m', P.address p.nodeName dns = .error e → m'.Steady w P c → m'.cache = m.cache →
      Q (.error e) m')
    (hok : ∀ a m', P.address p.nodeName dns = .ok a → m'.Steady w P c → m'.cache = m.cache →
      Ensures w.surroundings Q m' (k a).run) :
    Ensures w.surroundings Q m (do
      let id ← peerIdOf p
      let host ← x
      let address ← ofFormat p.nodeName (MultiAddress.ofHost host id)
      k address : Attempt α).run := by
  refine ensures_run_bind.2 ((ensures_peerIdOf hw hm p).mono ?_)
  rintro result m₁ ⟨rfl, hm₁, hcache⟩
  cases hid : P.id p.nodeName with
  | error e => exact herror e m₁ (Probes.address_of_id_error hid) hm₁ hcache
  | ok id =>
    refine ensures_run_bind.2 ((hx m₁).mono ?_)
    rintro result m₂ ⟨rfl, rfl⟩
    cases hhost : P.host p.nodeName dns with
    | error e => exact herror e m₂ (Probes.address_of_host_error hid hhost) hm₁ hcache
    | ok host =>
      refine ensures_run_bind.2 (ensures_ofFormat.2 ?_)
      rw [← Probes.address_of_host hid hhost]
      cases haddress : P.address p.nodeName dns with
      | error e => exact herror e m₂ haddress hm₁ hcache
      | ok a => exact hok a m₂ haddress hm₁ hcache

/-- Between probing a node and recording it, its own address is noted. -/
theorem ensures_probeOwn (hw : w.Steady P s.lifetime) (hm : m.Steady w P c) {p : Peer}
    (hp : p ∈ c.peers) :
    Ensures w.surroundings (fun result m' =>
      result = P.address p.nodeName p.ownDns? ∧ m'.Steady w P c ∧ m'.cache = m.cache) m
      (probeOwn p).run := by
  refine ensures_addressed hw hm (fun _ => ensures_ownHost hw p) ?_ ?_
  · intro e m' haddress hm' hcache
    exact ⟨haddress.symm, hm', hcache⟩
  · intro a m' haddress hm' hcache
    refine ensures_run_bind.2 (ensures_run_lift.2 (ensures_ask_memory fun now u m₁ _ hnote => ?_))
    obtain ⟨-, rfl⟩ := Prod.mk.inj (Option.some.inj hnote)
    exact ensures_run_pure.2 ⟨haddress.symm, hm'.noteAddress hp haddress, hcache⟩

/-- The own address of a node that is not recorded is what probing it comes to. -/
theorem ensures_ownAddress (hw : w.Steady P s.lifetime) (hm : m.Steady w P c)
    (hvalid : c.validate = .ok ()) {p : Peer} (hp : p ∈ c.peers)
    (hnone : m.recorded? p.nodeName = none) :
    Ensures w.surroundings (fun result m' =>
      result = P.address p.nodeName p.ownDns? ∧ m'.Steady w P c ∧ m'.cache = m.cache) m
      (ownAddress p).run := by
  unfold ownAddress
  refine ensures_run_bind.2 (ensures_run_lift.2 (ensures_ask_memory fun now known m' _ hrecall => ?_))
  obtain ⟨rfl, rfl⟩ := Prod.mk.inj (Option.some.inj hrecall)
  cases hknown : m.memos.addresses.get? p.nodeName with
  | some a =>
    obtain ⟨q, hq, hname, ha⟩ := hm.addresses _ _ hknown
    obtain rfl := Config.eq_of_nodeName hvalid hq hp hname
    exact ensures_run_pure.2 ⟨ha.symm, hm, rfl⟩
  | none =>
    refine ensures_locked.2 ⟨trivial, ?_⟩
    rintro m₁ rfl
    refine ensures_run_bind.2 (ensures_run_lift.2 ((ensures_lookup hm p.nodeName).mono ?_))
    rintro value m₂ ⟨rfl, rfl⟩
    rw [hnone]
    refine (ensures_probeOwn hw hm hp).mono ?_
    rintro result m₃ hresult
    refine ⟨trivial, ?_⟩
    rintro m₄ rfl
    exact hresult

end Resolve

end Rendezvous
