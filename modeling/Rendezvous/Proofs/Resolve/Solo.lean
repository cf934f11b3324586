import Rendezvous.Proofs.Address.Identifiers
import Rendezvous.Proofs.Resolve.Answers
import Rendezvous.Proofs.Resolve.Outcomes

/-!
# Resolving alone

While nothing else runs and the cache works, each part of a resolution has few ways to go. They are
spelled out here one by one, with the memory they start from and the commands they take. Time may pass
all along, so whether a record is still there is asked anew at each look.
-/

namespace Rendezvous

/-! ## The memory -/

namespace Memory

/-- The cache works. -/
def Working (m : Memory) : Prop := m.faults.get = false ∧ m.faults.set = false

theorem Working.of_faults {m m' : Memory} (hm : m.Working) (h : m'.faults = m.faults) :
    m'.Working := by
  unfold Working
  rwa [h]

/-- The memory with an identifier noted. -/
def noteId (m : Memory) (node id : String) : Memory :=
  { m with memos := { m.memos with ids := m.memos.ids.put node id } }

/-- The memory with an own address noted. -/
def noteAddress (m : Memory) (node : String) (a : MultiAddress) : Memory :=
  { m with memos := { m.memos with addresses := m.memos.addresses.put node a } }

/-- The memory with an address of a peer recorded until it expires, and registered. -/
def record (m : Memory) (p : Peer) (a : MultiAddress) (expiry : Instant) : Memory :=
  { m with
    cache := ⟨m.cache.records.put p.nodeName ⟨a.text, expiry⟩⟩
    registry := m.registry.register p.nodeName a.text p.space }

end Memory

theorem knownValue_get? (c : TimedCache) (now : Instant) (key : String) :
    knownValue (.ok (c.get? now key)) = c.get? now key := by
  unfold TimedCache.get?
  cases c.records.get? key with
  | none => rfl
  | some r =>
    dsimp only
    split
    · rename_i hknown
      have hvalue : r.value.isEmpty = false := by
        simpa using (Bool.and_eq_true_iff.1 hknown).2
      simp [knownValue, hvalue]
    · rfl

namespace Resolve

open Routine Attempt

variable {w : World} {s : Settings} {p : Peer} {m m' : Memory} {dns : Option String}

/-! ## What is asked of a node -/

/-- What an attempt for the identifier of a node comes to. -/
inductive Identified (p : Peer) (m : Memory) :
    Except ResolveError String → Memory → List Exchange → Prop where
  /-- It was noted before. -/
  | noted {id : String} (h : m.memos.ids.get? p.nodeName = some id) : Identified p m (.ok id) m []
  /-- It is probed and noted. -/
  | told {id : String} {answer : Except ExecError String}
      (hnone : m.memos.ids.get? p.nodeName = none)
      (h : Probes.reading p.nodeName answer
        (fun output => truncatePeerId (Text.trim output) peerIdLength) = .ok id) :
      Identified p m (.ok id) (m.noteId p.nodeName id) [(.main p .peerInfo, answer)]
  /-- It is probed in vain. -/
  | refused {e : ResolveError} {answer : Except ExecError String}
      (hnone : m.memos.ids.get? p.nodeName = none)
      (h : Probes.reading p.nodeName answer
        (fun output => truncatePeerId (Text.trim output) peerIdLength) = .error e) :
      Identified p m (.error e) m [(.main p .peerInfo, answer)]

/-- What an attempt for the host of a node comes to. -/
inductive Hosted (p : Peer) : Option String → Except ResolveError Host → List Exchange → Prop where
  /-- A DNS name stands for it. -/
  | pinned (name : String) : Hosted p (some name) (.ok (.dns name)) []
  /-- It is probed. -/
  | told (answer : Except ExecError String) :
      Hosted p none (Probes.reading p.nodeName answer Host.parseIp) [(.main p .nodeIp, answer)]

/-- What an attempt to put the address of a node together comes to. -/
inductive Composed (p : Peer) (dns : Option String) (m : Memory) :
    Except ResolveError MultiAddress → Memory → List Exchange → Prop where
  /-- There is no identifier. -/
  | unidentified {e : ResolveError} {m' : Memory} {made : List Exchange}
      (hid : Identified p m (.error e) m' made) : Composed p dns m (.error e) m' made
  /-- There is no host. -/
  | unhosted {id : String} {e : ResolveError} {m' : Memory} {made made' : List Exchange}
      (hid : Identified p m (.ok id) m' made) (hhost : Hosted p dns (.error e) made') :
      Composed p dns m (.error e) m' (made ++ made')
  /-- The two make no address. -/
  | unjoined {id : String} {host : Host} {e : FormatError} {m' : Memory} {made made' : List Exchange}
      (hid : Identified p m (.ok id) m' made) (hhost : Hosted p dns (.ok host) made')
      (ha : MultiAddress.ofHost host id = .error e) :
      Composed p dns m (.error (.format p.nodeName e)) m' (made ++ made')
  /-- They make an address. -/
  | joined {id : String} {host : Host} {a : MultiAddress} {m' : Memory} {made made' : List Exchange}
      (hid : Identified p m (.ok id) m' made) (hhost : Hosted p dns (.ok host) made')
      (ha : MultiAddress.ofHost host id = .ok a) : Composed p dns m (.ok a) m' (made ++ made')

theorem comes_peerIdOf (p : Peer) : Comes w m (peerIdOf p) (Identified p m) := by
  unfold peerIdOf
  refine .ask fun now known m₁ _ hrecall => ?_
  obtain ⟨rfl, rfl⟩ := Prod.mk.inj (Option.some.inj hrecall)
  cases hnoted : m.memos.ids.get? p.nodeName with
  | some id => exact comes_pure (.noted hnoted)
  | none =>
    have hprobe : Comes w m (probeIdentity p) fun result m' made => ∃ answer,
        result = Probes.reading p.nodeName answer
          (fun output => truncatePeerId (Text.trim output) peerIdLength) ∧
        m' = m ∧ made = [(.main p .peerInfo, answer)] :=
      comes_probe fun answer => ⟨answer, rfl, rfl, rfl⟩
    refine hprobe.bind ?_ ?_
    · rintro id m' made ⟨answer, hid, rfl, rfl⟩
      refine .ask fun now u m₁ _ hnote => ?_
      obtain ⟨-, rfl⟩ := Prod.mk.inj (Option.some.inj hnote)
      exact comes_pure (.told hnoted hid.symm)
    · rintro e m' made ⟨answer, he, rfl, rfl⟩
      exact .refused hnoted he.symm

theorem comes_hostOf (p : Peer) (dns : Option String) :
    Comes w m (hostOf p dns) fun result m' made => m' = m ∧ Hosted p dns result made := by
  cases dns with
  | some name => exact comes_pure ⟨rfl, .pinned name⟩
  | none => exact comes_probe fun answer => ⟨rfl, .told answer⟩

/-- A node makes itself known under its own name if it is in DNS. -/
theorem ownHost_eq (p : Peer) : ownHost p = hostOf p p.ownDns? := by
  unfold ownHost Peer.ownDns?
  split
  · rfl
  · rfl

/-- The address of a node is put together, and something is done with it. -/
theorem comes_composed {α : Type} {k : MultiAddress → Attempt α}
    {R : Except ResolveError α → Memory → List Exchange → Prop}
    (hok : ∀ a m' made, Composed p dns m (.ok a) m' made →
      Comes w m' (k a) fun result m'' made' => R result m'' (made ++ made'))
    (herror : ∀ e m' made, Composed p dns m (.error e) m' made → R (.error e) m' made) :
    Comes w m (do
      let id ← peerIdOf p
      let host ← hostOf p dns
      let address ← ofFormat p.nodeName (MultiAddress.ofHost host id)
      k address) R := by
  refine (comes_peerIdOf p).bind ?_ fun e m' made hid => herror e m' made (.unidentified hid)
  intro id m' made hid
  refine (comes_hostOf p dns).bind ?_ ?_
  · rintro host m₁ made' ⟨rfl, hhost⟩
    refine .format (fun a ha => ?_) fun e ha => ?_
    · refine (hok a m₁ _ (.joined hid hhost ha)).mono fun result m₃ made₃ hr => ?_
      rwa [List.append_assoc] at hr
    · rw [List.append_nil]
      exact herror _ _ _ (.unjoined hid hhost ha)
  · rintro e m₁ made' ⟨rfl, hhost⟩
    exact herror e m₁ _ (.unhosted hid hhost)

/-! ## Dependencies -/

/-- How a record of a node gives the address that its dependent is to see. -/
inductive FromRecord (p : Peer) (dns : Option String) (value : String) :
    MultiAddress → List Exchange → Prop where
  /-- It is the address. -/
  | whole {a : MultiAddress} (hlead : hasLead value = true) (h : MultiAddress.parse value = .ok a)
      (hdns : dns = none) : FromRecord p dns value a []
  /-- It is an address, for whose host a DNS name stands. -/
  | pinned {known a : MultiAddress} {name : String} (hlead : hasLead value = true)
      (h : MultiAddress.parse value = .ok known) (hdns : dns = some name)
      (ha : MultiAddress.ofHost (.dns name) known.peerId = .ok a) : FromRecord p dns value a []
  /-- It is an identifier. -/
  | bare {id : String} {host : Host} {a : MultiAddress} {made : List Exchange}
      (hlead : hasLead value = false) (h : truncatePeerId (Text.trim value) peerIdLength = .ok id)
      (hhost : Hosted p dns (.ok host) made) (ha : MultiAddress.ofHost host id = .ok a) :
      FromRecord p dns value a made

/-- What a look for a record of a node comes to when its dependent makes it. Only a record that is no
whole address makes it fail. -/
inductive Looked (w : World) (p : Peer) (dns : Option String) (m : Memory) :
    Except ResolveError (Option MultiAddress) → List Exchange → Prop where
  /-- There is no record. -/
  | missing {now : Instant} (hnow : w.timely now) (h : m.cache.get? now p.nodeName = none) :
      Looked w p dns m (.ok none) []
  /-- There is one. -/
  | found {now : Instant} {value : String} {a : MultiAddress} {made : List Exchange}
      (hnow : w.timely now) (h : m.cache.get? now p.nodeName = some value)
      (hvalue : FromRecord p dns value a made) : Looked w p dns m (.ok (some a)) made
  /-- There is one that gives no address. -/
  | spoiled {now : Instant} {value : String} {e : ResolveError} {made : List Exchange}
      (hnow : w.timely now) (h : m.cache.get? now p.nodeName = some value)
      (hvalue : ¬ WholeAddress value) : Looked w p dns m (.error e) made

/-- What an attempt for the address of a dependency comes to. -/
inductive Reached (w : World) (s : Settings) (p : Peer) (dns : Option String) (m : Memory) :
    Except ResolveError MultiAddress → Memory → List Exchange → Prop where
  /-- It is recorded. -/
  | found {now : Instant} {value : String} {a : MultiAddress} {made : List Exchange}
      (hnow : w.timely now) (h : m.cache.get? now p.nodeName = some value)
      (hvalue : FromRecord p dns value a made) : Reached w s p dns m (.ok a) m made
  /-- What is recorded gives no address. -/
  | spoiled {now : Instant} {value : String} {e : ResolveError} {made : List Exchange}
      (hnow : w.timely now) (h : m.cache.get? now p.nodeName = some value)
      (hvalue : ¬ WholeAddress value) : Reached w s p dns m (.error e) m made
  /-- It is not recorded and probed in vain. -/
  | lost {now : Instant} {e : ResolveError} {m' : Memory} {made : List Exchange}
      (hnow : w.timely now) (h : m.cache.get? now p.nodeName = none)
      (hprobe : Composed p dns m (.error e) m' made) : Reached w s p dns m (.error e) m' made
  /-- It is not recorded, and it is probed and recorded. -/
  | probed {now now' expiry : Instant} {a : MultiAddress} {m' : Memory} {made : List Exchange}
      (hnow : w.timely now) (h : m.cache.get? now p.nodeName = none)
      (hprobe : Composed p dns m (.ok a) m' made) (hnow' : w.timely now')
      (hexpiry : Instant.after? now' s.lifetime = some expiry) :
      Reached w s p dns m (.ok a) (m'.record p a expiry) made

/-- A look for a record, at some instant; a cache that does not work shows none. -/
theorem comes_glance {α : Type} {node : String} {f : Option String → Attempt α}
    {R : Except ResolveError α → Memory → List Exchange → Prop}
    (hfault : m.faults.get = true → Comes w m (f none) R)
    (h : ∀ now, w.timely now → Comes w m (f (m.cache.get? now node)) R) :
    Comes w m (liftM (lookup node) >>= f) R := by
  intro calls
  refine ensures_run_bind.2 (ensures_run_lift.2 ?_)
  unfold lookup
  refine ensures_bind.2 (ensures_consult.2 ⟨trivial, ?_⟩)
  rintro answer ⟨m', calls'⟩ ⟨now, hnow, hget, hcalls⟩
  obtain rfl : calls' = calls := hcalls
  cases hworks : m.faults.get with
  | true =>
    simp only [Memory.consult, hworks, if_true, Option.some.injEq, Prod.mk.injEq] at hget
    obtain ⟨rfl, rfl⟩ := hget
    exact ensures_pure.2 (hfault hworks calls')
  | false =>
    simp only [Memory.consult, hworks, Bool.false_eq_true, if_false, Option.some.injEq,
      Prod.mk.injEq] at hget
    obtain ⟨rfl, rfl⟩ := hget
    refine ensures_pure.2 ?_
    rw [knownValue_get?]
    exact h now hnow calls'

/-- A look for a record in a cache that works. -/
theorem comes_look {α : Type} {node : String} {f : Option String → Attempt α}
    {R : Except ResolveError α → Memory → List Exchange → Prop} (hm : m.Working)
    (h : ∀ now, w.timely now → Comes w m (f (m.cache.get? now node)) R) :
    Comes w m (liftM (lookup node) >>= f) R :=
  comes_glance (fun hfault => absurd (hm.1.symm.trans hfault) (by decide)) h

/-- An address of a peer is recorded and registered, at some instant. -/
theorem comes_store {α : Type} {a : MultiAddress} {f : Unit → Attempt α}
    {R : Except ResolveError α → Memory → List Exchange → Prop} (hm : m.Working)
    (h : ∀ now expiry, w.timely now → Instant.after? now s.lifetime = some expiry →
      Comes w (m.record p a expiry) (f ()) R) :
    Comes w m (liftM (store s p a) >>= f) R := by
  intro calls
  refine ensures_run_bind.2 (ensures_run_lift.2 ?_)
  unfold Resolve.store
  refine ensures_bind.2 (ensures_consult.2 ⟨trivial, ?_⟩)
  rintro answer ⟨m', calls'⟩ ⟨now, hnow, hset, hcalls⟩
  obtain rfl : calls' = calls := hcalls
  simp only [Memory.consult, hm.2, Bool.false_eq_true, if_false, TimedCache.set?,
    Option.map_map, Option.map_eq_some_iff, Function.comp_apply, Prod.mk.injEq] at hset
  obtain ⟨expiry, hexpiry, -, rfl⟩ := hset
  refine (@ensures_consult _ _ _ (.register p.nodeName a.text p.space) _).2 ⟨trivial, ?_⟩
  rintro _ ⟨m'', calls''⟩ ⟨now', -, hregister, hcalls'⟩
  obtain rfl : calls'' = calls' := hcalls'
  obtain ⟨-, rfl⟩ := Prod.mk.inj (Option.some.inj hregister)
  exact h now expiry hnow hexpiry calls''

theorem comes_found {y : Except FormatError MultiAddress} :
    Comes w m (some <$> ofFormat p.nodeName y) fun result m' made =>
      result = (y.mapError (.format p.nodeName)).map some ∧ m' = m ∧ made = [] := by
  have hread : Comes w m (ofFormat p.nodeName y) fun result m' made =>
      result = y.mapError (.format p.nodeName) ∧ m' = m ∧ made = [] :=
    comes_ofFormat ⟨rfl, rfl, rfl⟩
  refine hread.map ?_
  rintro result m' made ⟨rfl, rfl, rfl⟩
  exact ⟨rfl, rfl, rfl⟩

theorem comes_cachedAddress (hm : m.Working) (p : Peer) (dns : Option String) :
    Comes w m (cachedAddress p dns) fun result m' made => m' = m ∧ Looked w p dns m result made := by
  unfold cachedAddress
  refine comes_look hm fun now hnow => ?_
  cases hvalue : m.cache.get? now p.nodeName with
  | none => exact comes_pure ⟨rfl, .missing hnow hvalue⟩
  | some value =>
    dsimp only
    cases hlead : hasLead value with
    | true =>
      rw [if_pos rfl]
      refine .format (fun known hparse => ?_) fun e hparse => ?_
      · cases dns with
        | none => exact comes_pure ⟨rfl, .found hnow hvalue (.whole hlead hparse rfl)⟩
        | some name =>
          obtain ⟨a, ha, -⟩ := (MultiAddress.fits_of_parse hparse).exists_ofHost (.dns name)
          dsimp only
          rw [ha]
          refine comes_found.mono ?_
          rintro result m' made ⟨rfl, rfl, rfl⟩
          exact ⟨rfl, .found hnow hvalue (.pinned hlead hparse rfl ha)⟩
      · refine ⟨rfl, .spoiled hnow hvalue ?_⟩
        rintro ⟨-, a, ha⟩
        rw [hparse] at ha
        exact absurd ha (by simp)
    | false =>
      have hvoid : ¬ WholeAddress value := fun hwhole => absurd (hwhole.1.symm.trans hlead) (by simp)
      rw [if_neg (by decide)]
      refine .format (fun id hid => ?_) fun e hid => ⟨rfl, .spoiled hnow hvalue hvoid⟩
      refine (comes_hostOf p dns).bind ?_ ?_
      · rintro host m' made ⟨rfl, hhost⟩
        cases ha : MultiAddress.ofHost host id with
        | ok a =>
          refine comes_found.mono ?_
          rintro result m₁ made' ⟨rfl, rfl, rfl⟩
          rw [List.append_nil]
          exact ⟨rfl, .found hnow hvalue (.bare hlead hid hhost ha)⟩
        | error e =>
          refine comes_found.mono ?_
          rintro result m₁ made' ⟨rfl, rfl, rfl⟩
          exact ⟨rfl, .spoiled hnow hvalue hvoid⟩
      · rintro e m' made ⟨rfl, hhost⟩
        exact ⟨rfl, .spoiled hnow hvalue hvoid⟩

/-- Asking a node changes nothing but what is noted. -/
theorem Identified.memory {result : Except ResolveError String} {made : List Exchange}
    (h : Identified p m result m' made) : m' = { m with memos := m'.memos } := by
  cases h with
  | noted _ => rfl
  | told _ _ => rfl
  | refused _ _ => rfl

theorem Composed.memory {result : Except ResolveError MultiAddress} {made : List Exchange}
    (h : Composed p dns m result m' made) : m' = { m with memos := m'.memos } := by
  cases h with
  | unidentified hid => exact hid.memory
  | unhosted hid _ => exact hid.memory
  | unjoined hid _ _ => exact hid.memory
  | joined hid _ _ => exact hid.memory

theorem Composed.faults {result : Except ResolveError MultiAddress} {made : List Exchange}
    (h : Composed p dns m result m' made) : m'.faults = m.faults :=
  (congrArg Memory.faults h.memory).trans rfl

theorem comes_probeDependency (hm : m.Working) {now : Instant} (hnow : w.timely now)
    (hnone : m.cache.get? now p.nodeName = none) :
    Comes w m (probeDependency s p dns) (Reached w s p dns m) := by
  unfold probeDependency
  refine comes_composed ?_ ?_
  · intro a m' made hprobe
    have hm' : m'.Working := hm.of_faults hprobe.faults
    refine comes_store hm' fun now' expiry hnow' hexpiry => comes_pure ?_
    rw [List.append_nil]
    exact .probed hnow hnone hprobe hnow' hexpiry
  · intro e m' made hprobe
    exact .lost hnow hnone hprobe

/-- A record that is found ends the attempt for the address of a dependency. -/
theorem comes_looked {k : Option MultiAddress → Attempt MultiAddress} (hm : m.Working)
    (hsome : ∀ a, k (some a) = pure a)
    (hmissing : ∀ now, w.timely now → m.cache.get? now p.nodeName = none →
      Comes w m (k none) (Reached w s p dns m)) :
    Comes w m (cachedAddress p dns >>= k) (Reached w s p dns m) := by
  refine (comes_cachedAddress hm p dns).bind ?_ ?_
  · rintro known m' made ⟨rfl, hlooked⟩
    cases hlooked with
    | missing hnow hnone => exact hmissing _ hnow hnone
    | found hnow hvalue hfrom =>
      rw [hsome]
      refine comes_pure ?_
      rw [List.append_nil]
      exact .found hnow hvalue hfrom
  · rintro e m' made ⟨rfl, hlooked⟩
    cases hlooked with
    | spoiled hnow hvalue hvoid => exact .spoiled hnow hvalue hvoid

theorem comes_dependencyAddress (hm : m.Working) :
    Comes w m (dependencyAddress s p dns) (Reached w s p dns m) := by
  unfold dependencyAddress
  refine comes_looked hm (fun _ => rfl) fun _ _ _ => Comes.locked ?_
  exact comes_looked hm (fun _ => rfl) fun now hnow hnone => comes_probeDependency hm hnow hnone

theorem Reached.faults {result : Except ResolveError MultiAddress} {made : List Exchange}
    (h : Reached w s p dns m result m' made) : m'.faults = m.faults := by
  cases h with
  | found _ _ _ => rfl
  | spoiled _ _ _ => rfl
  | lost _ _ hprobe => exact hprobe.faults
  | probed _ _ hprobe _ _ => exact hprobe.faults

/-! ## Connections -/

/-- What an attempt for the address of a listed entry comes to. -/
inductive Segmented (w : World) (s : Settings) (p : Peer) (i : Nat) (entry : String) (m : Memory) :
    Except ResolveError MultiAddress → Memory → List Exchange → Prop where
  /-- It is an address. -/
  | literal {a : MultiAddress} (hliteral : isLiteralAddress entry = true)
      (ha : MultiAddress.parse entry = .ok a) : Segmented w s p i entry m (.ok a) m []
  /-- It is to be an address and is none. -/
  | unread {e : FormatError} (hliteral : isLiteralAddress entry = true)
      (ha : MultiAddress.parse entry = .error e) :
      Segmented w s p i entry m (.error (.format p.nodeName e)) m []
  /-- It is the name of a dependency. -/
  | dependency {result : Except ResolveError MultiAddress} {m' : Memory} {made : List Exchange}
      (hname : isLiteralAddress entry = false)
      (h : Reached w s (dependency s entry p) (p.dnsFor? i) m result m' made) :
      Segmented w s p i entry m result m' made

/-- What an attempt for the addresses of the entries from position `i` on comes to. -/
inductive Assembled (w : World) (s : Settings) (p : Peer) : Nat → List String → Memory →
    Except ResolveError (List MultiAddress) → Memory → List Exchange → Prop where
  /-- There are no more entries. -/
  | nil (i : Nat) (m : Memory) : Assembled w s p i [] m (.ok []) m []
  /-- The first entry gives no address. -/
  | failed {i : Nat} {entry : String} {entries : List String} {e : ResolveError} {m m' : Memory}
      {made : List Exchange} (h : Segmented w s p i entry m (.error e) m' made) :
      Assembled w s p i (entry :: entries) m (.error e) m' made
  /-- A later entry gives no address. -/
  | failsLater {i : Nat} {entry : String} {entries : List String} {a : MultiAddress}
      {e : ResolveError} {m m' m'' : Memory} {made made' : List Exchange}
      (h : Segmented w s p i entry m (.ok a) m' made)
      (hrest : Assembled w s p (i + 1) entries m' (.error e) m'' made') :
      Assembled w s p i (entry :: entries) m (.error e) m'' (made ++ made')
  /-- Every entry gives an address. -/
  | cons {i : Nat} {entry : String} {entries : List String} {a : MultiAddress}
      {addresses : List MultiAddress} {m m' m'' : Memory} {made made' : List Exchange}
      (h : Segmented w s p i entry m (.ok a) m' made)
      (hrest : Assembled w s p (i + 1) entries m' (.ok addresses) m'' made') :
      Assembled w s p i (entry :: entries) m (.ok (a :: addresses)) m'' (made ++ made')

theorem Segmented.faults {i : Nat} {entry : String} {result : Except ResolveError MultiAddress}
    {made : List Exchange} (h : Segmented w s p i entry m result m' made) :
    m'.faults = m.faults := by
  cases h with
  | literal _ _ => rfl
  | unread _ _ => rfl
  | dependency _ h => exact h.faults

theorem comes_segment (hm : m.Working) (i : Nat) (entry : String) :
    Comes w m (segment s p i entry) (Segmented w s p i entry m) := by
  unfold segment
  cases hliteral : isLiteralAddress entry with
  | true =>
    rw [if_pos rfl]
    cases ha : MultiAddress.parse entry with
    | ok a => exact comes_ofFormat (.literal hliteral ha)
    | error e => exact comes_ofFormat (.unread hliteral ha)
  | false =>
    rw [if_neg (by decide)]
    exact (comes_dependencyAddress hm).mono fun result m' made h => .dependency hliteral h

/-- The addresses of the entries are joined to those of the entries before them. -/
theorem comes_assembleFrom (hm : m.Working) (i : Nat) (entries : List String)
    (before : List MultiAddress) :
    Comes w m (assembleFrom s p i entries (Connections.ofAddresses before)) fun result m' made =>
      (∃ addresses, result = .ok (Connections.ofAddresses (before ++ addresses)) ∧
          Assembled w s p i entries m (.ok addresses) m' made) ∨
        ∃ e, result = .error e ∧ Assembled w s p i entries m (.error e) m' made := by
  induction entries generalizing i m before with
  | nil =>
    refine comes_pure (.inl ⟨[], ?_, .nil i m⟩)
    rw [List.append_nil]
  | cons entry entries ih =>
    unfold assembleFrom
    refine (comes_segment hm i entry).bind ?_ ?_
    · intro a m' made hsegment
      have hm' : m'.Working := hm.of_faults hsegment.faults
      rw [Connections.push_ofAddresses]
      show Comes w m' (assembleFrom s p (i + 1) entries (Connections.ofAddresses (before ++ [a]))) _
      refine (ih hm' (i + 1) (before ++ [a])).mono ?_
      rintro result m'' made' (⟨addresses, rfl, hrest⟩ | ⟨e, rfl, hrest⟩)
      · refine .inl ⟨a :: addresses, ?_, .cons hsegment hrest⟩
        rw [List.append_assoc, List.singleton_append]
      · exact .inr ⟨e, rfl, .failsLater hsegment hrest⟩
    · intro e m' made hsegment
      exact .inr ⟨e, rfl, .failed hsegment⟩

/-- The connection string of a peer, if there is one, holds the addresses of all its entries. -/
theorem comes_assemble (hm : m.Working) (p : Peer) :
    Comes w m (assemble s p) fun result m' made =>
      (∃ addresses, result = .ok (Connections.ofAddresses addresses) ∧
          Assembled w s p 0 p.connectsTo m (.ok addresses) m' made) ∨
        ∃ e, result = .error e ∧ Assembled w s p 0 p.connectsTo m (.error e) m' made :=
  comes_assembleFrom hm 0 p.connectsTo []

/-! ## The peer itself -/

/-- What an attempt for the own address of a peer comes to when the peer is not recorded. -/
inductive Owned (p : Peer) (m : Memory) :
    Except ResolveError MultiAddress → Memory → List Exchange → Prop where
  /-- It was noted before. -/
  | pending {a : MultiAddress} (h : m.memos.addresses.get? p.nodeName = some a) :
      Owned p m (.ok a) m []
  /-- It is probed in vain. -/
  | lost {e : ResolveError} {m' : Memory} {made : List Exchange}
      (hnone : m.memos.addresses.get? p.nodeName = none)
      (hprobe : Composed p p.ownDns? m (.error e) m' made) : Owned p m (.error e) m' made
  /-- It is probed and noted. -/
  | probed {a : MultiAddress} {m' : Memory} {made : List Exchange}
      (hnone : m.memos.addresses.get? p.nodeName = none)
      (hprobe : Composed p p.ownDns? m (.ok a) m' made) :
      Owned p m (.ok a) (m'.noteAddress p.nodeName a) made

/-- What an attempt to bring the dependencies into a peer comes to. -/
inductive Connected (w : World) (s : Settings) (p : Peer) (m : Memory) :
    Except ResolveError (Option Connections) → Memory → List Exchange → Prop where
  /-- There are none. -/
  | nothing (hlist : p.connectsTo = []) : Connected w s p m (.ok none) m []
  /-- The only one is left as an environment value, or that fails. -/
  | injected {entry : String} {entries : List String} {answer : Except ExecError String}
      (hlist : p.connectsTo = entry :: entries) (henv : p.connectsAsEnvVar = true) :
      Connected w s p m ((answer.mapError (.execution p.nodeName)).map fun _ => none) m
        [(.setup p (.envVarFile entry p.nodeType), answer)]
  /-- One of them has no address. -/
  | unassembled {e : ResolveError} {m' : Memory} {made : List Exchange} (hlist : p.connectsTo ≠ [])
      (henv : p.connectsAsEnvVar = false)
      (h : Assembled w s p 0 p.connectsTo m (.error e) m' made) :
      Connected w s p m (.error e) m' made
  /-- Their addresses are written, or that fails. -/
  | written {addresses : List MultiAddress} {m' : Memory} {made : List Exchange}
      {answer : Except ExecError String} (hlist : p.connectsTo ≠ [])
      (henv : p.connectsAsEnvVar = false)
      (h : Assembled w s p 0 p.connectsTo m (.ok addresses) m' made) :
      Connected w s p m
        ((answer.mapError (.execution p.nodeName)).map fun _ =>
          some (Connections.ofAddresses addresses)) m'
        (made ++
          [(.setup p (.writeConnections (Connections.ofAddresses addresses).text), answer)])

/-- What an attempt to resolve a peer comes to that makes itself known and is not recorded. -/
inductive ResolvedAnew (w : World) (s : Settings) (p : Peer) (m : Memory) :
    Except ResolveError Resolution → Memory → List Exchange → Prop where
  /-- It has no address of its own. -/
  | unowned {e : ResolveError} {m' : Memory} {made : List Exchange}
      (hown : Owned p m (.error e) m' made) : ResolvedAnew w s p m (.error e) m' made
  /-- Its dependencies are not brought into it. -/
  | unconnected {a : MultiAddress} {e : ResolveError} {m' m'' : Memory} {made made' : List Exchange}
      (hown : Owned p m (.ok a) m' made) (hconnected : Connected w s p m' (.error e) m'' made') :
      ResolvedAnew w s p m (.error e) m'' (made ++ made')
  /-- It is resolved. -/
  | resolved {a : MultiAddress} {connections : Option Connections} {m' m'' m''' : Memory}
      {made made' : List Exchange} (hown : Owned p m (.ok a) m' made)
      (hconnected : Connected w s p m' (.ok connections) m'' made') :
      ResolvedAnew w s p m (.ok ⟨p.nodeName, some a.text, connections, false⟩) m''' (made ++ made')

/-- Finding the own address of a peer changes nothing but what is noted. -/
theorem Owned.memory {result : Except ResolveError MultiAddress} {made : List Exchange}
    (h : Owned p m result m' made) : m' = { m with memos := m'.memos } := by
  cases h with
  | pending _ => rfl
  | lost _ hprobe => exact hprobe.memory
  | @probed a m₁ _ _ hprobe =>
    have hnoted := congrArg (fun m => m.noteAddress p.nodeName a) hprobe.memory
    exact hnoted

theorem Owned.faults {result : Except ResolveError MultiAddress} {made : List Exchange}
    (h : Owned p m result m' made) : m'.faults = m.faults :=
  (congrArg Memory.faults h.memory).trans rfl

theorem Assembled.faults {i : Nat} {entries : List String}
    {result : Except ResolveError (List MultiAddress)} {made : List Exchange}
    (h : Assembled w s p i entries m result m' made) : m'.faults = m.faults := by
  induction h with
  | nil i m => rfl
  | failed h => exact h.faults
  | failsLater h _ ih => exact ih.trans h.faults
  | cons h _ ih => exact ih.trans h.faults

theorem comes_ownAddress (hm : m.Working)
    (hnone : ∀ now, w.timely now → m.cache.get? now p.nodeName = none) :
    Comes w m (ownAddress p) (Owned p m) := by
  unfold ownAddress
  refine .ask fun now known m₁ _ hrecall => ?_
  obtain ⟨rfl, rfl⟩ := Prod.mk.inj (Option.some.inj hrecall)
  cases hpending : m.memos.addresses.get? p.nodeName with
  | some a => exact comes_pure (.pending hpending)
  | none =>
    refine Comes.locked (comes_look hm fun now hnow => ?_)
    rw [hnone now hnow]
    show Comes w m (probeOwn p) (Owned p m)
    unfold probeOwn
    rw [ownHost_eq]
    refine comes_composed ?_ fun e m' made hprobe => .lost hpending hprobe
    intro a m' made hprobe
    refine .ask fun now u m₁ _ hnote => ?_
    obtain ⟨-, rfl⟩ := Prod.mk.inj (Option.some.inj hnote)
    refine comes_pure ?_
    rw [List.append_nil]
    exact .probed hpending hprobe

theorem comes_connect (hm : m.Working) (p : Peer) :
    Comes w m (connect s p) (Connected w s p m) := by
  unfold connect
  cases hlist : p.connectsTo with
  | nil => exact comes_pure (.nothing hlist)
  | cons entry entries =>
    have hne : p.connectsTo ≠ [] := by simp [hlist]
    dsimp only
    cases henv : p.connectsAsEnvVar with
    | true =>
      rw [if_pos rfl]
      refine comes_execute_pure.mono ?_
      rintro result m' made ⟨answer, rfl, rfl, rfl⟩
      exact .injected hlist henv
    | false =>
      rw [if_neg (by decide)]
      refine (comes_assemble hm p).bind ?_ ?_
      · rintro connections m' made (⟨addresses, h, hassembled⟩ | ⟨e, h, -⟩)
        · obtain rfl := Except.ok.inj h
          refine comes_execute_pure.mono ?_
          rintro result m'' made' ⟨answer, rfl, rfl, rfl⟩
          exact .written hne henv hassembled
        · exact absurd h (by simp)
      · rintro e m' made (⟨addresses, h, -⟩ | ⟨e', h, hassembled⟩)
        · exact absurd h (by simp)
        · obtain rfl := Except.error.inj h
          exact .unassembled hne henv hassembled

theorem Connected.faults {result : Except ResolveError (Option Connections)} {made : List Exchange}
    (h : Connected w s p m result m' made) : m'.faults = m.faults := by
  cases h with
  | nothing _ => rfl
  | injected _ _ => rfl
  | unassembled _ _ h => exact h.faults
  | written _ _ h => exact h.faults

theorem comes_resolveAnew (hm : m.Working) (hadvertises : p.nodeType.advertises = true)
    (hnone : ∀ now, w.timely now → m.cache.get? now p.nodeName = none) :
    Comes w m (resolveAnew s p) (ResolvedAnew w s p m) := by
  unfold resolveAnew
  rw [if_pos hadvertises]
  have hown : Comes w m (some <$> ownAddress p) fun result m' made =>
      ∃ own, result = own.map some ∧ Owned p m own m' made :=
    (comes_ownAddress hm hnone).map fun own m' made h => ⟨own, rfl, h⟩
  refine hown.bind ?_ ?_
  · rintro known m₁ made ⟨own, hresult, hown⟩
    cases own with
    | error e => exact absurd hresult (by simp [Except.map])
    | ok a =>
      obtain rfl := Except.ok.inj hresult
      have hm₁ : m₁.Working := hm.of_faults hown.faults
      refine (comes_connect hm₁ p).bind ?_ ?_
      · intro connections m₂ made₂ hconnected
        have hm₂ : m₂.Working := hm₁.of_faults hconnected.faults
        refine comes_store hm₂ fun now expiry _ _ => .ask fun now' u m₃ _ hdrop => ?_
        refine comes_pure ?_
        rw [List.append_nil]
        exact .resolved hown hconnected
      · intro e m₂ made₂ hconnected
        exact .unconnected hown hconnected
  · rintro e m₁ made ⟨own, hresult, hown⟩
    cases own with
    | error e' =>
      obtain rfl := Except.error.inj hresult
      exact .unowned hown
    | ok a => exact absurd hresult (by simp [Except.map])

/-- What an attempt to resolve a peer comes to that makes itself known and is not recorded. -/
theorem comes_resolve (hm : m.Working) (hadvertises : p.nodeType.advertises = true)
    (hnone : ∀ now, w.timely now → m.cache.get? now p.nodeName = none) :
    Comes w m (resolve s p) (ResolvedAnew w s p m) := by
  unfold resolve
  refine comes_look hm fun now hnow => ?_
  rw [hnone now hnow]
  exact comes_resolveAnew hm hadvertises hnone

end Resolve

end Rendezvous
