import Rendezvous.Proofs.Pool.Tasks
import Rendezvous.Proofs.Resolve.Recording

/-!
# The order of calls

Peers are resolved one after another, while each node answers probes in one way. The call that first
leaves a node recorded decides what it is known by from then on: its own address if it was the call of
the node itself, and else the address by which the peer of that call sees it.
-/

namespace Rendezvous

namespace Resolve

variable {w : World} {P : Probes} {s : Settings} {m m' : Memory} {x : Peer}
  {calls : List (Peer × Except ResolveError Resolution)}

/-- A peer is resolved, with nothing else going on. -/
inductive Called (w : World) (s : Settings) :
    Memory → List (Peer × Except ResolveError Resolution) → Memory → Prop where
  /-- The task of the call ends with a result. -/
  | ended {m : Memory} {p : Peer} {log : List (Nat × TaskEvent)}
      {pool : Pool (Except ResolveError Resolution)} {result : Except ResolveError Resolution}
      (run : Run (Pool.Turn w) (Pool.alone m (resolve s p).run) log pool)
      (ended : pool.tasks[0]? = some (.ended (.value result))) : Called w s m [(p, result)] pool.memory

/-- The call of a peer leaves a node recorded by a value: by its own address if the call is its own
and goes well, and else as the peer sees it. -/
def Records (P : Probes) (x q : Peer) (result : Except ResolveError Resolution) (value : String) :
    Prop :=
  (q = x ∧ (∃ connections, result = .ok ⟨x.nodeName, some value, connections, false⟩) ∧
    P.Shows x.nodeName x.ownDns? value) ∨
  (q.Lists x.nodeName ∧ (q = x → ∃ e, result = .error e) ∧
    P.Shows x.nodeName (q.pin? x.nodeName) value)

/-- A first record of a dependency is as its dependent sees it. -/
theorem Records.of_gains {q : Peer} {result : Except ResolveError Resolution} {node : String}
    (hnone : m.recorded? node = none) (hnode : x.nodeName = node) (hlists : q.Lists node)
    (hfailed : q = x → ∃ e, result = .error e) (hgains : m.Gains P m' node (q.pin? node)) :
    m'.recorded? node = none ∨
      ∃ value, m'.recorded? node = some value ∧ Records P x q result value := by
  subst hnode
  rcases hgains with hsame | ⟨-, a, haddress, hrecorded⟩
  · exact Or.inl (hsame.trans hnone)
  · exact Or.inr ⟨a.text, hrecorded, Or.inr ⟨hlists, hfailed, a, haddress, rfl⟩⟩

variable {q : Peer} {result : Except ResolveError Resolution}

/-- What a call does to the record of a node: it may make the first one, and leaves one that is there
as it is. -/
theorem Called.record (h : Called w s m [(q, result)] m') (hw : w.Steady P s.lifetime)
    (hm : m.Steady w P s.config) (hvalid : s.config.validate = .ok ()) (hq : q ∈ s.config.peers)
    (hx : x ∈ s.config.peers) (hda : x.nodeType = .da) :
    m'.Steady w P s.config ∧
    (m.recorded? x.nodeName = none →
      (m'.recorded? x.nodeName = none ∧ (q = x → ∃ e, result = .error e)) ∨
      ∃ value, m'.recorded? x.nodeName = some value ∧ Records P x q result value) ∧
    ∀ value, m.recorded? x.nodeName = some value →
      m'.recorded? x.nodeName = some value ∧
        (q = x → result = .ok ⟨x.nodeName, some value, none, true⟩) := by
  have hcall : (m.recorded? q.nodeName = none ∧ m.Resolved w P s.config q result m') ∨
      ∃ value, m.recorded? q.nodeName = some value ∧
        result = .ok ⟨q.nodeName, some value, none, true⟩ ∧
        m'.Steady w P s.config ∧ m'.cache = m.cache := by
    cases h with
    | ended run ended => exact Pool.ensures_of_alone (ensures_resolve hw hm hvalid hq) run ended
  by_cases hqx : q = x
  · subst hqx
    rcases hcall with ⟨hnone, hresolved⟩ | ⟨value, hsome, hresult, hm', hcache⟩
    · refine ⟨hresolved.steady, fun _ => ?_, fun value hvalue => ?_⟩
      · cases result with
        | error e =>
          rcases hresolved.failed e rfl q.nodeName with hsame | ⟨hlists, hgains⟩
          · exact Or.inl ⟨hsame.trans hnone, fun _ => ⟨e, rfl⟩⟩
          · rcases Records.of_gains hnone rfl hlists (fun _ => ⟨e, rfl⟩) hgains with hstill | hfirst
            · exact Or.inl ⟨hstill, fun _ => ⟨e, rfl⟩⟩
            · exact Or.inr hfirst
        | ok res =>
          obtain ⟨a, connections, haddress, rfl, hrecorded⟩ :=
            hresolved.advertised res rfl (by rw [hda]; rfl)
          exact Or.inr ⟨a.text, hrecorded, Or.inl ⟨rfl, ⟨connections, rfl⟩, a, haddress, rfl⟩⟩
      · rw [hnone] at hvalue
        exact absurd hvalue (by simp)
    · refine ⟨hm', fun hnone => ?_, fun value' hvalue => ?_⟩
      · rw [hnone] at hsome
        exact absurd hsome (by simp)
      · rw [hsome, Option.some.injEq] at hvalue
        subst hvalue
        exact ⟨(Memory.recorded?_congr hcache _).trans hsome, fun _ => hresult⟩
  · have hname : x.nodeName ≠ q.nodeName := by
      intro hname
      exact hqx (Config.eq_of_nodeName hvalid hq hx hname.symm)
    have hsteady : m'.Steady w P s.config := by
      rcases hcall with ⟨-, hresolved⟩ | ⟨-, -, -, hm', -⟩
      · exact hresolved.steady
      · exact hm'
    have hnode : m'.recorded? x.nodeName = m.recorded? x.nodeName ∨
        q.Lists x.nodeName ∧ m.Gains P m' x.nodeName (q.pin? x.nodeName) := by
      rcases hcall with ⟨-, hresolved⟩ | ⟨-, -, -, -, hcache⟩
      · exact hresolved.others _ hname
      · exact Or.inl (Memory.recorded?_congr hcache _)
    refine ⟨hsteady, fun hnone => ?_, fun value hvalue => ⟨?_, fun hqx' => absurd hqx' hqx⟩⟩
    · rcases hnode with hsame | ⟨hlists, hgains⟩
      · exact Or.inl ⟨hsame.trans hnone, fun hqx' => absurd hqx' hqx⟩
      · rcases Records.of_gains hnone rfl hlists (fun hqx' => absurd hqx' hqx) hgains with
          hstill | hfirst
        · exact Or.inl ⟨hstill, fun hqx' => absurd hqx' hqx⟩
        · exact Or.inr hfirst
    · rcases hnode with hsame | ⟨-, hsame | ⟨hnone, -⟩⟩
      · exact hsame.trans hvalue
      · exact hsame.trans hvalue
      · rw [hnone] at hvalue
        exact absurd hvalue (by simp)

/-- Either a node is not recorded, and its calls have all failed, or there is a call that recorded it
first, and all later calls of the node come to that record. -/
theorem first_record (hvalid : s.config.validate = .ok ()) (hw : w.Steady P s.lifetime)
    (hx : x ∈ s.config.peers) (hda : x.nodeType = .da) (hrun : Run (Called w s) {} calls m)
    (hpeers : ∀ call ∈ calls, call.1 ∈ s.config.peers) :
    m.Steady w P s.config ∧
    ((m.recorded? x.nodeName = none ∧ ∀ res, (x, .ok res) ∉ calls) ∨
      ∃ before q result after m₁ value, calls = before ++ (q, result) :: after ∧
        Run (Called w s) {} before m₁ ∧ m₁.recorded? x.nodeName = none ∧
        (∀ res, (x, .ok res) ∉ before) ∧ m.recorded? x.nodeName = some value ∧
        Records P x q result value ∧
        ∀ r, (x, r) ∈ after → r = .ok ⟨x.nodeName, some value, none, true⟩) := by
  induction hrun with
  | refl => exact ⟨Memory.steady_empty w P s.config, Or.inl ⟨rfl, by simp⟩⟩
  | @tail m₁ m₂ log shown run step ih =>
    obtain ⟨q, result, rfl⟩ : ∃ q result, shown = [(q, result)] := by
      cases step with
      | ended => exact ⟨_, _, rfl⟩
    obtain ⟨hm₁, hlog⟩ := ih fun call hcall => hpeers call (List.mem_append_left _ hcall)
    have hq : q ∈ s.config.peers := hpeers (q, result) (List.mem_append_right _ List.mem_cons_self)
    obtain ⟨hm₂, hfirst, hkeep⟩ := step.record hw hm₁ hvalid hq hx hda
    refine ⟨hm₂, ?_⟩
    -- Until there is a record, the last call may make the first one; from then on none changes it.
    rcases hlog with ⟨hnone, hfailed⟩ |
      ⟨before, q', result', after, m₀, value, rfl, hbefore, hnone, hfailed, hvalue, hrecords, hlater⟩
    · rcases hfirst hnone with ⟨hstill, hself⟩ | ⟨value, hvalue, hrecords⟩
      · refine Or.inl ⟨hstill, fun res hmem => ?_⟩
        rcases List.mem_append.1 hmem with hmem | hmem
        · exact hfailed res hmem
        · obtain ⟨rfl, rfl⟩ := Prod.mk.inj (List.mem_singleton.1 hmem)
          obtain ⟨e, he⟩ := hself rfl
          exact absurd he (by simp)
      · exact Or.inr ⟨log, q, result, [], m₁, value, rfl, run, hnone, hfailed, hvalue, hrecords,
          by simp⟩
    · obtain ⟨hvalue', hself⟩ := hkeep value hvalue
      refine Or.inr ⟨before, q', result', after ++ [(q, result)], m₀, value, ?_, hbefore, hnone,
        hfailed, hvalue', hrecords, fun r hmem => ?_⟩
      · rw [List.append_assoc, List.cons_append]
      · rcases List.mem_append.1 hmem with hmem | hmem
        · exact hlater r hmem
        · obtain ⟨rfl, rfl⟩ := Prod.mk.inj (List.mem_singleton.1 hmem)
          exact hself rfl

/-! ## Runs to look at -/

/-- Resolve peers one after another, at one instant, with given answers to all commands. -/
def resolveAll? (now : Instant) (answers : Request → Except ExecError String) (s : Settings) :
    Memory → List Peer → Option (List (Peer × Except ResolveError Resolution) × Memory)
  | m, [] => some ([], m)
  | m, p :: ps =>
    match Pool.finishAll? now answers [0] (Pool.alone m (resolve s p).run) with
    | some (_, pool) =>
      match pool.ending? 0 with
      | some (.value result) =>
        (resolveAll? now answers s pool.memory ps).map fun rest => ((p, result) :: rest.1, rest.2)
      | _ => none
    | none => none

theorem resolveAll?_run {now : Instant} {answers : Request → Except ExecError String}
    {ps : List Peer} (h : resolveAll? now answers s m ps = some (calls, m')) :
    Run (Called (.still now answers) s) m calls m' := by
  induction ps generalizing m calls with
  | nil =>
    obtain ⟨rfl, rfl⟩ := Prod.mk.inj (Option.some.inj h)
    exact .refl m
  | cons p ps ih =>
    unfold resolveAll? at h
    split at h
    · rename_i log pool hfinish
      split at h
      · rename_i result hended
        obtain ⟨⟨rest, m₁⟩, hrest, hx⟩ := Option.map_eq_some_iff.1 h
        obtain ⟨rfl, rfl⟩ := Prod.mk.inj hx
        have hrun := Pool.finishAll?_run (w := .still now answers) rfl (fun _ => rfl) hfinish
        have hcall := Run.single (Called.ended hrun (Pool.ending?_eq_some.1 hended))
        exact hcall.trans (ih hrest)
      · exact absurd h (by simp)
    · exact absurd h (by simp)

/-- A peer that pins a DNS name for its dependency. -/
def pinner : Peer :=
  { nodeName := "da-one", connectsTo := ["da-two"], dnsConnections := ["two.example"] : Peer
    }.withDefaults "default"

/-- The dependency. -/
def pinned : Peer := { nodeName := "da-two" : Peer }.withDefaults "default"

/-- The settings with the two. -/
def pinSettings : Settings := { config := ⟨[{ peers := [pinner, pinned] }]⟩ }

/-- The probes by which all nodes have one identifier and one address. -/
def sampleProbes : Probes :=
  ⟨fun node => sampleAnswer ⟨node, "", "", .peerInfo⟩, fun node => sampleAnswer ⟨node, "", "", .nodeIp⟩⟩

theorem steady_sample : World.Steady (.still 0 sampleAnswer) sampleProbes defaultLifetime where
  id _ _ h := h
  ip _ _ h := h
  span := by
    rintro t t' rfl rfl
    decide

/-- The address of the dependency as its dependent sees it. -/
def pinnedAddress : String :=
  "/dns/two.example/tcp/2121/p2p/12D3KooWAbCdEfGhIjKlMnOpQrStUvWxYz123456789abcdefghi"

/-- The peer that pins a name comes first, and what it sees is what its dependency is known by. -/
theorem pinner_first : ∃ calls m, Run (Called (.still 0 sampleAnswer) pinSettings) {} calls m ∧
    calls.map Prod.fst = [pinner, pinned] ∧
    (pinned, .ok ⟨"da-two", some pinnedAddress, none, true⟩) ∈ calls ∧
    m.cache.get? 0 "da-two" = some pinnedAddress := by
  have h : ∃ x ∈ resolveAll? 0 sampleAnswer pinSettings {} [pinner, pinned],
      x.1.map Prod.fst = [pinner, pinned] ∧
      (pinned, .ok ⟨"da-two", some pinnedAddress, none, true⟩) ∈ x.1 ∧
      x.2.cache.get? 0 "da-two" = some pinnedAddress := by
    decide +kernel
  obtain ⟨⟨calls, m⟩, hx, horder, hmem, hrecorded⟩ := h
  exact ⟨calls, m, resolveAll?_run hx, horder, hmem, hrecorded⟩

/-! ## What decides -/

/-- For every order in which configured peers are resolved, the call that records a node first decides
what the cache knows of it in the end and what all later calls of the node come to. That is the node's
own address if and only if the call was the node's own and went well, or was the call of a peer that
pins for the node just the DNS name, or none, under which the node makes itself known. -/
theorem address_decided_by_first_record (hvalid : s.config.validate = .ok ())
    (hw : w.Steady P s.lifetime) (hx : x ∈ s.config.peers) (hda : x.nodeType = .da)
    (hrun : Run (Called w s) {} calls m) (hpeers : ∀ call ∈ calls, call.1 ∈ s.config.peers) :
    ((∀ now, w.timely now → m.cache.get? now x.nodeName = none) ∧ ∀ res, (x, .ok res) ∉ calls) ∨
    ∃ before q result after m₁ value, calls = before ++ (q, result) :: after ∧
      Run (Called w s) {} before m₁ ∧ m₁.recorded? x.nodeName = none ∧
      (∀ res, (x, .ok res) ∉ before) ∧ Records P x q result value ∧
      (∀ now, w.timely now → m.cache.get? now x.nodeName = some value) ∧
      (∀ r, (x, r) ∈ after → r = .ok ⟨x.nodeName, some value, none, true⟩) ∧
      (P.Shows x.nodeName x.ownDns? value ↔
        (q = x ∧ ∃ res, result = .ok res) ∨ q.pin? x.nodeName = x.ownDns?) := by
  obtain ⟨hm, ⟨hnone, hfailed⟩ |
    ⟨before, q, result, after, m₁, value, hcalls, hbefore, hnone, hfailed, hvalue, hrecords, hlater⟩⟩ :=
    first_record hvalid hw hx hda hrun hpeers
  · exact Or.inl ⟨fun now hnow => (hm.get?_eq hnow _).trans hnone, hfailed⟩
  · refine Or.inr ⟨before, q, result, after, m₁, value, hcalls, hbefore, hnone, hfailed, hrecords,
      fun now hnow => (hm.get?_eq hnow _).trans hvalue, hlater, ?_⟩
    rcases hrecords with ⟨hself, ⟨connections, hresult⟩, hown⟩ | ⟨-, hself, hpinned⟩
    · exact ⟨fun _ => Or.inl ⟨hself, _, hresult⟩, fun _ => hown⟩
    · constructor
      · intro hown
        exact Or.inr (hpinned.dns_eq hown)
      · rintro (⟨hqx, res, hresult⟩ | hpin)
        · obtain ⟨e, he⟩ := hself hqx
          rw [hresult] at he
          exact absurd he (by simp)
        · rwa [hpin] at hpinned

/-- What a peer pins for its dependency is what the dependency is known by if the peer comes first. -/
theorem address_decided_by_pinner : ∃ calls m before after q result value,
    Run (Called (.still 0 sampleAnswer) pinSettings) {} calls m ∧
    calls.map Prod.fst = [pinner, pinned] ∧ calls = before ++ (q, result) :: after ∧
    m.cache.get? 0 "da-two" = some value ∧ value = pinnedAddress ∧
    (sampleProbes.Shows "da-two" none value ↔
      (q = pinned ∧ ∃ res, result = .ok res) ∨ q.pin? "da-two" = none) := by
  obtain ⟨calls, m, hrun, horder, hmem, hrecorded⟩ := pinner_first
  have hpeers : ∀ call ∈ calls, call.1 ∈ pinSettings.config.peers := by
    intro call hcall
    have hfst := List.mem_map_of_mem (f := Prod.fst) hcall
    rw [horder] at hfst
    exact hfst
  have h := address_decided_by_first_record (x := pinned) (by decide +kernel) steady_sample
    (by decide) rfl hrun hpeers
  rcases h with ⟨-, hfailed⟩ |
    ⟨before, q, result, after, -, value, hcalls, -, -, -, -, hvalue, -, hown⟩
  · exact absurd hmem (hfailed _)
  · have hknown := hvalue 0 rfl
    have hpinned : value = pinnedAddress := Option.some.inj (hknown.symm.trans hrecorded)
    exact ⟨calls, m, before, after, q, result, value, hrun, horder, hcalls, hknown, hpinned, hown⟩

-- In the other order the dependency is known by its own address.
example : (resolveAll? 0 sampleAnswer pinSettings {} [pinned, pinner]).bind
    (·.2.cache.get? 0 "da-two") = some sampleAddress := by
  decide +kernel

/-- If all peers that look for a node pin for it just what the node makes itself known by, it is known
by its own address, whatever the order. -/
theorem own_address_of_pins (hvalid : s.config.validate = .ok ()) (hw : w.Steady P s.lifetime)
    (hx : x ∈ s.config.peers) (hda : x.nodeType = .da) (hrun : Run (Called w s) {} calls m)
    (hpeers : ∀ call ∈ calls, call.1 ∈ s.config.peers)
    (hpins : ∀ q ∈ s.config.peers, q.Lists x.nodeName → q.pin? x.nodeName = x.ownDns?)
    {res : Resolution} (hres : (x, .ok res) ∈ calls) :
    ∃ value, P.Shows x.nodeName x.ownDns? value ∧ res.address = some value ∧
      m.recorded? x.nodeName = some value := by
  obtain ⟨hm, ⟨-, hfailed⟩ |
    ⟨before, q, result, after, m₁, value, rfl, -, -, hfailed, hvalue, hrecords, hlater⟩⟩ :=
    first_record hvalid hw hx hda hrun hpeers
  · exact absurd hres (hfailed res)
  · have hown : P.Shows x.nodeName x.ownDns? value := by
      rcases hrecords with ⟨-, -, hown⟩ | ⟨hlists, -, hpinned⟩
      · exact hown
      · have hq := hpeers (q, result) (List.mem_append_right _ List.mem_cons_self)
        rwa [hpins q hq hlists] at hpinned
    refine ⟨value, hown, ?_, hvalue⟩
    rcases List.mem_append.1 hres with hmem | hmem
    · exact absurd hmem (hfailed res)
    · rcases List.mem_cons.1 hmem with hmem | hmem
      · obtain ⟨rfl, hresult⟩ := Prod.mk.inj hmem
        rcases hrecords with ⟨-, ⟨connections, hok⟩, -⟩ | ⟨-, hself, -⟩
        · rw [← hresult, Except.ok.injEq] at hok
          rw [hok]
        · obtain ⟨e, he⟩ := hself rfl
          rw [← hresult] at he
          exact absurd he (by simp)
      · rw [Except.ok.inj (hlater _ hmem)]

end Resolve

end Rendezvous
