import Rendezvous.Proofs.Pool.Records
import Rendezvous.Proofs.Resolve.IdSources
import Rendezvous.Proofs.Resolve.Hearsay
import Rendezvous.Proofs.Resolve.Solo

/-!
# What a connection string says

An entry of a peer's list is an address itself or the name of a node. For a node, the identifier comes
from its record or from what the node has told, and the host from the peer's own list of DNS names,
from the record or from the node. The entries are gone through in order, and each one may leave a
record for those after it; so the string is described stop by stop, each with the memory it was
reached with.
-/

namespace Rendezvous

namespace Resolve

/-- One entry that has been gone through. -/
structure Stop where
  /-- The entry. -/
  entry : String
  /-- The memory in which it was reached. -/
  before : Memory
  /-- What was recorded of the node of this name. -/
  record : Option String
  /-- The address it has come to. -/
  address : MultiAddress
  /-- The commands that it took, with their answers. -/
  made : List Exchange
  /-- The memory in which it was left. -/
  after : Memory

variable {w : World} {s : Settings} {p d : Peer} {m m' : Memory} {heard : String → String → Prop}
  {i : Nat} {stop : Stop} {stops : List Stop}

/-- Where the identifier of a node comes from, and the commands that it takes to find it. -/
inductive Known (heard : String → String → Prop) (d : Peer) (m : Memory) :
    Option String → String → List Exchange → Prop where
  /-- It stands in the record of the node. -/
  | recorded {value id : String} (h : Bears value id) : Known heard d m (some value) id []
  /-- There is no record, and it was noted when the node told it. -/
  | noted {id output : String} (hnoted : m.memos.ids.get? d.nodeName = some id)
      (hheard : heard d.nodeName output)
      (hcut : truncatePeerId (Text.trim output) peerIdLength = .ok id) : Known heard d m none id []
  /-- There is neither, and the node tells it. -/
  | told {id output : String} (hnone : m.memos.ids.get? d.nodeName = none)
      (hcut : truncatePeerId (Text.trim output) peerIdLength = .ok id) :
      Known heard d m none id [(.main d .peerInfo, .ok output)]

/-- How the identifier of a node is placed at a host, and the commands that it takes to find the host:
by the DNS name that stands for it, by the record of the node, and by what is in neither. -/
inductive Placed (d : Peer) (id : String) : Option String → Option String → String →
    List Exchange → Prop where
  /-- The DNS name is the host. -/
  | pinned (name : String) (record : Option String) :
      Placed d id (some name) record ("/dns/" ++ name ++ "/tcp/2121/p2p/" ++ id) []
  /-- The record is the address. -/
  | whole {value : String} (hlead : hasLead value = true) : Placed d id none (some value) value []
  /-- The host is what the node tells. -/
  | probed {record : Option String} {output : String} {ip : Ipv4}
      (hrecord : ∀ value, record = some value → hasLead value = false)
      (hip : Ipv4.parse? (Text.trim output) = some ip) :
      Placed d id none record ("/ip4/" ++ ip.text ++ "/tcp/2121/p2p/" ++ id)
        [(.main d .nodeIp, .ok output)]

/-- The entry at a position is an address, which is used as it is. -/
structure Stop.Literal (stop : Stop) : Prop where
  literal : isLiteralAddress stop.entry = true
  text : stop.address.text = Text.trim stop.entry
  made : stop.made = []
  after : stop.after = stop.before

/-- The entry at a position is the name of a node. -/
structure Stop.Named (w : World) (s : Settings) (p : Peer) (heard : String → String → Prop) (i : Nat)
    (stop : Stop) : Prop where
  named : isLiteralAddress stop.entry = false
  /-- Whether there is a record is what a look says, at some instant. -/
  looked : ∃ now, w.timely now ∧ stop.before.cache.get? now stop.entry = stop.record
  /-- The address is made up of an identifier and a host. -/
  made : ∃ id asked probed,
    Known heard (dependency s stop.entry p) stop.before stop.record id asked ∧
    Placed (dependency s stop.entry p) id (p.dnsFor? i) stop.record stop.address.text probed ∧
    stop.address.peerId = id ∧ stop.made = asked ++ probed
  /-- What is recorded stays as it is. -/
  kept : stop.record.isSome → stop.after = stop.before
  /-- What is not recorded is recorded, from some instant on. -/
  recorded : stop.record = none → ∃ now expiry, w.timely now ∧
    Instant.after? now s.lifetime = some expiry ∧
    stop.after.cache.records =
      stop.before.cache.records.put stop.entry ⟨stop.address.text, expiry⟩

/-- What the nodes had told of themselves before, or have told in the course of these commands. -/
def hearing (heard : String → String → Prop) (made : List Exchange) (node output : String) : Prop :=
  heard node output ∨
    ∃ request, (request, .ok output) ∈ made ∧ request.node = node ∧ request.command = .peerInfo

/-- The entries of a peer from position `i` on are gone through, one after another. -/
inductive Trip (w : World) (s : Settings) (p : Peer) : Nat → (String → String → Prop) → Memory →
    List Stop → Memory → Prop where
  /-- There are no more entries. -/
  | nil (i : Nat) (heard : String → String → Prop) (m : Memory) : Trip w s p i heard m [] m
  /-- One entry is gone through, and then the others. -/
  | cons {i : Nat} {heard : String → String → Prop} {stop : Stop} {stops : List Stop} {m : Memory}
      (hstop : stop.Literal ∨ stop.Named w s p heard i)
      (rest : Trip w s p (i + 1) (hearing heard stop.made) stop.after stops m) :
      Trip w s p i heard stop.before (stop :: stops) m

/-- The entry is the name of a node that was not recorded. -/
def Stop.Unrecorded (stop : Stop) : Prop :=
  isLiteralAddress stop.entry = false ∧ stop.record = none

/-- What a connection string says, and what comes of putting it together. -/
structure Says (w : World) (s : Settings) (p : Peer) (heard : String → String → Prop) (m : Memory)
    (c : Connections) (stops : List Stop) (made : List Exchange) (m' : Memory) : Prop where
  /-- Every entry was gone through, in the order of the list. -/
  entries : stops.map Stop.entry = p.connectsTo
  /-- The string joins their addresses by commas. -/
  text : c.text = ",".intercalate (stops.map fun stop => stop.address.text)
  /-- How each one has come to its address. -/
  trip : Trip w s p 0 heard m stops m'
  /-- No other commands were run. -/
  made : made = stops.flatMap Stop.made
  /-- The address of a node that was not recorded is recorded afterwards, unless its time was over
  before the same name came again. -/
  afterwards : ∀ before stop after, stops = before ++ stop :: after → stop.Unrecorded →
    ∃ now expiry, w.timely now ∧ Instant.after? now s.lifetime = some expiry ∧
      (m'.cache.records.get? stop.entry = some ⟨stop.address.text, expiry⟩ ∨
        ∃ later, w.timely later ∧ expiry ≤ later ∧
          ∃ again ∈ after, again.entry = stop.entry ∧ again.Unrecorded)

/-! ## What the memory holds -/

/-- A record that holds a whole address and no blanks around it. -/
def FullRecord (value : String) : Prop := ∃ a, MultiAddress.parse value = .ok a ∧ a.text = value

/-- The records are addresses or identifiers, and the notes are what the nodes have told. -/
structure Grounded (heard : String → String → Prop) (m : Memory) : Prop where
  records : ∀ key r, m.cache.records.get? key = some r → FullRecord r.value ∨ BareIdentifier r.value
  ids : ∀ node id, m.memos.ids.get? node = some id → Attested heard node id

theorem Grounded.mono {heard' : String → String → Prop} (h : Grounded heard m)
    (hmore : ∀ node output, heard node output → heard' node output) : Grounded heard' m where
  records := h.records
  ids node id hid := (h.ids node id hid).mono hmore

theorem Grounded.noteId {node id output : String} (h : Grounded heard m) (hheard : heard node output)
    (hcut : truncatePeerId (Text.trim output) peerIdLength = .ok id) :
    Grounded heard (m.noteId node id) where
  records := h.records
  ids := Table.forall_put h.ids ⟨output, hheard, hcut⟩

theorem Grounded.record {a : MultiAddress} {text : String} (h : Grounded heard m)
    (ha : MultiAddress.parse text = .ok a) (d : Peer) (expiry : Instant) :
    Grounded heard (m.record d a expiry) where
  records := Table.forall_put h.records (.inl ⟨a, MultiAddress.parse_text ha, rfl⟩)
  ids := h.ids

/-- A record that is found is an address or an identifier. -/
theorem Grounded.of_get? {now : Instant} {key value : String} (h : Grounded heard m)
    (hvalue : m.cache.get? now key = some value) : FullRecord value ∨ BareIdentifier value := by
  obtain ⟨r, hr, rfl⟩ := TimedCache.get?_eq_some hvalue
  exact h.records key r hr

/-! ## One stop -/

theorem stem_append (h : Host) (id : String) :
    h.stem ++ id = h.lead ++ h.name ++ "/tcp/2121/p2p/" ++ id := by
  have hport : s!"/tcp/{peerPort}" ++ Host.peerMark = "/tcp/2121/p2p/" := rfl
  rw [Host.stem, @String.append_assoc (h.lead ++ h.name) _ _, hport]

/-- An identifier that is not recorded is known from the node. -/
theorem known_of_identified {id : String} {made : List Exchange} (hm : Grounded heard m)
    (h : Identified d m (.ok id) m' made) :
    Known heard d m none id made ∧ Grounded (hearing heard made) m' ∧ m'.cache = m.cache := by
  cases h with
  | noted hnoted =>
    obtain ⟨output, hheard, hcut⟩ := hm.ids _ _ hnoted
    exact ⟨.noted hnoted hheard hcut, hm.mono fun _ _ => .inl, rfl⟩
  | told hnone hread =>
    obtain ⟨output, rfl, -, hcut⟩ := Probes.exists_of_reading hread
    have hheard : hearing heard [(.main d .peerInfo, .ok output)] d.nodeName output :=
      .inr ⟨.main d .peerInfo, List.mem_singleton_self _, rfl, rfl⟩
    have hmore : Grounded (hearing heard [(.main d .peerInfo, .ok output)]) m :=
      hm.mono fun _ _ => .inl
    exact ⟨.told hnone hcut, hmore.noteId hheard hcut, rfl⟩

/-- An identifier is placed at the host that stands for its node. -/
theorem placed_of_hosted {dns record : Option String} {id : String} {host : Host} {a : MultiAddress}
    {made : List Exchange} (hid : id.length = peerIdLength) (h : Hosted d dns (.ok host) made)
    (ha : MultiAddress.ofHost host id = .ok a)
    (hrecord : ∀ value, record = some value → hasLead value = false) :
    Placed d id dns record a.text made := by
  rw [MultiAddress.text_eq_of_ofHost hid ha, stem_append]
  cases dns with
  | some name =>
    cases h with
    | pinned =>
      exact .pinned name record
  | none =>
    generalize hresult : Except.ok host = result at h
    cases h with
    | told answer =>
      obtain ⟨output, rfl, -, hread⟩ := Probes.exists_of_reading hresult.symm
      obtain ⟨ip, hip, rfl⟩ := Host.exists_ip4_of_parseIp hread
      exact .probed hrecord hip

/-- What is recorded of a node tells its identifier, and its host if no DNS name stands for it. -/
theorem placed_of_record {dns : Option String} {value : String} {a : MultiAddress}
    {made : List Exchange} (h : FromRecord d dns value a made)
    (hvalue : FullRecord value ∨ BareIdentifier value) :
    Bears value a.peerId ∧ Placed d a.peerId dns (some value) a.text made := by
  cases h with
  | whole hlead hparse hdns =>
    obtain ⟨b, hb, rfl⟩ := hvalue.resolve_right fun hbare => by simp [hbare.1] at hlead
    rw [hparse] at hb
    obtain rfl := Except.ok.inj hb
    rw [hdns]
    exact ⟨.inl ⟨a, hparse, rfl⟩, .whole hlead⟩
  | @pinned known _ name hlead hparse hdns ha =>
    have hid : a.peerId = known.peerId := MultiAddress.peerId_of_ofHost known.length_peerId ha
    rw [hid, hdns, MultiAddress.text_eq_of_ofHost known.length_peerId ha, stem_append]
    exact ⟨.inl ⟨known, hparse, rfl⟩, .pinned name _⟩
  | bare hlead hcut hhost ha =>
    have hid := length_of_truncatePeerId hcut
    rw [MultiAddress.peerId_of_ofHost hid ha]
    refine ⟨.inr ⟨hlead, hcut⟩, placed_of_hosted hid hhost ha ?_⟩
    intro value' hsame
    obtain rfl := Option.some.inj hsame
    exact hlead

theorem Known.length {record : Option String} {id : String} {made : List Exchange}
    (h : Known heard d m record id made) : id.length = peerIdLength := by
  cases h with
  | recorded h => exact h.length
  | noted _ _ hcut => exact length_of_truncatePeerId hcut
  | told _ hcut => exact length_of_truncatePeerId hcut

/-- A node that is recorded keeps its record. -/
theorem named_of_record {entry value : String} {now : Instant} {a : MultiAddress}
    {made : List Exchange} (hm : Grounded heard m) (hname : isLiteralAddress entry = false)
    (hnow : w.timely now) (hvalue : m.cache.get? now entry = some value)
    (hfrom : FromRecord (dependency s entry p) (p.dnsFor? i) value a made) :
    Stop.Named w s p heard i ⟨entry, m, some value, a, made, m⟩ := by
  obtain ⟨hbears, hplaced⟩ := placed_of_record hfrom (hm.of_get? hvalue)
  exact {
    named := hname
    looked := ⟨now, hnow, hvalue⟩
    made := ⟨a.peerId, [], made, .recorded hbears, hplaced, rfl, rfl⟩
    kept := fun _ => rfl
    recorded := fun hnone => absurd hnone (by simp) }

/-- A node that is not recorded is asked and recorded. -/
theorem named_of_composed {entry : String} {now now' expiry : Instant} {a : MultiAddress}
    {m₁ : Memory} {made : List Exchange} (hm : Grounded heard m)
    (hname : isLiteralAddress entry = false) (hnow : w.timely now)
    (hnone : m.cache.get? now entry = none)
    (hcomposed : Composed (dependency s entry p) (p.dnsFor? i) m (.ok a) m₁ made)
    (hnow' : w.timely now') (hexpiry : Instant.after? now' s.lifetime = some expiry) :
    Stop.Named w s p heard i ⟨entry, m, none, a, made, m₁.record (dependency s entry p) a expiry⟩ ∧
      Grounded (hearing heard made) (m₁.record (dependency s entry p) a expiry) := by
  cases hcomposed with
  | @joined id host _ _ asked probed hid hhost ha =>
    obtain ⟨hknown, hgrounded, hcache⟩ := known_of_identified hm hid
    have hplaced : Placed (dependency s entry p) id (p.dnsFor? i) none a.text probed :=
      placed_of_hosted hknown.length hhost ha (by simp)
    have hrecorded : (m₁.record (dependency s entry p) a expiry).cache.records =
        m.cache.records.put entry ⟨a.text, expiry⟩ := by
      rw [← hcache, Memory.record, dependency_nodeName]
    have hboth : Grounded (hearing heard (asked ++ probed)) m₁ := by
      refine hgrounded.mono fun node output hheard => hheard.imp_right ?_
      rintro ⟨request, hmem, hrequest⟩
      exact ⟨request, List.mem_append_left _ hmem, hrequest⟩
    refine ⟨?_, hboth.record ha _ expiry⟩
    exact {
      named := hname
      looked := ⟨now, hnow, hnone⟩
      made := ⟨id, asked, probed, hknown, hplaced,
        MultiAddress.peerId_of_ofHost hknown.length ha, rfl⟩
      kept := fun hsome => absurd hsome (by simp)
      recorded := fun _ => ⟨now', expiry, hnow', hexpiry, hrecorded⟩ }

/-- An entry that has an address is an address or the name of a node. -/
theorem stop_of_segmented {entry : String} {a : MultiAddress} {made : List Exchange}
    (hm : Grounded heard m) (h : Segmented w s p i entry m (.ok a) m' made) :
    ∃ stop : Stop, stop.entry = entry ∧ stop.before = m ∧ stop.address = a ∧ stop.made = made ∧
      stop.after = m' ∧ (stop.Literal ∨ stop.Named w s p heard i) ∧
      Grounded (hearing heard made) m' := by
  have hmore : ∀ made, Grounded (hearing heard made) m := fun _ => hm.mono fun _ _ => .inl
  cases h with
  | literal hliteral ha =>
    exact ⟨⟨entry, m, none, a, [], m⟩, rfl, rfl, rfl, rfl, rfl,
      .inl ⟨hliteral, MultiAddress.text_of_parse ha, rfl, rfl⟩, hmore []⟩
  | dependency hname h =>
    cases h with
    | found hnow hvalue hfrom =>
      rw [dependency_nodeName] at hvalue
      exact ⟨_, rfl, rfl, rfl, rfl, rfl, .inr (named_of_record hm hname hnow hvalue hfrom),
        hmore made⟩
    | probed hnow hnone hcomposed hnow' hexpiry =>
      rw [dependency_nodeName] at hnone
      obtain ⟨hnamed, hgrounded⟩ :=
        named_of_composed hm hname hnow hnone hcomposed hnow' hexpiry
      exact ⟨_, rfl, rfl, rfl, rfl, rfl, .inr hnamed, hgrounded⟩

/-! ## All stops -/

/-- A record that is there and is not found is over. -/
theorem expired_of_get?_eq_none {c : TimedCache} {now : Instant} {key : String} {r : TimedValue}
    (hr : c.records.get? key = some r) (hvalue : r.value.isEmpty = false)
    (hnone : c.get? now key = none) : r.expiresAt ≤ now := by
  by_contra hlive
  have hlive' : now < r.expiresAt := Nat.lt_of_not_le hlive
  simp [TimedCache.get?, hr, TimedCache.isKnown, TimedCache.isLive, hvalue, hlive'] at hnone

/-- A record stays until it is over and its node is come upon again. -/
theorem Trip.keeps {key text : String} {expiry : Instant} (h : Trip w s p i heard m stops m')
    (hkey : m.cache.records.get? key = some ⟨text, expiry⟩) (htext : text.isEmpty = false) :
    m'.cache.records.get? key = some ⟨text, expiry⟩ ∨ ∃ later, w.timely later ∧ expiry ≤ later ∧
      ∃ again ∈ stops, again.entry = key ∧ again.Unrecorded := by
  induction h with
  | nil => exact .inl hkey
  | @cons i heard stop stops m hstop rest ih =>
    have hlater : stop.after.cache.records.get? key = some ⟨text, expiry⟩ →
        m.cache.records.get? key = some ⟨text, expiry⟩ ∨ ∃ later, w.timely later ∧
          expiry ≤ later ∧ ∃ again ∈ stop :: stops, again.entry = key ∧ again.Unrecorded := by
      intro hafter
      refine (ih hafter).imp_right ?_
      rintro ⟨later, hlater, hover, again, hmem, hagain⟩
      exact ⟨later, hlater, hover, again, List.mem_cons_of_mem _ hmem, hagain⟩
    rcases hstop with hliteral | hnamed
    · exact hlater (hliteral.after ▸ hkey)
    · cases hrecord : stop.record with
      | some value => exact hlater (hnamed.kept (by simp [hrecord]) ▸ hkey)
      | none =>
        by_cases hentry : stop.entry = key
        · obtain ⟨now, hnow, hlook⟩ := hnamed.looked
          rw [hrecord, hentry] at hlook
          exact .inr ⟨now, hnow, expired_of_get?_eq_none hkey htext hlook, stop,
            List.mem_cons_self, hentry, hnamed.named, hrecord⟩
        · obtain ⟨now, expiry', -, -, hput⟩ := hnamed.recorded hrecord
          refine hlater ?_
          rw [hput, Table.get?_put, if_neg (Ne.symm hentry)]
          exact hkey

/-- A node that was not recorded is recorded with the address it has come to. -/
theorem Trip.afterwards {before after : List Stop} (h : Trip w s p i heard m stops m')
    (hsplit : stops = before ++ stop :: after) (hstop : stop.Unrecorded) :
    ∃ now expiry, w.timely now ∧ Instant.after? now s.lifetime = some expiry ∧
      (m'.cache.records.get? stop.entry = some ⟨stop.address.text, expiry⟩ ∨
        ∃ later, w.timely later ∧ expiry ≤ later ∧
          ∃ again ∈ after, again.entry = stop.entry ∧ again.Unrecorded) := by
  induction h generalizing before with
  | nil => exact absurd hsplit (by simp)
  | @cons i heard first stops m hfirst rest ih =>
    cases before with
    | cons stop' before => exact ih (List.cons.inj hsplit).2
    | nil =>
      obtain ⟨rfl, rfl⟩ := List.cons.inj hsplit
      have hnamed : first.Named w s p heard i :=
        hfirst.resolve_left fun hliteral => by simpa [hstop.1] using hliteral.literal
      obtain ⟨now, expiry, hnow, hexpiry, hput⟩ := hnamed.recorded hstop.2
      refine ⟨now, expiry, hnow, hexpiry, rest.keeps ?_ first.address.text_ne_empty⟩
      rw [hput, Table.get?_put, if_pos rfl]

/-- The entries that have come to addresses were gone through one by one. -/
theorem trip_of_assembled {entries : List String} {addresses : List MultiAddress}
    {made : List Exchange} (hm : Grounded heard m)
    (h : Assembled w s p i entries m (.ok addresses) m' made) :
    ∃ stops, stops.map Stop.entry = entries ∧ stops.map Stop.address = addresses ∧
      Trip w s p i heard m stops m' ∧ made = stops.flatMap Stop.made := by
  induction entries generalizing i m heard addresses made with
  | nil =>
    cases h with
    | nil => exact ⟨[], rfl, rfl, .nil i heard _, rfl⟩
  | cons entry entries ih =>
    cases h with
    | cons hsegment hrest =>
      obtain ⟨stop, rfl, rfl, rfl, rfl, rfl, hstop, hafter⟩ := stop_of_segmented hm hsegment
      obtain ⟨stops, rfl, rfl, htrip, rfl⟩ := ih hafter hrest
      exact ⟨stop :: stops, rfl, rfl, .cons hstop htrip, rfl⟩

/-- What the connections of a peer say when they have been put together and nothing else has run. -/
theorem says_of_grounded {log : List (Nat × TaskEvent)}
    {pool : Pool (Except ResolveError Connections)} {c : Connections} (hworks : m.Working)
    (hm : Grounded heard m) (hrun : Run (Pool.Turn w) (Pool.alone m (assemble s p).run) log pool)
    (hended : pool.tasks[0]? = some (.ended (.value (.ok c)))) :
    ∃ stops, Says w s p heard m c stops (exchanges log) pool.memory ∧
      requests log = (exchanges log).map Prod.fst := by
  obtain ⟨hassembled, hrequests⟩ := Attempt.comes_alone (comes_assemble hworks p) hrun hended
  obtain ⟨addresses, hc, h⟩ : ∃ addresses, c = Connections.ofAddresses addresses ∧
      Assembled w s p 0 p.connectsTo m (.ok addresses) pool.memory (exchanges log) := by
    rcases hassembled with ⟨addresses, heq, h⟩ | ⟨e, heq, -⟩
    · exact ⟨addresses, Except.ok.inj heq, h⟩
    · exact absurd heq (by simp)
  obtain ⟨stops, hentries, rfl, htrip, hmade⟩ := trip_of_assembled hm h
  refine ⟨stops, ⟨hentries, ?_, htrip, hmade, fun _ _ _ => htrip.afterwards⟩, hrequests⟩
  rw [hc, Connections.ofAddresses, List.map_map]
  rfl

/-- When a controller that has served any calls puts the connections of a peer together and nothing else
runs, the string that comes of it joins the addresses of the listed entries in their order: an entry
that is an address is used as it is, and any other has the identifier that is recorded of its node, or
else the one that the node has told, at the DNS name that the peer sets for it, or else as it is
recorded, or else at the IP address that the node tells. What was not recorded is recorded so. -/
theorem assembled_as_listed {s₀ : Settings} {w₀ : World} {memory : Memory}
    {past : List ServiceEvent} {p₀ : Pool Upshot} {log : List (Nat × TaskEvent)}
    {pool : Pool (Except ResolveError Connections)} {c : Connections}
    (served : Run (Pool.Service s₀ w₀) { memory } past p₀) (hempty : memory.memos = {})
    (hworks : p₀.memory.Working)
    (hrecords : ∀ key r, p₀.memory.cache.records.get? key = some r →
      FullRecord r.value ∨ BareIdentifier r.value)
    (hrun : Run (Pool.Turn w) (Pool.alone p₀.memory (assemble s p).run) log pool)
    (hended : pool.tasks[0]? = some (.ended (.value (.ok c)))) :
    ∃ stops, Says w s p (Heard past) p₀.memory c stops (exchanges log) pool.memory ∧
      requests log = (exchanges log).map Prod.fst :=
  says_of_grounded hworks ⟨hrecords, (Pool.relays_of_run served hempty).notes⟩ hrun hended

/-- A peer whose entries are of every kind: an address, a node whose record is put at a DNS name, a node
that is recorded by its identifier, and a node that is not recorded. -/
def mixedPeer : Peer where
  nodeName := "da-own"
  connectsTo := ["/dns/boot/tcp/2121/p2p/" ++ laterId, "da-named", "da-bare", "da-new"]
  dnsConnections := ["", "named", "", ""]

/-- The memory in which one node is recorded by its address and another one by its identifier. -/
def mixedMemory : Memory where
  cache := .ofRecords 0 [("da-named", sampleAddress), ("da-bare", laterId)]

/-- The connection string of such a peer. -/
def mixedText : String :=
  ",".intercalate ["/dns/boot/tcp/2121/p2p/" ++ laterId, "/dns/named/tcp/2121/p2p/" ++ sampleId,
    "/ip4/10.0.0.7/tcp/2121/p2p/" ++ laterId, sampleAddress]

theorem records_mixedMemory {key : String} {r : TimedValue}
    (hr : mixedMemory.cache.records.get? key = some r) :
    FullRecord r.value ∨ BareIdentifier r.value := by
  have hmem := Table.mem_entries_of_get? hr
  have hvalue : r.value = sampleAddress ∨ r.value = laterId := by
    rcases List.mem_cons.1 hmem with heq | hmem
    · exact .inl (congrArg (fun e => e.2.value) heq)
    · exact .inr (congrArg (fun e => e.2.value) (List.mem_singleton.1 hmem))
  rcases hvalue with hvalue | hvalue
  · rw [hvalue]
    exact .inl exists_parse_sampleAddress
  · rw [hvalue]
    exact .inr ⟨by decide +kernel, by decide +kernel⟩

/-- Each kind of entry gives its part of the string, and the node that was not recorded is recorded. -/
theorem assembled_as_listed_mixed : ∃ log pool stops,
    Run (Pool.Turn .any) (Pool.alone mixedMemory (assemble { config := ⟨[]⟩ } mixedPeer).run) log
      pool ∧
    pool.tasks[0]? = some (.ended (.value (.ok ⟨mixedText⟩))) ∧
    Says .any { config := ⟨[]⟩ } mixedPeer (Heard []) mixedMemory ⟨mixedText⟩ stops (exchanges log)
      pool.memory ∧
    pool.memory.cache.get? 0 "da-new" = some sampleAddress := by
  have hfinish : ∃ x ∈ Pool.finish? 0 sampleAnswer 0
        (assemble { config := ⟨[]⟩ } mixedPeer).run
        (Pool.alone mixedMemory (assemble { config := ⟨[]⟩ } mixedPeer).run),
      x.2.ending? 0 = some (.value (.ok ⟨mixedText⟩)) ∧
      x.2.memory.cache.get? 0 "da-new" = some sampleAddress := by
    decide +kernel
  obtain ⟨⟨log, pool⟩, hx, hended, hrecorded⟩ := hfinish
  have served : Run (Pool.Service { config := ⟨[]⟩ } .any) { memory := mixedMemory } [] _ := .refl _
  have hrun : Run (Pool.Turn .any) _ log pool :=
    Pool.finish?_run trivial (fun _ => trivial) hx rfl
  have hended' := Pool.ending?_eq_some.1 hended
  obtain ⟨stops, hsays, -⟩ := assembled_as_listed served rfl ⟨rfl, rfl⟩
    (fun _ _ => records_mixedMemory) hrun hended'
  exact ⟨log, pool, stops, hrun, hended', hsays, hrecorded⟩

end Resolve

end Rendezvous
