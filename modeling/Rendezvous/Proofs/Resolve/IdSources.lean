import Rendezvous.Proofs.Address.Parsing
import Rendezvous.Proofs.Propagation.Fanout
import Rendezvous.Proofs.Resolve.Custody

/-!
# Where the identifiers of nodes come from

The identifier of a node comes to a task when the node tells it, when it is recalled, or when it is
read from a record. A task notes, records, registers and tells others of a node only what has come to
it of this node: it takes nothing from one node for another, and it makes nothing up.
-/

namespace Rendezvous

open Routine Attempt

/-! ## Identifiers in texts -/

theorem MultiAddress.length_peerId (a : MultiAddress) : a.peerId.length = peerIdLength := by
  obtain ⟨id, hid, hlength⟩ := a.exists_idPart
  rw [peerId_eq_of_idPart? hid, hlength]

/-- An identifier can be read from a text: as the end of an address, or as the text itself if it is no
address. -/
def Bears (text id : String) : Prop :=
  (∃ a, MultiAddress.parse text = .ok a ∧ a.peerId = id) ∨
    (hasLead text = false ∧ truncatePeerId (Text.trim text) peerIdLength = .ok id)

theorem Bears.length {text id : String} (h : Bears text id) : id.length = peerIdLength := by
  rcases h with ⟨a, -, rfl⟩ | ⟨-, hcut⟩
  · exact a.length_peerId
  · exact length_of_truncatePeerId hcut

/-- A text bears the identifier at its end, if it is an address. -/
theorem bears_of_toOption {text id : String}
    (h : ((MultiAddress.parse text).toOption.map MultiAddress.peerId) = some id) : Bears text id := by
  obtain ⟨a, ha, hid⟩ := Option.map_eq_some_iff.1 h
  cases hparse : MultiAddress.parse text with
  | ok a' =>
    rw [hparse] at ha
    obtain rfl := Option.some.inj ha
    exact .inl ⟨a', hparse, hid⟩
  | error e =>
    rw [hparse] at ha
    exact absurd ha (by simp [Except.toOption])

/-- An address that has been read bears its own identifier and no other. -/
theorem bears_text_iff {text id : String} {a : MultiAddress} (h : MultiAddress.parse text = .ok a) :
    Bears a.text id ↔ a.peerId = id := by
  constructor
  · rintro (⟨a', ha', rfl⟩ | ⟨hlead, -⟩)
    · rw [MultiAddress.parse_text h] at ha'
      rw [Except.ok.inj ha']
    · exact absurd a.hasLead_text (by simp [hlead])
  · intro hid
    exact .inl ⟨a, MultiAddress.parse_text h, hid⟩

/-! ## Identifiers in events -/

namespace TaskEvent

/-- An identifier of a node comes to a task. -/
def Brings (node id : String) : TaskEvent → Prop
  | .answered request answer => request.node = node ∧ toldId? request answer = some id
  | .consulted (.recallId other) known => other = node ∧ known = some id
  | .consulted (.recallAddress other) known => other = node ∧ ∃ a, known = some a ∧ Bears a.text id
  | .consulted (.cacheGet key) answer =>
    key = node ∧ ∃ value, answer = .ok (some value) ∧ Bears value id
  | .consulted .cacheList answer =>
    ∃ records value, answer = .ok records ∧ (node, value) ∈ records ∧ Bears value id
  | _ => False

/-- A task passes an identifier of a node on. -/
def Passes (node id : String) : TaskEvent → Prop
  | .consulted (.noteId other known) _ => other = node ∧ known = id
  | .consulted (.noteAddress other a) _ => other = node ∧ Bears a.text id
  | .consulted (.cacheSet key value _) _ => key = node ∧ Bears value id
  | .consulted (.register other value _) _ => other = node ∧ Bears value id
  | .told writes => ∃ write ∈ writes, write.source = node ∧ ∃ address dir,
      write.request.command = .appendTrustedPeer address dir ∧ Bears address id
  | _ => False

/-- The record that a task reads or writes. -/
def record? : TaskEvent → Option (String × String)
  | .consulted (.cacheGet key) (.ok (some value)) => some (key, value)
  | .consulted (.cacheSet key value _) _ => some (key, value)
  | _ => none

theorem brings_or_passes_of_record? {e : TaskEvent} {node id value : String}
    (h : e.record? = some (node, value)) (hid : Bears value id) :
    e.Brings node id ∨ e.Passes node id := by
  unfold record? at h
  split at h
  · obtain ⟨rfl, rfl⟩ := Prod.mk.inj (Option.some.inj h)
    exact .inl ⟨rfl, _, rfl, hid⟩
  · obtain ⟨rfl, rfl⟩ := Prod.mk.inj (Option.some.inj h)
    exact .inr ⟨rfl, hid⟩
  · exact absurd h (by simp)

end TaskEvent

/-! ## Sources -/

/-- Which identifiers of nodes have a source. -/
structure IdSources where
  /-- An identifier of a node has a source. -/
  id : String → String → Prop
  /-- It has the length of an identifier. -/
  proper : ∀ {node i}, id node i → i.length = peerIdLength

namespace IdSources

variable {K : IdSources} {node : String}

/-- Whatever identifier of a node can be read from a text has a source. -/
def Text (K : IdSources) (node text : String) : Prop := ∀ i, Bears text i → K.id node i

/-- Only identifiers that have a source come with an event. -/
def Admits (K : IdSources) (e : TaskEvent) : Prop := ∀ node i, e.Brings node i → K.id node i

/-- Only identifiers that have a source are passed on with an event. -/
def Lets (K : IdSources) (e : TaskEvent) : Prop := ∀ node i, e.Passes node i → K.id node i

/-- Surroundings in which only what has a source comes to a task, and may be passed on by it. -/
def surroundings (K : IdSources) : Surroundings Unit where
  allows _ e := ∀ answer, ∀ x ∈ e.events answer, K.Lets x
  answers _ e answer _ := ∀ x ∈ e.events answer, K.Admits x

theorem text_of_parse {value : String} {a : MultiAddress} (h : K.Text node value)
    (ha : MultiAddress.parse value = .ok a) : K.Text node a.text := by
  intro i hi
  exact h i (.inl ⟨a, ha, (bears_text_iff ha).1 hi⟩)

/-- The address that is put together from an identifier bears this identifier. -/
theorem text_of_ofHost {i : String} {host : Host} {a : MultiAddress} (h : K.id node i)
    (ha : MultiAddress.ofHost host i = .ok a) : K.Text node a.text := by
  intro i' hi'
  have hpeer : a.peerId = i := MultiAddress.peerId_of_ofHost (K.proper h) ha
  rw [← (bears_text_iff ha).1 hi', hpeer]
  exact h

end IdSources

/-- Everything that has the length of an identifier may have a source. -/
def IdSources.any : IdSources where
  id _ i := i.length = peerIdLength
  proper h := h

/-- What a node tells has the length of an identifier. -/
theorem admits_answered (request : Request) (answer : Except ExecError String) :
    IdSources.any.Admits (.answered request answer) := by
  rintro node i ⟨-, htold⟩
  obtain ⟨-, output, -, hcut⟩ := toldId?_eq_some.1 htold
  exact length_of_truncatePeerId hcut

/-! ## Attempts that can be vouched for -/

section Vouches

variable {α β : Type} {K : IdSources} {P : α → Prop} {P' : β → Prop} {x : Attempt α}

/-- While only what has a source comes to the attempt, it passes nothing else on, and its value
satisfies `P` if there is one. -/
def Vouches (K : IdSources) (P : α → Prop) (x : Attempt α) : Prop :=
  x.run.Ensures K.surroundings (fun result _ => ∀ a, result = .ok a → P a) ()

theorem vouches_pure {a : α} (h : P a) : Vouches K P (pure a) := by
  refine ensures_run_pure.2 fun a' ha' => ?_
  rwa [← Except.ok.inj ha']

theorem vouches_throw (e : ResolveError) : Vouches K P (throw e : Attempt α) :=
  ensures_run_throw.2 fun a ha => absurd ha (by simp)

theorem Vouches.bind {f : α → Attempt β} (h : Vouches K P x) (hf : ∀ a, P a → Vouches K P' (f a)) :
    Vouches K P' (x >>= f) := by
  refine ensures_run_bind.2 (h.mono fun result _ hresult => ?_)
  cases result with
  | ok a => exact hf a (hresult a rfl)
  | error e => exact fun b hb => absurd hb (by simp)

theorem Vouches.map {f : α → β} (h : Vouches K P x) (hf : ∀ a, P a → P' (f a)) :
    Vouches K P' (f <$> x) := by
  rw [map_eq_pure_bind]
  exact h.bind fun a ha => vouches_pure (hf a ha)

theorem vouches_lift {r : Routine α} (h : r.Ensures K.surroundings (fun a _ => P a) ()) :
    Vouches K P (liftM r : Attempt α) := by
  refine ensures_run_lift.2 (h.mono fun a _ ha a' ha' => ?_)
  rwa [← Except.ok.inj ha']

/-- A question to the memory. -/
theorem ensures_question {q : Query} {Q : q.Answer → Unit → Prop}
    (hlets : ∀ answer, K.Lets (.consulted q answer))
    (h : ∀ answer, K.Admits (.consulted q answer) → Q answer ()) :
    (consult q).Ensures K.surroundings Q () := by
  refine ensures_consult.2 ⟨fun answer e he => ?_, fun answer _ hadmits => h answer ?_⟩
  · rw [List.mem_singleton.1 he]
    exact hlets answer
  · exact hadmits _ (List.mem_singleton.2 rfl)

theorem vouches_consult {q : Query} {P : q.Answer → Prop}
    (hlets : ∀ answer, K.Lets (.consulted q answer))
    (h : ∀ answer, K.Admits (.consulted q answer) → P answer) :
    Vouches K P (liftM (consult q) : Attempt q.Answer) :=
  vouches_lift (ensures_question hlets h)

theorem vouches_ofFormat {node : String} {y : Except FormatError α} (h : ∀ a, y = .ok a → P a) :
    Vouches K P (ofFormat node y) := by
  cases y with
  | ok a => exact vouches_pure (h a rfl)
  | error e => exact vouches_throw _

/-- A command passes nothing on under the name of a node, and brings only what is told. -/
theorem vouches_execute {request : Request} {P : String → Prop}
    (h : ∀ output, K.Admits (.answered request (.ok output)) → P output) :
    Vouches K P (execute request) := by
  refine ensures_execute.2 ⟨fun answer e he => ?_, fun answer _ hadmits output houtput => ?_⟩
  · intro node i hpasses
    rcases List.mem_cons.1 he with rfl | he
    · exact hpasses.elim
    · rw [List.mem_singleton.1 he] at hpasses
      exact hpasses.elim
  · cases answer with
    | error e => exact absurd houtput (by simp [Except.mapError])
    | ok output' =>
      obtain rfl := Except.ok.inj houtput
      exact h output' (hadmits _ (List.mem_cons_of_mem _ List.mem_cons_self))

theorem vouches_locked {node : String} (h : Vouches K P x) : Vouches K P (locked node x) := by
  have hquiet : ∀ {e : TaskEvent}, e = .acquired node ∨ e = .released node → K.Lets e := by
    rintro e (rfl | rfl) other i hpasses
    · exact hpasses.elim
    · exact hpasses.elim
  refine ensures_locked.2 ⟨fun _ e he => hquiet (.inl (List.mem_singleton.1 he)), fun _ _ => ?_⟩
  refine Ensures.mono h fun result _ hresult => ⟨fun _ e he => ?_, fun _ _ => hresult⟩
  exact hquiet (.inr (List.mem_singleton.1 he))

end Vouches

namespace Resolve

variable {K : IdSources} {p : Peer}

/-! ## Probes -/

theorem ensures_lookup_sourced (node : String) :
    (lookup node).Ensures K.surroundings
      (fun known _ => ∀ value, known = some value → K.Text node value) () := by
  refine ensures_bind.2 (ensures_question (q := .cacheGet node) (fun _ _ _ => False.elim) ?_)
  intro answer hadmits
  refine ensures_pure.2 fun value hvalue i hi => ?_
  exact hadmits node i ⟨rfl, value, knownValue_eq_some hvalue, hi⟩

theorem ensures_store_sourced (s : Settings) {a : MultiAddress} (h : K.Text p.nodeName a.text) :
    (store s p a).Ensures K.surroundings (fun _ _ => True) () := by
  have hpasses : ∀ other i, p.nodeName = other ∧ Bears a.text i → K.id other i := by
    rintro other i ⟨rfl, hi⟩
    exact h i hi
  refine ensures_bind.2 (ensures_question (q := .cacheSet p.nodeName a.text s.lifetime)
    (fun _ => hpasses) fun _ _ => ?_)
  exact ensures_question (q := .register p.nodeName a.text p.space) (fun _ => hpasses)
    fun _ _ => trivial

theorem vouches_probeIdentity (p : Peer) : Vouches K (K.id p.nodeName) (probeIdentity p) := by
  unfold probeIdentity
  refine (vouches_execute fun output hadmits => hadmits).bind fun output hadmits => ?_
  dsimp only
  split
  · rw [ExceptT.bind_throw]
    exact vouches_throw _
  · refine vouches_ofFormat fun i hi => hadmits p.nodeName i ⟨rfl, ?_⟩
    exact toldId?_eq_some.2 ⟨rfl, output, rfl, hi⟩

theorem vouches_probeIp (p : Peer) : Vouches K (fun _ => True) (probeIp p) := by
  unfold probeIp
  refine (vouches_execute fun _ _ => trivial).bind fun output _ => ?_
  split
  · rw [ExceptT.bind_throw]
    exact vouches_throw _
  · exact vouches_ofFormat fun _ _ => trivial

/-- The identifier of a node is recalled, or told and noted. -/
theorem vouches_peerIdOf (p : Peer) : Vouches K (K.id p.nodeName) (peerIdOf p) := by
  unfold peerIdOf
  refine (vouches_consult (q := .recallId p.nodeName) (fun _ _ _ => False.elim)
    fun _ hadmits => hadmits).bind fun known hadmits => ?_
  cases known with
  | some id => exact vouches_pure (hadmits p.nodeName id ⟨rfl, rfl⟩)
  | none =>
    refine (vouches_probeIdentity p).bind fun id hid => ?_
    refine (vouches_consult (P := fun _ => True) ?_ fun _ _ => trivial).bind fun _ _ =>
      vouches_pure hid
    rintro _ other i ⟨rfl, rfl⟩
    exact hid

theorem vouches_hostOf (p : Peer) (dns : Option String) :
    Vouches K (fun _ => True) (hostOf p dns) := by
  cases dns with
  | some dns => exact vouches_pure trivial
  | none => exact vouches_probeIp p

theorem vouches_ownHost (p : Peer) : Vouches K (fun _ => True) (ownHost p) := by
  unfold ownHost
  split
  · exact vouches_probeIp p
  · exact vouches_pure trivial

/-! ## Addresses -/

/-- What is read from a record for a dependent is passed on to nobody else. -/
theorem vouches_cachedAddress (p : Peer) (dns : Option String) :
    Vouches K (fun _ => True) (cachedAddress p dns) := by
  unfold cachedAddress
  refine (vouches_lift (ensures_lookup_sourced p.nodeName)).bind fun known _ => ?_
  cases known with
  | none => exact vouches_pure trivial
  | some value =>
    dsimp only
    split
    · refine (vouches_ofFormat (P := fun _ => True) fun _ _ => trivial).bind fun known _ => ?_
      cases dns with
      | none => exact vouches_pure trivial
      | some dns => exact (vouches_ofFormat (P := fun _ => True) fun _ _ => trivial).map fun _ h => h
    · refine (vouches_ofFormat (P := fun _ => True) fun _ _ => trivial).bind fun id _ => ?_
      refine (vouches_hostOf p dns).bind fun host _ => ?_
      exact (vouches_ofFormat (P := fun _ => True) fun _ _ => trivial).map fun _ h => h

theorem vouches_probeDependency (s : Settings) (p : Peer) (dns : Option String) :
    Vouches K (fun _ => True) (probeDependency s p dns) := by
  unfold probeDependency
  refine (vouches_peerIdOf p).bind fun id hid => (vouches_hostOf p dns).bind fun host _ => ?_
  refine (vouches_ofFormat fun a ha => IdSources.text_of_ofHost hid ha).bind fun a ha => ?_
  exact (vouches_lift (ensures_store_sourced s ha)).bind fun _ _ => vouches_pure trivial

theorem vouches_dependencyAddress (s : Settings) (p : Peer) (dns : Option String) :
    Vouches K (fun _ => True) (dependencyAddress s p dns) := by
  unfold dependencyAddress
  refine (vouches_cachedAddress p dns).bind fun known _ => ?_
  cases known with
  | some address => exact vouches_pure trivial
  | none =>
    refine vouches_locked ((vouches_cachedAddress p dns).bind fun known _ => ?_)
    cases known with
    | some address => exact vouches_pure trivial
    | none => exact vouches_probeDependency s p dns

theorem vouches_probeOwn (p : Peer) :
    Vouches K (fun a => K.Text p.nodeName a.text) (probeOwn p) := by
  unfold probeOwn
  refine (vouches_peerIdOf p).bind fun id hid => (vouches_ownHost p).bind fun host _ => ?_
  refine (vouches_ofFormat fun a ha => IdSources.text_of_ofHost hid ha).bind fun a ha => ?_
  refine (vouches_consult (P := fun _ => True) ?_ fun _ _ => trivial).bind fun _ _ =>
    vouches_pure ha
  rintro _ other i ⟨rfl, hi⟩
  exact ha i hi

/-- The own address of a node is recalled, read from its record, or put together. -/
theorem vouches_ownAddress (p : Peer) :
    Vouches K (fun a => K.Text p.nodeName a.text) (ownAddress p) := by
  unfold ownAddress
  refine (vouches_consult (q := .recallAddress p.nodeName) (fun _ _ _ => False.elim)
    fun _ hadmits => hadmits).bind fun known hadmits => ?_
  cases known with
  | some a => exact vouches_pure fun i hi => hadmits p.nodeName i ⟨rfl, a, rfl, hi⟩
  | none =>
    refine vouches_locked ((vouches_lift (ensures_lookup_sourced p.nodeName)).bind ?_)
    intro value hvalue
    cases value with
    | some value => exact vouches_ofFormat fun a ha => IdSources.text_of_parse (hvalue value rfl) ha
    | none => exact vouches_probeOwn p

/-! ## Calls -/

theorem vouches_segment (s : Settings) (p : Peer) (i : Nat) (entry : String) :
    Vouches K (fun _ => True) (segment s p i entry) := by
  unfold segment
  split
  · exact vouches_ofFormat fun _ _ => trivial
  · exact vouches_dependencyAddress s _ _

theorem vouches_assembleFrom (s : Settings) (p : Peer) (i : Nat) (entries : List String)
    (connections : Connections) :
    Vouches K (fun _ => True) (assembleFrom s p i entries connections) := by
  induction entries generalizing i connections with
  | nil => exact vouches_pure trivial
  | cons entry entries ih =>
    unfold assembleFrom
    refine (vouches_segment s p i entry).bind fun address _ => ?_
    exact (vouches_ofFormat (P := fun _ => True) fun _ _ => trivial).bind fun connections _ =>
      ih (i + 1) connections

theorem vouches_connect (s : Settings) (p : Peer) :
    Vouches K (fun _ => True) (connect s p) := by
  unfold connect
  split
  · exact vouches_pure trivial
  · split
    · exact (vouches_execute (P := fun _ => True) fun _ _ => trivial).bind fun _ _ =>
        vouches_pure trivial
    · refine Vouches.bind (vouches_assembleFrom s p 0 p.connectsTo .empty) fun connections _ => ?_
      exact (vouches_execute (P := fun _ => True) fun _ _ => trivial).bind fun _ _ =>
        vouches_pure trivial

/-- What is recorded of a node is its own address. -/
theorem vouches_resolveAnew (s : Settings) (p : Peer) :
    Vouches K (fun _ => True) (resolveAnew s p) := by
  unfold resolveAnew
  dsimp only
  split
  · have hown : Vouches K (fun own => ∃ a : MultiAddress, own = some a ∧ K.Text p.nodeName a.text)
        (some <$> ownAddress p) :=
      (vouches_ownAddress p).map fun a ha => ⟨a, rfl, ha⟩
    refine hown.bind fun own hfound => ?_
    obtain ⟨a, rfl, ha⟩ := hfound
    refine (vouches_connect s p).bind fun connections _ => ?_
    refine (vouches_lift (ensures_store_sourced s ha)).bind fun _ _ => ?_
    exact (vouches_consult (q := .dropAddress p.nodeName) (P := fun _ => True)
      (fun _ _ _ => False.elim) fun _ _ => trivial).bind fun _ _ => vouches_pure trivial
  · rw [pure_bind]
    exact (vouches_connect s p).bind fun connections _ => vouches_pure trivial

theorem vouches_resolve (s : Settings) (p : Peer) : Vouches K (fun _ => True) (resolve s p) := by
  unfold resolve
  refine (vouches_lift (ensures_lookup_sourced p.nodeName)).bind fun known hknown => ?_
  cases known with
  | none => exact vouches_resolveAnew s p
  | some value =>
    refine (vouches_consult (P := fun _ => True) ?_ fun _ _ => trivial).bind fun _ _ =>
      vouches_pure trivial
    rintro _ other i ⟨rfl, hi⟩
    exact hknown value rfl i hi

/-- Of a member, a group is told the address that is listed. -/
theorem lets_trustWrites {records : List (String × String)}
    (h : K.Admits (.consulted .cacheList (.ok records))) (g : PeerGroup) :
    K.Lets (.told (g.trustWrites records)) := by
  rintro node i ⟨write, hwrite, rfl, address, dir, hcommand, hi⟩
  obtain ⟨source, -, target, -, -, address', husable, rfl⟩ := PeerGroup.mem_trustWrites.1 hwrite
  obtain ⟨hfind, -⟩ := PeerGroup.usableAddress?_eq_some.1 husable
  obtain ⟨⟨key, value⟩, hrecord, rfl⟩ := Option.map_eq_some_iff.1 hfind
  obtain ⟨rfl, -⟩ := Command.appendTrustedPeer.inj hcommand
  have hkey : key = source.nodeName := by simpa using List.find?_some hrecord
  subst hkey
  exact h source.nodeName i ⟨records, value, rfl, List.mem_of_find?_eq_some hrecord, hi⟩

theorem ensures_propagate_sourced (s : Settings) (node : String) :
    (propagate s node).Ensures K.surroundings (fun _ _ => True) () := by
  unfold propagate
  split
  · exact ensures_pure.2 trivial
  · rename_i group _
    refine ensures_bind.2 (ensures_question (q := .cacheList) (fun _ _ _ => False.elim) ?_)
    intro answer hadmits
    cases answer with
    | error e => exact ensures_pure.2 trivial
    | ok records =>
      dsimp only
      rw [map_eq_pure_bind]
      refine ensures_bind.2 ((@ensures_perform Unit K.surroundings _
        (.propagate (group.trustWrites records)) _).2 ⟨fun report e he => ?_, fun _ _ _ =>
          ensures_pure.2 trivial⟩)
      rcases List.mem_cons.1 he with rfl | he
      · exact lets_trustWrites hadmits group
      · rw [List.mem_singleton.1 he]
        exact fun _ _ => False.elim

theorem vouches_process (s : Settings) (p : Peer) : Vouches K (fun _ => True) (process s p) := by
  unfold process
  refine (vouches_consult (q := .isCancelled) (P := fun _ => True) (fun _ _ _ => False.elim)
    fun _ _ => trivial).bind fun cancelled _ => ?_
  dsimp only
  split
  · rw [ExceptT.bind_throw]
    exact vouches_throw _
  · refine (vouches_resolve s p).bind fun resolution _ => ?_
    split
    · exact (vouches_lift (ensures_propagate_sourced s p.nodeName)).bind fun _ _ =>
        vouches_pure trivial
    · exact vouches_pure trivial

end Resolve

end Rendezvous
