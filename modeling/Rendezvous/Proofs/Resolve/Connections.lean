import Mathlib.Data.List.Forall2
import Rendezvous.Proofs.Address.Segments
import Rendezvous.Proofs.Resolve.Yields

/-!
# Connections and commas

What a node is told to connect to are addresses joined by commas, one for each of its dependencies and
in their order. Nothing keeps commas out of them. They can come from a listed address, from a DNS name
that is set for a dependency and from an identifier, whether it has been probed, noted or recorded; if
none of these has one, the connections have one segment for each dependency, each of them an address.
-/

namespace Rendezvous

/-- No text that has been answered, and of which a part can become a part of an address, has a
comma. -/
def TaskEvent.NoComma : TaskEvent → Prop
  | .consulted (.cacheGet _) answer => ∀ value, answer = .ok (some value) → CommaFree value
  | .consulted (.recallId _) answer => ∀ id, answer = some id → CommaFree id
  | .answered request answer =>
    request.command = .peerInfo → ∀ output, answer = .ok output → CommaFree output
  | _ => True

theorem Peer.mem_of_dnsFor? {p : Peer} {i : Nat} {name : String} (h : p.dnsFor? i = some name) :
    name ∈ p.dnsConnections := by
  unfold Peer.dnsFor? at h
  split at h
  · rename_i name' hname
    split at h
    · exact absurd h (by simp)
    · rw [← Option.some.inj h]
      exact List.mem_of_getElem? hname
  · exact absurd h (by simp)

namespace Resolve

open Routine Attempt

variable {s : Settings} {p : Peer} {dns : Option String} {t : List TaskEvent} {c : Connections}

/-! ## Where commas come from -/

theorem yields_lookup (node : String) :
    Yields TaskEvent.NoComma (fun known => ∀ value, known = some value → CommaFree value)
      (liftM (lookup node)) := by
  refine yields_lift fun t known hends hE value hvalue => ?_
  obtain ⟨t₁, answer, t₂, rfl, hasked, hrest⟩ := ends_bind.1 hends
  obtain rfl := ends_consult.1 hasked
  obtain ⟨rfl, rfl⟩ := ends_pure.1 hrest
  exact hE (.consulted (.cacheGet node) answer) (by simp) value (knownValue_eq_some hvalue)

theorem yields_peerIdOf (p : Peer) : Yields TaskEvent.NoComma CommaFree (peerIdOf p) := by
  have hrecall : Yields TaskEvent.NoComma (fun known => ∀ id, known = some id → CommaFree id)
      (liftM (consult (.recallId p.nodeName))) := by
    refine yields_lift fun t known hends hE => ?_
    obtain rfl := (@ends_consult t (.recallId p.nodeName) known).1 hends
    exact hE (.consulted (.recallId p.nodeName) known) (by simp)
  have hprobe : Yields TaskEvent.NoComma CommaFree (probeIdentity p) :=
    yields_probe fun output id houtput hcut => (houtput rfl output rfl).trim.truncatePeerId hcut
  unfold peerIdOf
  refine hrecall.bind fun known hknown => ?_
  cases known with
  | some id => exact yields_pure (hknown id rfl)
  | none =>
    refine hprobe.bind fun id hid => ?_
    exact (yields_lift fun _ _ _ _ => trivial).bind fun _ _ => yields_pure hid

/-- The host of a dependency is an address, which has no comma, or a DNS name. -/
theorem yields_hostOf (p : Peer) (h : ∀ name, dns = some name → CommaFree name) :
    Yields TaskEvent.NoComma (fun host : Host => CommaFree host.name) (hostOf p dns) := by
  cases dns with
  | some name => exact yields_pure (h name rfl)
  | none =>
    refine yields_probe fun output host _ hread => ?_
    obtain ⟨ip, -, rfl⟩ := Host.exists_ip4_of_parseIp hread
    exact .ipv4 ip

theorem yields_cachedAddress (p : Peer) (h : ∀ name, dns = some name → CommaFree name) :
    Yields TaskEvent.NoComma (fun known => ∀ a : MultiAddress, known = some a → CommaFree a.text)
      (cachedAddress p dns) := by
  have hsome : ∀ {host : Host} {id : String}, CommaFree host.name → CommaFree id →
      Yields TaskEvent.NoComma (fun known => ∀ a : MultiAddress, known = some a → CommaFree a.text)
        (some <$> ofFormat p.nodeName (MultiAddress.ofHost host id)) := by
    intro host id hname hid
    have hof : Yields TaskEvent.NoComma (fun a : MultiAddress => CommaFree a.text)
        (ofFormat p.nodeName (MultiAddress.ofHost host id)) :=
      yields_ofFormat fun a ha => .ofHost hname hid ha
    refine hof.map fun a ha a' heq => ?_
    rwa [← Option.some.inj heq]
  unfold cachedAddress
  refine (yields_lookup p.nodeName).bind fun known hknown => ?_
  cases known with
  | none => exact yields_pure (by simp)
  | some value =>
    have hvalue := hknown value rfl
    dsimp only
    split
    · refine (yields_ofFormat fun a ha => hvalue.parse ha).bind fun a ha => ?_
      cases dns with
      | none =>
        refine yields_pure fun a' heq => ?_
        rwa [← Option.some.inj heq]
      | some name => exact hsome (h name rfl) (MultiAddress.commaFree_peerId ha)
    · refine (yields_ofFormat fun id hcut => hvalue.trim.truncatePeerId hcut).bind fun id hid => ?_
      exact (yields_hostOf p h).bind fun host hname => hsome hname hid

theorem yields_dependencyAddress (s : Settings) (p : Peer)
    (h : ∀ name, dns = some name → CommaFree name) :
    Yields TaskEvent.NoComma (fun a : MultiAddress => CommaFree a.text)
      (dependencyAddress s p dns) := by
  have hprobe : Yields TaskEvent.NoComma (fun a : MultiAddress => CommaFree a.text)
      (probeDependency s p dns) := by
    refine (yields_peerIdOf p).bind fun id hid => (yields_hostOf p h).bind fun host hname => ?_
    refine (yields_ofFormat fun a ha => CommaFree.ofHost hname hid ha).bind fun a ha => ?_
    exact (yields_lift fun _ _ _ _ => trivial).bind fun _ _ => yields_pure ha
  unfold dependencyAddress
  refine (yields_cachedAddress p h).bind fun known hknown => ?_
  cases known with
  | some a => exact yields_pure (hknown a rfl)
  | none =>
    refine .locked ((yields_cachedAddress p h).bind fun known hknown => ?_)
    cases known with
    | some a => exact yields_pure (hknown a rfl)
    | none => exact hprobe

/-- An address has no comma if neither the list nor the DNS names nor the answers have one. -/
theorem yields_segment (s : Settings) (i : Nat) {entry : String}
    (hliteral : isLiteralAddress entry = true → CommaFree entry)
    (hdns : ∀ name ∈ p.dnsConnections, CommaFree name) :
    Yields TaskEvent.NoComma (fun a : MultiAddress => CommaFree a.text) (segment s p i entry) := by
  unfold segment
  by_cases hentry : isLiteralAddress entry = true
  · rw [if_pos hentry]
    exact yields_ofFormat fun a ha => (hliteral hentry).parse ha
  · rw [if_neg hentry]
    exact yields_dependencyAddress s _ fun name hname => hdns name (Peer.mem_of_dnsFor? hname)

/-! ## How connections are put together -/

/-- An address that is listed is taken as it is. -/
theorem text_of_segment {i : Nat} {entry : String} {a : MultiAddress}
    (h : Ends (segment s p i entry).run t (.ok a)) (hentry : isLiteralAddress entry = true) :
    a.text = Text.trim entry := by
  have hyields : Yields (fun _ => True) (fun a : MultiAddress => a.text = Text.trim entry)
      (segment s p i entry) := by
    unfold segment
    rw [if_pos hentry]
    exact yields_ofFormat fun a ha => MultiAddress.text_of_parse ha
  exact hyields t a h fun _ _ => trivial

/-- An address is added for each entry, found in events of the attempt. -/
theorem ends_assembleFrom {i : Nat} {entries : List String} {done : List MultiAddress}
    (h : Ends (assembleFrom s p i entries (.ofAddresses done)).run t (.ok c)) :
    ∃ addresses,
      List.Forall₂ (fun entry a => ∃ j t', (∀ e ∈ t', e ∈ t) ∧
        Ends (segment s p j entry).run t' (.ok a)) entries addresses ∧
      c = .ofAddresses (done ++ addresses) := by
  induction entries generalizing i t done with
  | nil =>
    obtain ⟨-, hc⟩ := ends_run_pure.1 h
    exact ⟨[], .nil, by rw [Except.ok.inj hc, List.append_nil]⟩
  | cons entry entries ih =>
    obtain ⟨t₁, a, t', rfl, hsegment, hrest⟩ := ends_run_bind_ok.1 h
    rw [Connections.push_ofAddresses] at hrest
    obtain ⟨t₂, c', t₃, rfl, hpushed, hrest⟩ := ends_run_bind_ok.1 hrest
    obtain ⟨-, hc'⟩ := ends_run_pure.1 hpushed
    rw [Except.ok.inj hc'] at hrest
    obtain ⟨addresses, hall, rfl⟩ := ih hrest
    refine ⟨a :: addresses, .cons ⟨i, t₁, fun e he => List.mem_append_left _ he, hsegment⟩ ?_, ?_⟩
    · refine hall.imp fun entry a hfound => ?_
      obtain ⟨j, t'', hmem, hends⟩ := hfound
      refine ⟨j, t'', fun e he => ?_, hends⟩
      exact List.mem_append_right _ (List.mem_append_right _ (hmem e he))
    · rw [List.append_assoc, List.singleton_append]

theorem exists_of_mem_right {α β : Type} {R : α → β → Prop} {as : List α} {bs : List β}
    (h : List.Forall₂ R as bs) {b : β} (hb : b ∈ bs) : ∃ a ∈ as, R a b := by
  induction h with
  | nil => exact absurd hb List.not_mem_nil
  | @cons a b' as bs hhead htail ih =>
    rcases List.mem_cons.1 hb with rfl | hb
    · exact ⟨a, List.mem_cons_self, hhead⟩
    · obtain ⟨a', ha', hr⟩ := ih hb
      exact ⟨a', List.mem_cons_of_mem _ ha', hr⟩

/-- The connections of a node are one address for each of its dependencies, joined by commas. They
fall into one segment for each dependency, each of them an address, if and only if no address has a
comma; and none has if there is none in what the addresses are put together from. -/
theorem connections_well_formed_iff (h : Ends (assemble s p).run t (.ok c)) :
    ∃ addresses : List MultiAddress,
      List.Forall₂ (fun entry a => isLiteralAddress entry = true → a.text = Text.trim entry)
        p.connectsTo addresses ∧
      c = .ofAddresses addresses ∧
      (c.WellFormed p.connectsTo.length ↔ ∀ a ∈ addresses, CommaFree a.text) ∧
      ((∀ entry ∈ p.connectsTo, isLiteralAddress entry = true → CommaFree entry) →
        (∀ name ∈ p.dnsConnections, CommaFree name) → (∀ e ∈ t, e.NoComma) →
        c.WellFormed p.connectsTo.length) := by
  have hempty : Ends (assembleFrom s p 0 p.connectsTo (.ofAddresses [])).run t (.ok c) := h
  obtain ⟨addresses, hall, rfl⟩ := ends_assembleFrom hempty
  rw [List.nil_append]
  have hiff := Connections.wellFormed_ofAddresses addresses
  rw [← hall.length_eq] at hiff
  refine ⟨addresses, ?_, rfl, hiff, fun hliterals hdns hE => hiff.2 ?_⟩
  · refine hall.imp fun entry a hfound hentry => ?_
    obtain ⟨j, t', -, hends⟩ := hfound
    exact text_of_segment hends hentry
  · intro a ha
    obtain ⟨entry, hentry, j, t', hmem, hends⟩ := exists_of_mem_right hall ha
    exact yields_segment s j (hliterals entry hentry) hdns t' a hends fun e he => hE e (hmem e he)

/-- An address with a comma in the name of its host. -/
def doubledAddress : String :=
  "/dns/two,three/tcp/2121/p2p/12D3KooWAbCdEfGhIjKlMnOpQrStUvWxYz123456789abcdefghi"

/-- A peer that lists it. -/
def doubledPeer : Peer :=
  Peer.withDefaults { nodeName := "da-one", connectsTo := [doubledAddress] } "default"

/-- What resolving it goes by. -/
def doubledSettings : Settings := { config := ⟨[{ peers := [doubledPeer] }]⟩ }

/-- A listed address with a comma makes two segments of one dependency, and the first of them names no
peer. -/
theorem connections_well_formed_iff_doubled : ∃ t c, ∃ addresses : List MultiAddress,
    doubledSettings.config.validate = .ok () ∧
    Ends (assemble doubledSettings doubledPeer).run t (.ok c) ∧
    c = .ofAddresses addresses ∧
    c.segments = ["/dns/two",
      "three/tcp/2121/p2p/12D3KooWAbCdEfGhIjKlMnOpQrStUvWxYz123456789abcdefghi"] ∧
    (c.WellFormed doubledPeer.connectsTo.length ↔ ∀ a ∈ addresses, CommaFree a.text) ∧
    ¬ c.WellFormed doubledPeer.connectsTo.length := by
  let a : MultiAddress := ⟨doubledAddress, by decide +kernel⟩
  have hsegment : segment doubledSettings doubledPeer 0 doubledAddress = pure a := by
    have hparse : MultiAddress.parse doubledAddress = .ok a := by decide +kernel
    have hliteral : isLiteralAddress doubledAddress = true := by decide +kernel
    rw [segment, if_pos hliteral, hparse]
    rfl
  have hassemble : assemble doubledSettings doubledPeer = pure (.ofAddresses [a]) := by
    show assembleFrom doubledSettings doubledPeer 0 [doubledAddress] (.ofAddresses []) = _
    rw [assembleFrom, hsegment, pure_bind, Connections.push_ofAddresses]
    rfl
  have hends : Ends (assemble doubledSettings doubledPeer).run [] (.ok (.ofAddresses [a])) := by
    rw [hassemble]
    exact ends_run_pure.2 ⟨rfl, rfl⟩
  obtain ⟨addresses, -, hc, hiff, -⟩ := connections_well_formed_iff hends
  refine ⟨[], .ofAddresses [a], addresses, by decide +kernel, hends, hc, by decide +kernel, hiff, ?_⟩
  intro hwell
  exact absurd hwell.count (by decide +kernel)

end Resolve

end Rendezvous
