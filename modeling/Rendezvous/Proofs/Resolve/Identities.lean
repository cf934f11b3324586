import Rendezvous.Proofs.Resolve.Solo

/-!
# Identifiers taken from records and from probes

A recorded address may be put at another host, because its identifier was read from an address
before. An identifier that was cut from the output of a node was not: it is noted as soon as there
are enough characters, and only afterwards found to make no address. Since what is noted is not
probed again, the node fails at every attempt until it is forgotten.
-/

namespace Rendezvous.Resolve

open Attempt MultiAddress

variable {w : World} {s : Settings} {p : Peer} {m m' : Memory} {dns : Option String}

/-! ## Records -/

/-- A recorded address that is found is put at the DNS name that its dependent sets. -/
theorem comes_cachedAddress_pinned {value name : String} {a : MultiAddress} {expiry : Instant}
    (hrecord : m.cache.records.get? p.nodeName = some ⟨value, expiry⟩)
    (hlead : hasLead value = true) (ha : parse value = .ok a) :
    Comes w m (cachedAddress p (some name)) fun result m' made => m' = m ∧ made = [] ∧
      (result = .ok none ∨ ∃ b, result = .ok (some b) ∧
        b.text = (Host.dns name).stem ++ a.peerId ∧ b.peerId = a.peerId) := by
  unfold cachedAddress
  refine comes_glance (fun _ => comes_pure ⟨rfl, rfl, .inl rfl⟩) fun now _ => ?_
  have hget : m.cache.get? now p.nodeName =
      if TimedCache.isKnown now ⟨value, expiry⟩ then some value else none := by
    rw [TimedCache.get?, hrecord]
  by_cases hknown : TimedCache.isKnown now ⟨value, expiry⟩ = true
  · obtain ⟨b, hb, htext, hpeer⟩ := (fits_of_parse ha).exists_ofHost (.dns name)
    rw [hget, if_pos hknown]
    dsimp only
    rw [if_pos hlead, ha]
    refine Comes.format (fun known hparsed => ?_) fun e he => absurd he (by simp)
    obtain rfl := Except.ok.inj hparsed
    rw [hb]
    refine comes_found.mono ?_
    rintro result m' made ⟨rfl, rfl, rfl⟩
    exact ⟨rfl, rfl, .inr ⟨b, rfl, htext, hpeer⟩⟩
  · rw [hget, if_neg hknown]
    exact comes_pure ⟨rfl, rfl, .inl rfl⟩

/-- Putting an address at another host loses nothing. What is read as an address is the text without
the blanks around it, reads as itself again, and is a text that ends in the mark and an identifier
of full length. The identifier makes an address at any host, written as the one after the other,
from which it is read again. So when the record of a node is an address, looking for it on behalf of
a dependent that sets a DNS name cannot fail: a record that is found is put at that name, with the
same identifier, and nothing is probed. -/
theorem peerId_of_rehosted {text : String} {a : MultiAddress} (ha : parse text = .ok a) :
    a.text = Text.trim text ∧ parse a.text = .ok a ∧ a.peerId.length = peerIdLength ∧
    (∃ before, a.text = before ++ Host.peerMark ++ a.peerId) ∧
    (∀ h : Host, ∃ b, ofHost h a.peerId = .ok b ∧ b.text = h.stem ++ a.peerId ∧
      b.peerId = a.peerId) ∧
    ∀ (w : World) (m : Memory) (p : Peer) (name : String) (expiry : Instant),
      hasLead text = true → m.cache.records.get? p.nodeName = some ⟨text, expiry⟩ →
      Comes w m (cachedAddress p (some name)) fun result m' made => m' = m ∧ made = [] ∧
        (result = .ok none ∨ ∃ b, result = .ok (some b) ∧
          b.text = (Host.dns name).stem ++ a.peerId ∧ b.peerId = a.peerId) := by
  have hfits := fits_of_parse ha
  refine ⟨text_of_parse ha, parse_text ha, hfits.full, ?_, hfits.exists_ofHost,
    fun w m p name expiry hlead hrecord => comes_cachedAddress_pinned hrecord hlead ha⟩
  obtain ⟨id, hid, -⟩ := a.exists_idPart
  rw [peerId_eq_of_idPart? hid]
  unfold idPart? at hid
  obtain ⟨⟨before, after⟩, hsplit, rfl⟩ := Option.map_eq_some_iff.1 hid
  refine ⟨String.ofList before, ?_⟩
  rw [← String.toList_inj, Text.eq_of_splitLast? hsplit, String.toList_append,
    String.toList_append, String.toList_ofList, String.toList_ofList]

/-- A record with a host that holds the mark and blanks, and with blanks after it. -/
def oddRecord : String := "/dns/two /p2p/ words/tcp/2121/p2p/" ++ sampleId ++ " \n"

/-- The address that is read from it. -/
def oddAddress : MultiAddress :=
  ⟨"/dns/two /p2p/ words/tcp/2121/p2p/" ++ sampleId, by decide +kernel⟩

theorem peerId_of_rehosted_odd :
    parse oddRecord = .ok oddAddress ∧ oddAddress.peerId = sampleId ∧
    (∃ b, ofHost (.dns " /p2p/") oddAddress.peerId = .ok b ∧
      b.text = (Host.dns " /p2p/").stem ++ oddAddress.peerId ∧ b.peerId = oddAddress.peerId) ∧
    Comes .any { cache := .ofRecords 0 [("da-one", oddRecord)] }
      (cachedAddress { nodeName := "da-one" } (some "boot")) fun result m' made =>
        m' = { cache := .ofRecords 0 [("da-one", oddRecord)] } ∧ made = [] ∧
        (result = .ok none ∨ ∃ b, result = .ok (some b) ∧
          b.text = (Host.dns "boot").stem ++ oddAddress.peerId ∧
          b.peerId = oddAddress.peerId) := by
  have ha : parse oddRecord = .ok oddAddress := parse_eq_ok_iff.2 (by decide +kernel)
  obtain ⟨-, -, -, -, hhosts, hrecords⟩ := peerId_of_rehosted ha
  exact ⟨ha, by decide +kernel, hhosts (.dns " /p2p/"),
    hrecords .any _ { nodeName := "da-one" } "boot" _ (by decide +kernel) rfl⟩

/-! ## Probes -/

/-- What an attempt comes to that fails, changes nothing and asks a node for no more than its IP
address. -/
def Barren {α : Type} (p : Peer) (m : Memory) (result : Except ResolveError α) (m' : Memory)
    (made : List Exchange) : Prop :=
  (∃ e, result = .error e) ∧ m' = m ∧ ∀ x ∈ made, x.1 = .main p .nodeIp

section Noted

variable {id : String} (hnoted : m.memos.ids.get? p.nodeName = some id)

include hnoted

/-- An identifier that is noted is not asked for. -/
theorem Identified.of_noted {result : Except ResolveError String} {made : List Exchange}
    (h : Identified p m result m' made) : result = .ok id ∧ m' = m ∧ made = [] := by
  cases h with
  | noted h =>
    rw [hnoted, Option.some.injEq] at h
    exact ⟨by rw [h], rfl, rfl⟩
  | told hnone h => exact absurd (hnoted.symm.trans hnone) (by simp)
  | refused hnone h => exact absurd (hnoted.symm.trans hnone) (by simp)

/-- No address is made from an identifier that does not fit. -/
theorem Composed.barren (hid : id.length = peerIdLength) (hunfit : ¬ Fits id)
    {result : Except ResolveError MultiAddress} {made : List Exchange}
    (h : Composed p dns m result m' made) : Barren p m result m' made := by
  have hhost : ∀ {host made'}, Hosted p dns host made' → ∀ x ∈ made', x.1 = .main p .nodeIp := by
    intro host made' hhost x hx
    cases hhost with
    | pinned name => exact absurd hx (List.not_mem_nil)
    | told answer => rw [List.mem_singleton.1 hx]
  cases h with
  | unidentified hid => exact absurd (Identified.of_noted hnoted hid).1 (by simp)
  | unhosted hid h =>
    obtain ⟨-, rfl, rfl⟩ := Identified.of_noted hnoted hid
    exact ⟨⟨_, rfl⟩, rfl, hhost h⟩
  | unjoined hid h ha =>
    obtain ⟨-, rfl, rfl⟩ := Identified.of_noted hnoted hid
    exact ⟨⟨_, rfl⟩, rfl, hhost h⟩
  | @joined id' host a _ _ _ hid' h ha =>
    obtain ⟨heq, -⟩ := Identified.of_noted hnoted hid'
    obtain rfl := Except.ok.inj heq
    rcases ofHost_cases hid host with ⟨hfits, -⟩ | ⟨-, text, n, -, he⟩
    · exact absurd hfits hunfit
    · exact absurd (he.symm.trans ha) (by simp)

theorem comes_probeDependency_barren (hid : id.length = peerIdLength) (hunfit : ¬ Fits id) :
    Comes w m (probeDependency s p dns) (Barren p m) := by
  unfold probeDependency
  refine comes_composed (fun a m' made h => ?_) fun e m' made h => h.barren hnoted hid hunfit
  obtain ⟨⟨e, he⟩, -⟩ := h.barren hnoted hid hunfit
  exact absurd he (by simp)

theorem comes_resolve_barren (hid : id.length = peerIdLength) (hunfit : ¬ Fits id) (hm : m.Working)
    (hadvertises : p.nodeType.advertises = true)
    (hpending : m.memos.addresses.get? p.nodeName = none)
    (hnone : ∀ now, w.timely now → m.cache.get? now p.nodeName = none) :
    Comes w m (resolve s p) (Barren p m) := by
  have howned : ∀ {result m' made}, Owned p m result m' made → Barren p m result m' made := by
    intro result m' made h
    cases h with
    | pending h => exact absurd (hpending.symm.trans h) (by simp)
    | lost _ hprobe => exact hprobe.barren hnoted hid hunfit
    | probed _ hprobe =>
      obtain ⟨⟨e, he⟩, -⟩ := hprobe.barren hnoted hid hunfit
      exact absurd he (by simp)
  refine (comes_resolve hm hadvertises hnone).mono ?_
  intro result m' made h
  cases h with
  | unowned hown =>
    obtain ⟨-, hrest⟩ := howned hown
    exact ⟨⟨_, rfl⟩, hrest⟩
  | unconnected hown _ =>
    obtain ⟨⟨e, he⟩, -⟩ := howned hown
    exact absurd he (by simp)
  | resolved hown _ =>
    obtain ⟨⟨e, he⟩, -⟩ := howned hown
    exact absurd he (by simp)

end Noted

/-- Output that is long enough for an identifier is cut to its length, whatever is in it. -/
theorem reading_of_long_output {raw : String} (hraw : peerIdLength ≤ (Text.trim raw).length) :
    ∃ id, truncatePeerId (Text.trim raw) peerIdLength = .ok id ∧
      id.toList = (Text.trim raw).toList.take peerIdLength ∧ ∀ node, Probes.reading node (.ok raw)
        (fun output => truncatePeerId (Text.trim output) peerIdLength) = .ok id := by
  have htaken := String.toList_ofList (l := (Text.trim raw).toList.take peerIdLength)
  have hcut := truncatePeerId_eq_ok_iff.2 ⟨hraw, htaken⟩
  have hnonempty : (Text.trim raw).isEmpty = false := by
    rw [Bool.eq_false_iff]
    intro hempty
    rw [String.isEmpty_iff.1 hempty] at hraw
    exact absurd hraw (by decide)
  refine ⟨_, hcut, htaken, fun node => ?_⟩
  rw [Probes.reading, hnonempty, hcut]
  rfl

/-- An identifier that was asked for is the one that the answer reads as, and it is noted. -/
theorem Identified.of_asked {raw id : String} (hreading : ∀ node, Probes.reading node (.ok raw)
      (fun output => truncatePeerId (Text.trim output) peerIdLength) = .ok id)
    {result : Except ResolveError String} {made : List Exchange}
    (h : Identified p m result m' made) (hmade : made = [(.main p .peerInfo, .ok raw)]) :
    result = .ok id ∧ m' = m.noteId p.nodeName id := by
  cases h with
  | noted h => exact absurd hmade (by simp)
  | told hnone h =>
    obtain rfl := (Prod.mk.inj (List.singleton_inj.1 hmade)).2
    obtain rfl := Except.ok.inj ((hreading _).symm.trans h)
    exact ⟨rfl, rfl⟩
  | refused hnone h =>
    obtain rfl := (Prod.mk.inj (List.singleton_inj.1 hmade)).2
    exact absurd ((hreading _).symm.trans h) (by simp)

/-- What becomes of the output of a node that is long enough for an identifier. Its first characters
are cut off and noted, whatever they are. If they fit, they make an address at every host. If they
end in a blank, or the mark comes again in them or at their beginning, they make one at no host,
because what is read behind the last mark is too short; and since they are noted, each further
attempt to probe the node fails for that reason and leaves them noted. -/
theorem identifier_of_long_output {raw : String} (hraw : peerIdLength ≤ (Text.trim raw).length) :
    ∃ id, truncatePeerId (Text.trim raw) peerIdLength = .ok id ∧
      id.toList = (Text.trim raw).toList.take peerIdLength ∧
      (∀ w m p, Comes w m (peerIdOf p) fun result m' made =>
        made = [(.main p .peerInfo, .ok raw)] →
          result = .ok id ∧ m' = m.noteId p.nodeName id) ∧
      (∀ h : Host, Fits id ∧ (∃ a, ofHost h id = .ok a ∧ a.text = h.stem ++ id ∧ a.peerId = id) ∨
        ¬ Fits id ∧ ∃ text n, n < peerIdLength ∧
          ofHost h id = .error (.wrongIdLength text peerIdLength n)) ∧
      (¬ Fits id → ∀ w s m p, m.memos.ids.get? p.nodeName = some id →
        (∀ dns, Comes w m (probeDependency s p dns) (Barren p m)) ∧
        (m.Working → p.nodeType.advertises = true → m.memos.addresses.get? p.nodeName = none →
          (∀ now, w.timely now → m.cache.get? now p.nodeName = none) →
          Comes w m (resolve s p) (Barren p m))) := by
  obtain ⟨id, hcut, htaken, hreading⟩ := reading_of_long_output hraw
  have hid := length_of_truncatePeerId hcut
  refine ⟨id, hcut, htaken, fun w m p => ?_, ofHost_cases hid, fun hunfit w s m p hnoted => ?_⟩
  · exact (comes_peerIdOf p).mono fun result m' made h => h.of_asked hreading
  · exact ⟨fun dns => comes_probeDependency_barren hnoted hid hunfit,
      fun hm hadvertises hpending hnone =>
        comes_resolve_barren hnoted hid hunfit hm hadvertises hpending hnone⟩

/-- The output of a node with a blank where an identifier would have its last character. -/
def noisyOutput : String := "12D3KooWAbCdEfGhIjKlMnOpQrStUvWxYz123456789abcdefgh trailing noise"

theorem identifier_of_long_output_noisy : peerIdLength ≤ (Text.trim noisyOutput).length ∧
    ∃ id, truncatePeerId (Text.trim noisyOutput) peerIdLength = .ok id ∧ ∀ h : Host, ∃ text n,
      n < peerIdLength ∧ ofHost h id = .error (.wrongIdLength text peerIdLength n) := by
  have hraw : peerIdLength ≤ (Text.trim noisyOutput).length := by decide +kernel
  obtain ⟨id, hid, hcut, -, hhosts, -⟩ := identifier_of_long_output hraw
  refine ⟨hraw, id, hid, fun h => (hhosts h).elim (fun hfits => ?_) (·.2)⟩
  have hblank : ' ' ∈ id.toList.getLast? := by
    rw [hcut]
    decide +kernel
  exact absurd (hfits.1.closed _ hblank) (by decide)

end Rendezvous.Resolve
