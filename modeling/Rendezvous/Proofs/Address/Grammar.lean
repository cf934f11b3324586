import Rendezvous.Proofs.Address.Identifiers

/-!
# The form of an address

An address is documented as a host, a port and an identifier, each after its own lead. What is
accepted is asked for less: it begins like an address, and after its last mark comes an identifier.
So every text in the documented form is accepted if its identifier has no slash, but of what stands
between the lead and the last mark nothing is known.
-/

namespace Rendezvous

namespace MultiAddress

variable {s lead host port id : String} {a : MultiAddress}

/-- The parts of an address in the documented form. -/
structure Formed (lead host port id : String) : Prop where
  lead_eq : lead = Host.ip4Lead ∨ lead = Host.dnsLead
  host_nonempty : host ≠ ""
  host_slash : '/' ∉ host.toList
  dotted : lead = Host.ip4Lead → (Ipv4.parse? host).isSome = true
  port_nonempty : port ≠ ""
  port_digits : ∀ c ∈ port.toList, c.isDigit = true
  port_le : Ipv4.decimalValue port.toList ≤ 65535
  full : id.length = peerIdLength

/-- The parts of an address as they are written. -/
def written (lead host port id : String) : String :=
  lead ++ host ++ "/tcp/" ++ port ++ Host.peerMark ++ id

theorem Formed.hasLead_written (h : Formed lead host port id) :
    hasLead (written lead host port id) = true := by
  unfold written hasLead Text.startsWith
  rcases h.lead_eq with rfl | rfl <;> simp

/-- What is accepted begins like an address and has an identifier after its last mark. -/
theorem exists_parse_iff : (∃ a, parse s = .ok a) ↔ hasLead (Text.trim s) = true ∧
    ∃ body id, Text.trim s = body ++ Host.peerMark ++ id ∧ Fits id := by
  constructor
  · rintro ⟨a, ha⟩
    have hlead := a.hasLead_text
    obtain ⟨id, hid, -⟩ := a.exists_idPart
    have hfits := fits_of_parse ha
    rw [peerId_eq_of_idPart? hid] at hfits
    obtain ⟨⟨before, after⟩, hsplit, rfl⟩ := Option.map_eq_some_iff.1 hid
    have hjoined := Text.eq_of_splitLast? hsplit
    rw [text_of_parse ha] at hlead hjoined
    refine ⟨hlead, String.ofList before, String.ofList after, ?_, hfits⟩
    rw [← String.toList_inj, hjoined, String.toList_append, String.toList_append,
      String.toList_ofList, String.toList_ofList]
  · rintro ⟨hlead, body, id, htext, hfits⟩
    have hfault : fault? (Text.trim s) = none := by
      rw [fault?, if_pos hlead, htext, idPart?_append hfits.marked]
      exact if_pos hfits.full
    exact ⟨⟨_, hfault⟩, parse_eq_ok_iff.2 rfl⟩

theorem toList_written (lead host port id : String) : (written lead host port id).toList =
    (lead ++ host ++ "/tcp/" ++ port).toList ++ (Host.peerMark.toList ++ id.toList) := by
  unfold written
  rw [String.toList_append, String.toList_append, List.append_assoc]

theorem Formed.peerId_eq (h : Formed lead host port id)
    (htext : Text.trim s = written lead host port id) (ha : parse s = .ok a) : a.peerId = id := by
  have hlist := toList_written lead host port id
  rw [← htext, ← text_of_parse ha] at hlist
  have hshort : id.toList.length ≤ peerIdLength := by rw [String.length_toList, h.full]
  rw [← String.toList_inj, eq_of_mark hlist hshort]

/-- The mark is the last one in front of what has no slash. -/
theorem idPart?_of_slash (h : '/' ∉ id.toList) : idPart? (Host.peerMark ++ id) = some id := by
  obtain ⟨before, after, hsplit, -⟩ := @Text.exists_splitLast? Host.peerMark.toList (by decide)
    [] id.toList
  have hjoined := Text.eq_of_splitLast? hsplit
  rw [List.nil_append] at hsplit hjoined
  have hcount := congrArg (List.count '/') hjoined
  have hmark : Host.peerMark.toList.count '/' = 2 := by decide
  simp only [List.count_append, hmark, List.count_eq_zero.2 h] at hcount
  have hbefore : before = [] := by
    cases before with
    | nil => rfl
    | cons c cs =>
      -- the text begins with a slash, so this would be a slash too many
      obtain rfl : '/' = c := (List.cons.inj hjoined).1
      rw [List.count_cons_self] at hcount
      omega
  rw [hbefore, List.nil_append, List.append_cancel_left_eq] at hjoined
  rw [idPart?, String.toList_append, hsplit, ← hjoined]
  simp

theorem Formed.fits (h : Formed lead host port id)
    (htext : Text.trim s = written lead host port id) (hid : '/' ∉ id.toList) : Fits id := by
  refine ⟨h.full, fun c hc => ?_, idPart?_of_slash hid⟩
  obtain ⟨init, hinit⟩ := List.getLast?_eq_some_iff.1 hc
  have hlist := congrArg String.toList htext
  rw [Text.toList_trim, toList_written, hinit, ← List.append_assoc, ← List.append_assoc] at hlist
  exact Text.isBlank_last_of_trimChars hlist

/-- The form can be told from the pieces between the slashes. -/
theorem Formed.pieces (h : Formed lead host port id) (hid : '/' ∉ id.toList) :
    ∃ kind, lead = "/" ++ kind ++ "/" ∧
      Text.splitAt '/' (written lead host port id).toList =
        [[], kind.toList, host.toList, "tcp".toList, port.toList, "p2p".toList, id.toList] := by
  have hport : '/' ∉ port.toList := fun hmem => absurd (h.port_digits _ hmem) (by decide)
  obtain ⟨kind, rfl, hkind⟩ : ∃ kind, lead = "/" ++ kind ++ "/" ∧ '/' ∉ kind.toList := by
    rcases h.lead_eq with rfl | rfl
    · exact ⟨"ip4", rfl, by decide⟩
    · exact ⟨"dns", rfl, by decide⟩
  refine ⟨kind, rfl, ?_⟩
  have hlist : (written ("/" ++ kind ++ "/") host port id).toList =
      [] ++ '/' :: (kind.toList ++ '/' :: (host.toList ++ '/' :: ("tcp".toList ++
        '/' :: (port.toList ++ '/' :: ("p2p".toList ++ '/' :: id.toList))))) := by
    simp [written, Host.peerMark]
  rw [hlist]
  repeat rw [Text.splitAt_append]
  rw [Text.splitAt_of_not_mem hkind, Text.splitAt_of_not_mem h.host_slash,
    Text.splitAt_of_not_mem hport, Text.splitAt_of_not_mem hid]
  rfl

/-- No address with a host that is not dotted where a dotted one belongs is in the form. -/
theorem Formed.ne_of_parse?_none (h : Formed lead host port id) (hid : '/' ∉ id.toList)
    {name : String} (hname : '/' ∉ name.toList) (hparse : Ipv4.parse? name = none) (rest : String) :
    written lead host port id ≠ Host.ip4Lead ++ name ++ "/" ++ rest := by
  intro htext
  obtain ⟨kind, hlead, hpieces⟩ := h.pieces hid
  have hlist : (Host.ip4Lead ++ name ++ "/" ++ rest).toList =
      [] ++ '/' :: ("ip4".toList ++ '/' :: (name.toList ++ '/' :: rest.toList)) := by
    simp
  rw [htext, hlist, Text.splitAt_append, Text.splitAt_append, Text.splitAt_append,
    Text.splitAt_of_not_mem hname] at hpieces
  obtain ⟨hkind, hhost⟩ := List.cons.inj (List.cons.inj hpieces).2
  have hname' : name = host := String.toList_inj.1 (List.cons.inj hhost).1
  have hkind' : "ip4" = kind := String.toList_inj.1 hkind
  have hdotted := h.dotted (by rw [hlead, ← hkind']; rfl)
  rw [← hname', hparse] at hdotted
  exact absurd hdotted (by decide)

/-- Which texts are accepted. Of the ones in the documented form these are the ones whose identifier
has no mark in it, so at least all whose identifier has no slash; and an accepted text is not asked
for more than its lead and its identifier. -/
theorem accepted_iff (s : String) :
    ((∃ a, parse s = .ok a) ↔ hasLead (Text.trim s) = true ∧
      ∃ body id, Text.trim s = body ++ Host.peerMark ++ id ∧ Fits id) ∧
    ∀ lead host port id, Formed lead host port id → Text.trim s = written lead host port id →
      ((∃ a, parse s = .ok a) ↔ Fits id) ∧
      ('/' ∉ id.toList → ∃ a, parse s = .ok a ∧ a.text = Text.trim s ∧ a.peerId = id) := by
  refine ⟨exists_parse_iff, fun lead host port id h htext => ?_⟩
  have hiff : (∃ a, parse s = .ok a) ↔ Fits id := by
    constructor
    · rintro ⟨a, ha⟩
      rw [← h.peerId_eq htext ha]
      exact fits_of_parse ha
    · intro hfits
      exact exists_parse_iff.2 ⟨htext ▸ h.hasLead_written, _, id, htext, hfits⟩
  refine ⟨hiff, fun hslash => ?_⟩
  obtain ⟨a, ha⟩ := hiff.2 (h.fits htext hslash)
  exact ⟨a, ha, text_of_parse ha, h.peerId_eq htext ha⟩

/-- A dotted address is accepted, and so is a name where one belongs, though that is not in the
documented form. -/
theorem accepted_iff_name :
    (∃ a, parse "/ip4/10.0.0.5/tcp/2121/p2p/12D3KooWAbCdEfGhIjKlMnOpQrStUvWxYz123456789abcdefghi" =
      .ok a ∧ a.peerId = "12D3KooWAbCdEfGhIjKlMnOpQrStUvWxYz123456789abcdefghi") ∧
    (∃ a, parse "/ip4/da-one/tcp/2121/p2p/12D3KooWAbCdEfGhIjKlMnOpQrStUvWxYz123456789abcdefghi" =
      .ok a) ∧
    ∀ lead host port id, Formed lead host port id → written lead host port id ≠
      "/ip4/da-one/tcp/2121/p2p/12D3KooWAbCdEfGhIjKlMnOpQrStUvWxYz123456789abcdefghi" := by
  have hslash : '/' ∉ "12D3KooWAbCdEfGhIjKlMnOpQrStUvWxYz123456789abcdefghi".toList := by
    decide +kernel
  have hformed : Formed Host.ip4Lead "10.0.0.5" "2121"
      "12D3KooWAbCdEfGhIjKlMnOpQrStUvWxYz123456789abcdefghi" :=
    { lead_eq := .inl rfl
      host_nonempty := by decide
      host_slash := by decide
      dotted := fun _ => by decide +kernel
      port_nonempty := by decide
      port_digits := List.all_eq_true.1 (by decide)
      port_le := by decide
      full := by decide +kernel }
  obtain ⟨a, ha, -, hid⟩ := ((accepted_iff
    "/ip4/10.0.0.5/tcp/2121/p2p/12D3KooWAbCdEfGhIjKlMnOpQrStUvWxYz123456789abcdefghi").2 _ _ _ _
    hformed (by decide +kernel)).2 hslash
  refine ⟨⟨a, ha, hid⟩, ?_⟩
  have htrim : Text.trim
      "/ip4/da-one/tcp/2121/p2p/12D3KooWAbCdEfGhIjKlMnOpQrStUvWxYz123456789abcdefghi" =
      "/ip4/da-one" ++ "/tcp/2121" ++ Host.peerMark ++
        "12D3KooWAbCdEfGhIjKlMnOpQrStUvWxYz123456789abcdefghi" := by decide +kernel
  have hlast : "12D3KooWAbCdEfGhIjKlMnOpQrStUvWxYz123456789abcdefghi".toList.getLast? = some 'i' := by
    decide +kernel
  have hfits : Fits "12D3KooWAbCdEfGhIjKlMnOpQrStUvWxYz123456789abcdefghi" := by
    refine ⟨hformed.full, ?_, idPart?_of_slash hslash⟩
    rw [hlast]
    rintro c ⟨⟩
    decide
  have haccepted := (accepted_iff
    "/ip4/da-one/tcp/2121/p2p/12D3KooWAbCdEfGhIjKlMnOpQrStUvWxYz123456789abcdefghi").1.2
    ⟨by rw [htrim]; decide +kernel, _, _, htrim, hfits⟩
  refine ⟨haccepted, fun lead host port id h htext => ?_⟩
  obtain ⟨a, ha⟩ := haccepted
  have hid : a.peerId = "12D3KooWAbCdEfGhIjKlMnOpQrStUvWxYz123456789abcdefghi" := by
    apply peerId_eq_of_idPart?
    rw [text_of_parse ha, htrim]
    exact idPart?_append hfits.marked _
  have hsame : a.peerId = id := by
    refine h.peerId_eq ?_ ha
    rw [htrim, htext]
    decide +kernel
  rw [← hsame, hid] at h htext
  have hname : '/' ∉ "da-one".toList := by decide
  refine h.ne_of_parse?_none hslash hname (by decide)
    "tcp/2121/p2p/12D3KooWAbCdEfGhIjKlMnOpQrStUvWxYz123456789abcdefghi" (htext.trans ?_)
  decide +kernel

end MultiAddress

end Rendezvous
