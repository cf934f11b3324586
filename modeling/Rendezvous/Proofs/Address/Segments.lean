import Rendezvous.Address.Connections
import Rendezvous.Proofs.Address.Hosts
import Rendezvous.Proofs.Text.Splitting

/-!
# Segments of connection strings

The segments of addresses that are joined are those of the one address after those of the other. An
address without commas is one segment; an address with a comma is either several, or its only segment
has lost a part of the identifier. So a connection string has one segment for each address, each of
them an address, if and only if none of them has a comma.
-/

namespace Rendezvous

/-- A text has no comma. -/
def CommaFree (s : String) : Prop := ',' ∉ s.toList

instance (s : String) : Decidable (CommaFree s) := inferInstanceAs (Decidable (',' ∉ s.toList))

/-! ## Commas in addresses -/

namespace CommaFree

variable {s s' : String}

theorem append_iff : CommaFree (s ++ s') ↔ CommaFree s ∧ CommaFree s' := by
  unfold CommaFree
  rw [String.toList_append, List.mem_append, not_or]

theorem trim (h : CommaFree s) : CommaFree (Text.trim s) := by
  intro hmem
  rw [Text.toList_trim] at hmem
  exact h (Text.mem_of_trimChars hmem)

/-- An identifier is cut out of a probed text. -/
theorem truncatePeerId {n : Nat} (h : CommaFree s) (hcut : truncatePeerId s n = .ok s') :
    CommaFree s' := by
  intro hmem
  rw [(truncatePeerId_eq_ok_iff.1 hcut).2] at hmem
  exact h (List.mem_of_mem_take hmem)

/-- Four numbers and three dots. -/
theorem ipv4 (ip : Ipv4) : CommaFree ip.text := by
  have hbyte : ∀ n : UInt8, CommaFree (toString n.toNat) := by
    intro n hmem
    rw [Nat.toString_eq_repr, Nat.toList_repr] at hmem
    exact absurd (Nat.isDigit_of_mem_toDigits (by decide) (by decide) hmem) (by decide)
  have hdot : CommaFree (toString ".") := by decide
  unfold Ipv4.text
  simp only [append_iff]
  exact ⟨⟨⟨⟨⟨⟨hbyte ip.a, hdot⟩, hbyte ip.b⟩, hdot⟩, hbyte ip.c⟩, hdot⟩, hbyte ip.d⟩

theorem stem {host : Host} (h : CommaFree host.name) : CommaFree host.stem := by
  have hlead : CommaFree host.lead := by
    cases host with
    | ip4 ip => exact (by decide : CommaFree Host.ip4Lead)
    | dns name => exact (by decide : CommaFree Host.dnsLead)
  have hport : CommaFree s!"/tcp/{peerPort}" := by decide
  have hmark : CommaFree Host.peerMark := by decide
  exact append_iff.2 ⟨append_iff.2 ⟨append_iff.2 ⟨hlead, h⟩, hport⟩, hmark⟩

theorem parse {a : MultiAddress} (h : CommaFree s) (ha : MultiAddress.parse s = .ok a) :
    CommaFree a.text := by
  rw [MultiAddress.text_of_parse ha]
  exact h.trim

theorem ofHost {host : Host} {id : String} {a : MultiAddress} (hname : CommaFree host.name)
    (hid : CommaFree id) (ha : MultiAddress.ofHost host id = .ok a) : CommaFree a.text :=
  (append_iff.2 ⟨hname.stem, hid⟩).parse ha

end CommaFree

namespace MultiAddress

/-- An address begins like one. -/
theorem hasLead_text (a : MultiAddress) : hasLead a.text = true := by
  have hsound := a.sound
  unfold fault? at hsound
  split at hsound
  · assumption
  · exact absurd hsound (by simp)

/-- An address ends in an identifier. -/
theorem exists_idPart (a : MultiAddress) :
    ∃ id, idPart? a.text = some id ∧ id.length = peerIdLength := by
  have hsound := a.sound
  unfold fault? at hsound
  rw [if_pos a.hasLead_text] at hsound
  split at hsound
  · exact absurd hsound (by simp)
  · rename_i id hid
    refine ⟨id, hid, ?_⟩
    by_contra hlength
    rw [if_neg hlength] at hsound
    exact absurd hsound (by simp)

/-- The identifier of an address is a part of it. -/
theorem commaFree_peerId {a : MultiAddress} (h : CommaFree a.text) : CommaFree a.peerId := by
  obtain ⟨id, hid, -⟩ := a.exists_idPart
  have hpeer : a.peerId = id := by
    rw [peerId, hid]
    rfl
  rw [hpeer]
  unfold idPart? at hid
  obtain ⟨⟨before, after⟩, hcut, rfl⟩ := Option.map_eq_some_iff.1 hid
  intro hmem
  rw [String.toList_ofList] at hmem
  exact h (Text.mem_of_splitLast? hcut hmem)

/-- An address begins with a slash. -/
theorem exists_toList (a : MultiAddress) : ∃ cs, a.text.toList = '/' :: cs := by
  have hlead := a.hasLead_text
  unfold hasLead Text.startsWith at hlead
  rw [Bool.or_eq_true, List.isPrefixOf_iff_prefix, List.isPrefixOf_iff_prefix] at hlead
  rcases hlead with ⟨rest, hrest⟩ | ⟨rest, hrest⟩
  · exact ⟨_, hrest.symm⟩
  · exact ⟨_, hrest.symm⟩

end MultiAddress

namespace Connections

/-- The text has one segment for each of `n` dependencies, and each segment begins like an address and
ends in an identifier. -/
structure WellFormed (c : Connections) (n : Nat) : Prop where
  /-- There is one segment for each dependency. -/
  count : c.segments.length = n
  /-- Each segment begins like an address. -/
  leads : ∀ segment ∈ c.segments, hasLead segment = true
  /-- Each segment ends in an identifier. -/
  ids : ∀ segment ∈ c.segments, ∃ id, MultiAddress.idPart? segment = some id ∧
    id.length = peerIdLength

/-! ## Texts that are joined -/

/-- Texts joined by commas. -/
def joined (texts : List String) : Connections := ⟨",".intercalate texts⟩

theorem text_joined_cons_cons (s s' : String) (texts : List String) :
    (joined (s :: s' :: texts)).text = s ++ "," ++ (joined (s' :: texts)).text :=
  String.intercalate_cons_of_ne_nil (by simp)

/-- Nothing has been joined, unless it is empty texts. -/
theorem isEmpty_joined {texts : List String} (h : ∀ s ∈ texts, s ≠ "") :
    (joined texts).isEmpty = texts.isEmpty := by
  cases texts with
  | nil => rfl
  | cons s texts =>
    have hs : s ≠ "" := h s List.mem_cons_self
    rw [List.isEmpty_cons, Bool.eq_false_iff, Ne, isEmpty, String.isEmpty_iff]
    cases texts with
    | nil => simpa [joined] using hs
    | cons s' texts => simp [text_joined_cons_cons]

/-- A segment is joined to those that have been added, with one comma between them. -/
theorem push_joined {texts : List String} {segment : String} (h : ∀ s ∈ texts, s ≠ "")
    (hlead : hasLead segment = true) :
    (joined texts).push segment = .ok (joined (texts ++ [segment])) := by
  unfold push
  rw [if_pos hlead, isEmpty_joined h]
  cases texts with
  | nil => rfl
  | cons s texts =>
    rw [List.isEmpty_cons, if_neg (by decide)]
    unfold joined
    rw [String.intercalate_append_of_ne_nil (by simp) (by simp), String.intercalate_singleton]

/-- The pieces between the commas are those of the one text after those of the other. -/
theorem splitAt_joined {texts : List String} (h : texts ≠ []) :
    Text.splitAt ',' (joined texts).text.toList =
      texts.flatMap fun s => Text.splitAt ',' s.toList := by
  induction texts with
  | nil => exact absurd rfl h
  | cons s texts ih =>
    cases texts with
    | nil => simp [joined]
    | cons s' texts =>
      have hcomma : (s ++ ",").toList = s.toList ++ [','] := String.toList_append
      rw [List.flatMap_cons, ← ih (by simp), text_joined_cons_cons, String.toList_append, hcomma,
        List.append_assoc, List.singleton_append, Text.splitAt_append]

/-- The segments of one text come after those of the other. -/
theorem segments_joined (texts : List String) :
    (joined texts).segments = texts.flatMap fun s => segments ⟨s⟩ := by
  cases texts with
  | nil => rfl
  | cons s texts =>
    rw [segments, splitAt_joined (by simp), List.filter_flatMap, List.map_flatMap]
    rfl

/-- A text without commas is one segment. -/
theorem segments_of_commaFree {s : String} (h : CommaFree s) (hempty : s ≠ "") :
    segments ⟨s⟩ = [s] := by
  have hlist : s.toList ≠ [] := by rwa [Ne, String.toList_eq_nil_iff]
  rw [segments, Text.splitAt_of_not_mem h]
  simp [hlist]

/-- Texts without commas are the segments of what they are joined to. -/
theorem segments_joined_of_commaFree {texts : List String} (h : ∀ s ∈ texts, CommaFree s)
    (hempty : ∀ s ∈ texts, s ≠ "") : (joined texts).segments = texts := by
  rw [segments_joined]
  induction texts with
  | nil => rfl
  | cons s texts ih =>
    rw [List.forall_mem_cons] at h hempty
    rw [List.flatMap_cons, segments_of_commaFree h.1 hempty.1, ih h.2 hempty.2,
      List.singleton_append]

/-! ## Addresses that are joined -/

/-- Addresses joined by commas. -/
def ofAddresses (addresses : List MultiAddress) : Connections :=
  ⟨",".intercalate (addresses.map (·.text))⟩

theorem ofAddresses_eq (addresses : List MultiAddress) :
    ofAddresses addresses = joined (addresses.map (·.text)) := rfl

theorem texts_ne_empty (addresses : List MultiAddress) :
    ∀ s ∈ addresses.map (·.text), s ≠ "" := by
  intro s hs
  obtain ⟨a, -, rfl⟩ := List.mem_map.1 hs
  have hne := a.text_ne_empty
  rwa [Bool.eq_false_iff, Ne, String.isEmpty_iff] at hne

/-- Adding an address joins it to those that have been added. -/
theorem push_ofAddresses (addresses : List MultiAddress) (a : MultiAddress) :
    (ofAddresses addresses).push a.text = .ok (ofAddresses (addresses ++ [a])) := by
  rw [ofAddresses_eq, push_joined (texts_ne_empty addresses) a.hasLead_text, ofAddresses_eq,
    List.map_append, List.map_singleton]

/-- The segments of one address come after those of the other. -/
theorem segments_ofAddresses (addresses : List MultiAddress) :
    (ofAddresses addresses).segments = addresses.flatMap fun a => segments ⟨a.text⟩ := by
  rw [ofAddresses_eq, segments_joined, List.flatMap_map]

/-- The first piece of an address is not empty. -/
theorem exists_pieces (a : MultiAddress) :
    ∃ piece pieces, Text.splitAt ',' a.text.toList = piece :: pieces ∧ piece ≠ [] := by
  obtain ⟨cs, hcs⟩ := a.exists_toList
  rw [hcs, Text.splitAt, if_neg (by decide)]
  split
  · exact ⟨['/'], [], rfl, by simp⟩
  · rename_i piece pieces _
    exact ⟨'/' :: piece, pieces, rfl, by simp⟩

theorem segments_ne_nil (a : MultiAddress) : segments ⟨a.text⟩ ≠ [] := by
  obtain ⟨piece, pieces, hpieces, hne⟩ := exists_pieces a
  rw [segments, hpieces]
  simp [hne]

/-- An address whose only segment ends in an identifier has no comma: a comma at its end would have
taken the place of a character of the identifier. -/
theorem commaFree_of_segments {a : MultiAddress} {segment id : String}
    (hone : segments ⟨a.text⟩ = [segment]) (hid : MultiAddress.idPart? segment = some id)
    (hlength : id.length = peerIdLength) : CommaFree a.text := by
  obtain ⟨piece, pieces, hpieces, hne⟩ := exists_pieces a
  rw [segments, hpieces, List.filter_cons_of_pos (by simpa using hne), List.map_cons,
    List.cons.injEq, List.map_eq_nil_iff, List.filter_eq_nil_iff] at hone
  obtain ⟨rfl, hrest⟩ := hone
  have htext := Text.eq_append_replicate hpieces fun x hx => by simpa using hrest x hx
  obtain ⟨id', hid', hlength'⟩ := a.exists_idPart
  have hmark : ∀ d ∈ List.replicate pieces.length ',', d ∉ Host.peerMark.toList := by
    intro d hd
    rw [List.eq_of_mem_replicate hd]
    decide
  have hsplit : Text.splitLast? Host.peerMark.toList (piece ++ List.replicate pieces.length ',') =
      (Text.splitLast? Host.peerMark.toList piece).map
        fun p => (p.1, p.2 ++ List.replicate pieces.length ',') :=
    Text.splitLast?_append (by decide) hmark
  rw [← htext] at hsplit
  unfold MultiAddress.idPart? at hid hid'
  rw [String.toList_ofList] at hid
  obtain ⟨cut, hcut, rfl⟩ := Option.map_eq_some_iff.1 hid
  rw [hsplit, hcut, Option.map_some, Option.map_some, Option.some.injEq] at hid'
  have hcount := congrArg String.length hid'
  rw [hlength', ← hlength, String.length_ofList, String.length_ofList, List.length_append,
    List.length_replicate] at hcount
  have hnone : pieces = [] := List.length_eq_zero_iff.1 (by omega)
  rw [hnone] at hpieces
  exact Text.not_mem_of_splitAt hpieces

theorem length_le_flatMap {α β : Type} {f : α → List β} {as : List α}
    (h : ∀ a ∈ as, f a ≠ []) : as.length ≤ (as.flatMap f).length := by
  induction as with
  | nil => exact Nat.le_refl 0
  | cons a as ih =>
    rw [List.forall_mem_cons] at h
    have hone := List.length_pos_of_ne_nil h.1
    have hrest := ih h.2
    rw [List.flatMap_cons, List.length_append, List.length_cons]
    omega

/-- If there are no more pieces than things that all have one, each has one. -/
theorem exists_singleton_of_flatMap {α β : Type} {f : α → List β} {as : List α}
    (h : ∀ a ∈ as, f a ≠ []) (hlength : (as.flatMap f).length = as.length) :
    ∀ a ∈ as, ∃ b, f a = [b] := by
  induction as with
  | nil => simp
  | cons a as ih =>
    rw [List.forall_mem_cons] at h ⊢
    have hone := List.length_pos_of_ne_nil h.1
    have hrest := length_le_flatMap h.2
    rw [List.flatMap_cons, List.length_append, List.length_cons] at hlength
    refine ⟨List.length_eq_one_iff.1 (by omega), ih h.2 (by omega)⟩

/-- Addresses without commas are the segments of what they are joined to. -/
theorem segments_eq_map {addresses : List MultiAddress} (h : ∀ a ∈ addresses, CommaFree a.text) :
    (ofAddresses addresses).segments = addresses.map (·.text) := by
  rw [ofAddresses_eq]
  refine segments_joined_of_commaFree (fun s hs => ?_) (texts_ne_empty addresses)
  obtain ⟨a, ha, rfl⟩ := List.mem_map.1 hs
  exact h a ha

/-- What addresses are joined to is well-formed if and only if none of them has a comma. -/
theorem wellFormed_ofAddresses (addresses : List MultiAddress) :
    (ofAddresses addresses).WellFormed addresses.length ↔ ∀ a ∈ addresses, CommaFree a.text := by
  constructor
  · rintro ⟨hcount, -, hids⟩ a ha
    rw [segments_ofAddresses] at hcount hids
    obtain ⟨segment, hone⟩ :=
      exists_singleton_of_flatMap (fun a _ => segments_ne_nil a) hcount a ha
    have hmem : segment ∈ addresses.flatMap fun a => segments ⟨a.text⟩ :=
      List.mem_flatMap.2 ⟨a, ha, by simp [hone]⟩
    obtain ⟨id, hid, hlength⟩ := hids segment hmem
    exact commaFree_of_segments hone hid hlength
  · intro hcommas
    have hall := segments_eq_map hcommas
    have htext : ∀ segment ∈ (ofAddresses addresses).segments,
        ∃ a : MultiAddress, a.text = segment := by
      intro segment hsegment
      rw [hall] at hsegment
      obtain ⟨a, -, rfl⟩ := List.mem_map.1 hsegment
      exact ⟨a, rfl⟩
    refine ⟨?_, ?_, ?_⟩
    · rw [hall, List.length_map]
    · intro segment hsegment
      obtain ⟨a, rfl⟩ := htext segment hsegment
      exact a.hasLead_text
    · intro segment hsegment
      obtain ⟨a, rfl⟩ := htext segment hsegment
      exact a.exists_idPart

end Connections

end Rendezvous
