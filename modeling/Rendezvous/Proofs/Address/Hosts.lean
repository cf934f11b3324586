import Mathlib.Data.List.DropRight
import Mathlib.Tactic.Common
import Rendezvous.Address.Basic

/-!
# Addresses tell hosts apart

Putting an address together trims it, and yet two addresses of one identifier are the same text only
if their hosts are: what trimming can drop is at the end of the identifier.
-/

namespace Rendezvous

namespace Text

theorem trimChars_eq (cs : List Char) :
    trimChars cs = (cs.dropWhile isBlank).rdropWhile isBlank := rfl

/-- Trimming drops nothing of what begins with a character that is not blank and is followed by
another one. -/
theorem trimChars_append {c : Char} {cs ds : List Char} (hc : isBlank c = false)
    (hds : ∃ d ∈ ds, isBlank d = false) :
    trimChars (c :: cs ++ ds) = c :: cs ++ ds.rdropWhile isBlank := by
  have hkeep : (c :: cs ++ ds).dropWhile isBlank = c :: cs ++ ds := by
    rw [List.cons_append, List.dropWhile_cons_of_neg (by simp [hc])]
  have hrest : (ds.reverse.dropWhile isBlank).isEmpty = false := by
    obtain ⟨d, hd, hblank⟩ := hds
    rw [Bool.eq_false_iff, Ne, List.isEmpty_iff, List.dropWhile_eq_nil_iff]
    intro hall
    have hd' := hall d (List.mem_reverse.2 hd)
    exact absurd hd' (by simp [hblank])
  rw [trimChars_eq, hkeep]
  unfold List.rdropWhile
  rw [List.reverse_append, List.dropWhile_append, hrest]
  simp

/-- What is left after trimming begins with a character that is not blank. -/
theorem isBlank_of_trimChars {cs ds : List Char} {c : Char} (h : trimChars cs = c :: ds) :
    isBlank c = false := by
  rw [trimChars_eq] at h
  obtain ⟨tail, htail⟩ := List.rdropWhile_prefix isBlank (cs.dropWhile isBlank)
  rw [h, List.cons_append] at htail
  have hne : cs.dropWhile isBlank ≠ [] := by
    rw [← htail]
    simp
  have hhead := List.head_dropWhile_not isBlank hne
  simpa [← htail] using hhead

end Text

/-- An identifier is cut from a text that is long enough, and is the beginning of this text. -/
theorem truncatePeerId_eq_ok_iff {text id : String} {n : Nat} :
    truncatePeerId text n = .ok id ↔ n ≤ text.length ∧ id.toList = text.toList.take n := by
  unfold truncatePeerId
  by_cases hshort : text.length < n
  · rw [if_pos hshort]
    refine ⟨fun h => absurd h (by simp), fun ⟨hlong, _⟩ => ?_⟩
    omega
  · rw [if_neg hshort, Except.ok.injEq, ← String.toList_inj, String.toList_ofList]
    exact ⟨fun h => ⟨Nat.le_of_not_lt hshort, h.symm⟩, fun h => h.2.symm⟩

theorem length_of_truncatePeerId {text id : String} {n : Nat}
    (h : truncatePeerId text n = .ok id) : id.length = n := by
  obtain ⟨hlong, hid⟩ := truncatePeerId_eq_ok_iff.1 h
  rw [← String.length_toList, hid, List.length_take, String.length_toList]
  omega

/-- An identifier that was cut from a trimmed text is not all blank. -/
theorem not_blank_of_truncatePeerId {raw id : String} (hraw : (Text.trim raw).isEmpty = false)
    (h : truncatePeerId (Text.trim raw) peerIdLength = .ok id) :
    ∃ c ∈ id.toList, Text.isBlank c = false := by
  obtain ⟨-, hid⟩ := truncatePeerId_eq_ok_iff.1 h
  rw [hid]
  cases hchars : (Text.trim raw).toList with
  | nil =>
    have hempty : Text.trim raw = "" := String.toList_eq_nil_iff.1 hchars
    rw [hempty] at hraw
    exact absurd hraw (by decide)
  | cons c cs =>
    refine ⟨c, by simp [peerIdLength], ?_⟩
    rw [Text.toList_trim] at hchars
    exact Text.isBlank_of_trimChars hchars

theorem MultiAddress.text_ne_empty (a : MultiAddress) : a.text.isEmpty = false := by
  rw [Bool.eq_false_iff]
  intro hempty
  have hsound := a.sound
  rw [String.isEmpty_iff.1 hempty] at hsound
  exact absurd hsound (by decide)

theorem MultiAddress.text_of_parse {s : String} {a : MultiAddress} (h : parse s = .ok a) :
    a.text = Text.trim s := by
  unfold parse at h
  split at h
  · rw [← Except.ok.inj h]
  · exact absurd h (by simp)

namespace Host

@[simp] theorem toList_ip4Lead : ip4Lead.toList = ['/', 'i', 'p', '4', '/'] := rfl

@[simp] theorem toList_dnsLead : dnsLead.toList = ['/', 'd', 'n', 's', '/'] := rfl

/-- Every host begins with a slash. -/
theorem exists_stem (h : Host) : ∃ cs, h.stem.toList = '/' :: cs := by
  unfold stem
  cases h <;> simp [lead]

theorem stem_inj {h h' : Host} (heq : h.stem = h'.stem) : h.lead = h'.lead ∧ h.name = h'.name := by
  have hlength : h.lead.toList.length = h'.lead.toList.length := by
    cases h <;> cases h' <;> simp [lead]
  have hlist := congrArg String.toList heq
  unfold stem at hlist
  simp only [String.toList_append, List.append_cancel_right_eq] at hlist
  obtain ⟨hlead, hname⟩ := List.append_inj hlist hlength
  exact ⟨String.toList_inj.1 hlead, String.toList_inj.1 hname⟩

theorem ip4_stem_ne_dns (ip : Ipv4) (name : String) : (ip4 ip).stem ≠ (dns name).stem := by
  intro heq
  have hlead := congrArg String.toList (stem_inj heq).1
  simp [lead] at hlead

theorem dns_stem_inj {name name' : String} (heq : (dns name).stem = (dns name').stem) :
    name = name' :=
  (stem_inj heq).2

/-- What is read as a host is an IP address without the blanks around it. -/
theorem exists_ip4_of_parseIp {raw : String} {h : Host} (hread : parseIp raw = .ok h) :
    ∃ ip, Ipv4.parse? (Text.trim raw) = some ip ∧ h = .ip4 ip := by
  unfold parseIp at hread
  split at hread
  · rename_i ip hip
    exact ⟨ip, hip, (Except.ok.inj hread).symm⟩
  · exact absurd hread (by simp)

end Host

/-- Two addresses of one identifier are the same only if their hosts are. -/
theorem MultiAddress.stem_of_ofHost {h h' : Host} {id : String} {a a' : MultiAddress}
    (hid : ∃ c ∈ id.toList, Text.isBlank c = false) (ha : ofHost h id = .ok a)
    (ha' : ofHost h' id = .ok a') (heq : a.text = a'.text) : h.stem = h'.stem := by
  unfold ofHost at ha ha'
  rw [text_of_parse ha, text_of_parse ha'] at heq
  have hlist := congrArg String.toList heq
  obtain ⟨cs, hcs⟩ := h.exists_stem
  obtain ⟨cs', hcs'⟩ := h'.exists_stem
  rw [Text.toList_trim, Text.toList_trim, String.toList_append, String.toList_append, hcs, hcs',
    Text.trimChars_append (by decide) hid, Text.trimChars_append (by decide) hid,
    List.append_cancel_right_eq, ← hcs, ← hcs'] at hlist
  exact String.toList_inj.1 hlist

end Rendezvous
