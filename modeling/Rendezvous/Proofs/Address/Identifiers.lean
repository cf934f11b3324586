import Rendezvous.Proofs.Address.Parsing

/-!
# Identifiers that addresses carry

Reading an address trims it and takes what comes after the last mark for the identifier. So an
identifier can stand at the end of an address, and be read from it again, if it ends in no blank and
the mark in front of it is the last one. It does not depend on the host. An identifier that was read
from an address is one of these; an identifier that was cut from the output of a node need not be.
-/

namespace Rendezvous.MultiAddress

variable {s id : String} {a : MultiAddress}

/-- What can stand at the end of an address and is read from it again. -/
structure Fits (id : String) : Prop where
  /-- It has the length of an identifier. -/
  full : id.length = peerIdLength
  /-- It ends in no blank, which trimming would drop. -/
  closed : ∀ c ∈ id.toList.getLast?, Text.isBlank c = false
  /-- The mark in front of it is the last one. -/
  marked : idPart? (Host.peerMark ++ id) = some id

theorem parse_of_fault {e : FormatError} (h : fault? (Text.trim s) = some e) :
    parse s = .error e := by
  unfold parse
  split
  · rename_i hnone
    rw [hnone] at h
    exact absurd h (by simp)
  · rename_i e' he
    rw [h, Option.some.injEq] at he
    rw [he]

theorem hasLead_trim_stem (h : Host) (id : String) : hasLead (Text.trim (h.stem ++ id)) = true := by
  have htext := toList_trim_stem h id
  cases h <;> simp [hasLead, Text.startsWith, htext, Host.lead]

/-- The last mark of a text is in front of an identifier if it is so without what comes before. -/
theorem idPart?_append (hid : idPart? (Host.peerMark ++ id) = some id) (body : String) :
    idPart? (body ++ Host.peerMark ++ id) = some id := by
  unfold idPart? at hid ⊢
  obtain ⟨⟨before, after⟩, hsplit, hafter⟩ := Option.map_eq_some_iff.1 hid
  rw [String.append_assoc, String.toList_append, Text.splitLast?_append_left hsplit]
  exact congrArg some hafter

/-- What fits stands at the end of an address whatever its host is. -/
theorem Fits.exists_ofHost (hfits : Fits id) (h : Host) :
    ∃ a, ofHost h id = .ok a ∧ a.text = h.stem ++ id ∧ a.peerId = id := by
  have hkeep : id.toList.rdropWhile Text.isBlank = id.toList :=
    List.rdropWhile_eq_self_iff.2 fun hne => by
      simp [hfits.closed _ (List.getLast_mem_getLast? hne)]
  have htrim : Text.trim (h.stem ++ id) = h.stem ++ id := by
    rw [← String.toList_inj, toList_trim_stem, hkeep, ← List.append_assoc, ← String.toList_append,
      ← String.toList_append, Host.stem]
  have hlead := hasLead_trim_stem h id
  have hfault : fault? (Text.trim (h.stem ++ id)) = none := by
    rw [fault?, if_pos hlead, htrim, Host.stem, idPart?_append hfits.marked]
    exact if_pos hfits.full
  have ha : ofHost h id = .ok ⟨_, hfault⟩ := parse_eq_ok_iff.2 rfl
  exact ⟨_, ha, text_eq_of_ofHost hfits.full ha, peerId_of_ofHost hfits.full ha⟩

/-- The identifier of an address that has been read fits. -/
theorem fits_of_parse (ha : parse s = .ok a) : Fits a.peerId := by
  obtain ⟨id, hid, hlength⟩ := a.exists_idPart
  rw [peerId_eq_of_idPart? hid]
  unfold idPart? at hid
  obtain ⟨⟨before, after⟩, hsplit, rfl⟩ := Option.map_eq_some_iff.1 hid
  have hjoined := Text.eq_of_splitLast? hsplit
  refine ⟨hlength, fun c hc => ?_, ?_⟩
  · -- No blank is at the end, because none was left there.
    rw [String.toList_ofList] at hc
    obtain ⟨init, rfl⟩ := List.getLast?_eq_some_iff.1 hc
    rw [text_of_parse ha, Text.toList_trim, ← List.append_assoc] at hjoined
    exact Text.isBlank_last_of_trimChars hjoined
  · -- The mark before the identifier is the last one wherever it stands.
    obtain ⟨before', after', hmark, -⟩ := @Text.exists_splitLast? Host.peerMark.toList
      (by decide) [] after
    rw [List.nil_append] at hmark
    have hmoved := Text.splitLast?_append_left hmark before
    rw [← List.append_assoc, ← hjoined, hsplit, Option.some.injEq, Prod.mk.injEq] at hmoved
    obtain ⟨-, rfl⟩ := hmoved
    rw [idPart?, String.toList_append, String.toList_ofList, hmark]
    rfl

/-- Whether an identifier makes an address does not depend on the host: it does if it fits, and
otherwise what is taken for the identifier is too short. -/
theorem ofHost_cases (hid : id.length = peerIdLength) (h : Host) :
    Fits id ∧ (∃ a, ofHost h id = .ok a ∧ a.text = h.stem ++ id ∧ a.peerId = id) ∨
      ¬ Fits id ∧ ∃ text n, n < peerIdLength ∧
        ofHost h id = .error (.wrongIdLength text peerIdLength n) := by
  by_cases hfits : Fits id
  · exact .inl ⟨hfits, hfits.exists_ofHost h⟩
  · refine .inr ⟨hfits, ?_⟩
    obtain ⟨before, after, hsplit, hle⟩ := @Text.exists_splitLast? Host.peerMark.toList (by decide)
      (h.lead ++ h.name ++ s!"/tcp/{peerPort}").toList (id.toList.rdropWhile Text.isBlank)
    have hpart : idPart? (Text.trim (h.stem ++ id)) = some (String.ofList after) := by
      rw [idPart?, toList_trim_stem, hsplit]
      rfl
    have htail := (List.rdropWhile_prefix (p := Text.isBlank) (l := id.toList)).length_le
    have hfault : fault? (Text.trim (h.stem ++ id)) =
        if (String.ofList after).length = peerIdLength then none
        else some (.wrongIdLength (Text.trim (h.stem ++ id)) peerIdLength
          (String.ofList after).length) := by
      rw [fault?, if_pos (hasLead_trim_stem h id), hpart]
    by_cases hfull : (String.ofList after).length = peerIdLength
    · -- An address would have been made, and its identifier fits.
      rw [if_pos hfull] at hfault
      have ha : ofHost h id = .ok ⟨_, hfault⟩ := parse_eq_ok_iff.2 rfl
      have hpeer := fits_of_parse ha
      rw [peerId_of_ofHost hid ha] at hpeer
      exact absurd hpeer hfits
    · rw [if_neg hfull] at hfault
      refine ⟨_, _, ?_, parse_of_fault hfault⟩
      rw [String.length_ofList] at hfull ⊢
      rw [String.length_toList, hid] at htail
      omega

end Rendezvous.MultiAddress
