import Rendezvous.Proofs.Address.Segments

/-!
# Addresses that are read again

An address that has been read is written without blanks around it, so reading what is written gives
the same address. An address that has been put together ends in the identifier it was put together
from: the mark before the identifier is the last one, or the identifier would be too short.
-/

namespace Rendezvous

namespace Text

theorem trimChars_trimChars (cs : List Char) : trimChars (trimChars cs) = trimChars cs := by
  cases h : trimChars cs with
  | nil => rfl
  | cons c ds =>
    have hstart : (c :: ds).dropWhile isBlank = c :: ds :=
      List.dropWhile_cons_of_neg (by simp [isBlank_of_trimChars h])
    have hend : (c :: ds).rdropWhile isBlank = c :: ds := by
      rw [← h, trimChars_eq, List.rdropWhile_idempotent]
    rw [trimChars_eq, hstart, hend]

theorem trim_trim (s : String) : trim (trim s) = trim s := by
  rw [← String.toList_inj, toList_trim, toList_trim, trimChars_trimChars]

/-- What is left after trimming ends in a character that is not blank. -/
theorem isBlank_last_of_trimChars {cs ds : List Char} {d : Char} (h : trimChars cs = ds ++ [d]) :
    isBlank d = false := by
  have htwice := congrArg (List.rdropWhile isBlank) h
  rw [trimChars_eq, List.rdropWhile_idempotent, ← trimChars_eq, h] at htwice
  by_contra hblank
  rw [List.rdropWhile_concat_pos _ _ _ (by simpa using hblank)] at htwice
  have hshort := (List.rdropWhile_prefix (p := isBlank) (l := ds)).length_le
  rw [← htwice, List.length_append, List.length_singleton] at hshort
  omega

/-- What is left of a text without the blanks at its ends. -/
structure Trimmed (raw text : String) : Prop where
  around : ∃ before after, raw = before ++ text ++ after ∧
    (∀ c ∈ before.toList, isBlank c = true) ∧ ∀ c ∈ after.toList, isBlank c = true
  first : ∀ c ∈ text.toList.head?, isBlank c = false
  last : ∀ c ∈ text.toList.getLast?, isBlank c = false

theorem trimmed_trim (raw : String) : Trimmed raw (trim raw) := by
  refine ⟨?_, fun c hc => ?_, fun c hc => ?_⟩
  · have hfront := @List.takeWhile_append_dropWhile _ isBlank raw.toList
    have hback : trimChars raw.toList ++ (raw.toList.dropWhile isBlank).rtakeWhile isBlank =
        raw.toList.dropWhile isBlank := by
      rw [trimChars_eq, List.rdropWhile, List.rtakeWhile, ← List.reverse_append,
        List.takeWhile_append_dropWhile, List.reverse_reverse]
    refine ⟨String.ofList (raw.toList.takeWhile isBlank),
      String.ofList ((raw.toList.dropWhile isBlank).rtakeWhile isBlank), ?_, fun c hc => ?_,
      fun c hc => ?_⟩
    · rw [← String.toList_inj, String.toList_append, String.toList_append, String.toList_ofList,
        String.toList_ofList, toList_trim, List.append_assoc, hback, hfront]
    · rw [String.toList_ofList] at hc
      exact List.mem_takeWhile_imp hc
    · rw [String.toList_ofList] at hc
      exact List.mem_rtakeWhile_imp hc
  · obtain ⟨cs, hcs⟩ := List.head?_eq_some_iff.1 hc
    exact isBlank_of_trimChars (toList_trim raw ▸ hcs)
  · obtain ⟨cs, hcs⟩ := List.getLast?_eq_some_iff.1 hc
    exact isBlank_last_of_trimChars (toList_trim raw ▸ hcs)

/-- There is nothing to trim where there is no blank. -/
theorem trim_of_not_blank {s : String} (h : ∀ c ∈ s.toList, isBlank c = false) : trim s = s := by
  have hstart : s.toList.dropWhile isBlank = s.toList :=
    List.dropWhile_eq_self_iff.2 fun hpos => by simp [h _ (List.getElem_mem hpos)]
  have hend : s.toList.rdropWhile isBlank = s.toList :=
    List.rdropWhile_eq_self_iff.2 fun hne => by simp [h _ (List.getLast_mem hne)]
  rw [← String.toList_inj, toList_trim, trimChars_eq, hstart, hend]

/-- A character that is not blank stays, whatever comes after it. -/
theorem rdropWhile_cons {c : Char} (hc : isBlank c = false) (cs : List Char) :
    (c :: cs).rdropWhile isBlank = c :: cs.rdropWhile isBlank := by
  unfold List.rdropWhile
  rw [List.reverse_cons, List.dropWhile_append]
  by_cases hempty : (cs.reverse.dropWhile isBlank).isEmpty = true
  · rw [if_pos hempty, List.isEmpty_iff.1 hempty, List.dropWhile_cons_of_neg (by simp [hc])]
    rfl
  · rw [if_neg hempty, List.reverse_append]
    rfl

/-- What stands before and after the last place of a pattern. -/
theorem eq_of_splitLast? {pattern cs before after : List Char}
    (h : splitLast? pattern cs = some (before, after)) : cs = before ++ pattern ++ after := by
  induction cs generalizing before with
  | nil =>
    rw [splitLast?] at h
    split at h
    · rename_i hempty
      obtain ⟨rfl, rfl⟩ := Prod.mk.inj (Option.some.inj h)
      rw [List.isEmpty_iff.1 hempty]
      rfl
    · exact absurd h (by simp)
  | cons c cs ih =>
    rw [splitLast?] at h
    split at h
    · rename_i before' after' hsplit
      obtain ⟨rfl, rfl⟩ := Prod.mk.inj (Option.some.inj h)
      rw [ih hsplit]
      rfl
    · split at h
      · rename_i hbegins
        obtain ⟨rfl, rfl⟩ := Prod.mk.inj (Option.some.inj h)
        obtain ⟨rest, hrest⟩ := List.isPrefixOf_iff_prefix.1 hbegins
        rw [← hrest, List.drop_left, List.nil_append]
      · exact absurd h (by simp)

/-- After the last place of a pattern comes no more than after any of its places. -/
theorem exists_splitLast? {pattern : List Char} (hpattern : pattern ≠ []) (cs ds : List Char) :
    ∃ before after, splitLast? pattern (cs ++ (pattern ++ ds)) = some (before, after) ∧
      after.length ≤ ds.length := by
  induction cs with
  | nil =>
    obtain ⟨c, pattern', rfl⟩ := List.exists_cons_of_ne_nil hpattern
    rw [List.nil_append, List.cons_append, splitLast?]
    cases hlater : splitLast? (c :: pattern') (pattern' ++ ds) with
    | some p =>
      have hlength := congrArg List.length (@eq_of_splitLast? _ _ p.1 p.2 hlater)
      simp only [List.length_append, List.length_cons] at hlength
      exact ⟨c :: p.1, p.2, rfl, by omega⟩
    | none =>
      have hbegins : (c :: pattern').isPrefixOf (c :: (pattern' ++ ds)) = true :=
        List.isPrefixOf_iff_prefix.2 ⟨ds, rfl⟩
      refine ⟨[], ds, ?_, Nat.le_refl _⟩
      rw [if_pos hbegins, ← List.cons_append, List.drop_left]
  | cons c cs ih =>
    obtain ⟨before, after, hsplit, hlength⟩ := ih
    refine ⟨c :: before, after, ?_, hlength⟩
    rw [List.cons_append, splitLast?, hsplit]

/-- The last place of a pattern stays the last one, whatever comes before it. -/
theorem splitLast?_append_left {pattern cs before after : List Char}
    (h : splitLast? pattern cs = some (before, after)) (ds : List Char) :
    splitLast? pattern (ds ++ cs) = some (ds ++ before, after) := by
  induction ds with
  | nil => exact h
  | cons d ds ih => rw [List.cons_append, splitLast?, ih, List.cons_append]

end Text

namespace MultiAddress

variable {s id : String} {a : MultiAddress} {h : Host}

theorem parse_eq_ok_iff : parse s = .ok a ↔ a.text = Text.trim s := by
  constructor
  · exact text_of_parse
  · intro htext
    have hsound : fault? (Text.trim s) = none := by
      rw [← htext]
      exact a.sound
    unfold parse
    split
    · obtain ⟨text, sound⟩ := a
      subst htext
      rfl
    · rename_i e hfault
      rw [hsound] at hfault
      exact absurd hfault (by simp)

/-- An address that has been read reads as itself. -/
theorem parse_text (ha : parse s = .ok a) : parse a.text = .ok a := by
  rw [parse_eq_ok_iff, text_of_parse ha, Text.trim_trim]

theorem peerId_eq_of_idPart? (hid : idPart? a.text = some id) : a.peerId = id := by
  rw [peerId, hid]
  rfl

/-- After the last mark of an address comes no less than an identifier. -/
theorem eq_of_mark {cs ds : List Char} (htext : a.text.toList = cs ++ (Host.peerMark.toList ++ ds))
    (hshort : ds.length ≤ peerIdLength) : a.peerId.toList = ds := by
  obtain ⟨id, hid, hlength⟩ := a.exists_idPart
  obtain ⟨before, after, hsplit, hle⟩ :=
    @Text.exists_splitLast? Host.peerMark.toList (by decide) cs ds
  rw [← htext] at hsplit
  rw [peerId_eq_of_idPart? hid]
  rw [idPart?, hsplit] at hid
  obtain rfl := Option.some.inj hid
  rw [String.length_ofList] at hlength
  have hjoined := Text.eq_of_splitLast? hsplit
  rw [htext, ← List.append_assoc] at hjoined
  rw [String.toList_ofList]
  exact (List.append_inj_right' hjoined (by dsimp only at hlength; omega)).symm

/-- Of an identifier after a host no more is trimmed than the blanks at its end. -/
theorem toList_trim_stem (h : Host) (id : String) :
    (Text.trim (h.stem ++ id)).toList = (h.lead ++ h.name ++ s!"/tcp/{peerPort}").toList ++
      (Host.peerMark.toList ++ id.toList.rdropWhile Text.isBlank) := by
  obtain ⟨cs, hstart⟩ : ∃ cs, (h.lead ++ h.name ++ s!"/tcp/{peerPort}").toList = '/' :: cs := by
    cases h <;> simp [Host.lead]
  have hstem : (h.stem ++ id).toList =
      '/' :: cs ++ ('/' :: (['p', '2', 'p', '/'] ++ id.toList)) := by
    rw [Host.stem, String.toList_append, String.toList_append, hstart, List.append_assoc]
    rfl
  have hkeep : ('/' :: (['p', '2', 'p', '/'] ++ id.toList)).rdropWhile Text.isBlank =
      Host.peerMark.toList ++ id.toList.rdropWhile Text.isBlank := by
    simp only [List.cons_append, List.nil_append]
    repeat rw [Text.rdropWhile_cons (by decide)]
    rfl
  rw [Text.toList_trim, hstem,
    Text.trimChars_append (by decide) ⟨'/', List.mem_cons_self, by decide⟩, hkeep, hstart]

/-- The address of a peer at a host is written as the one after the other. -/
theorem text_eq_of_ofHost (hid : id.length = peerIdLength) (ha : ofHost h id = .ok a) :
    a.text = h.stem ++ id := by
  have htext := toList_trim_stem h id
  rw [← text_of_parse ha] at htext
  -- Less than an identifier would be left if blanks had been trimmed from its end.
  have htail := List.rdropWhile_prefix (p := Text.isBlank) (l := id.toList)
  have hshort : (id.toList.rdropWhile Text.isBlank).length ≤ peerIdLength := by
    rw [← hid, ← String.length_toList]
    exact htail.length_le
  have hlength := congrArg List.length (eq_of_mark htext hshort)
  obtain ⟨part, hpart, hfull⟩ := a.exists_idPart
  rw [peerId_eq_of_idPart? hpart, String.length_toList, hfull, ← hid, ← String.length_toList]
    at hlength
  rw [htail.eq_of_length hlength.symm] at htext
  rw [← String.toList_inj, htext, ← List.append_assoc, ← String.toList_append,
    ← String.toList_append, Host.stem]

/-- The address of a peer at a host ends in the identifier of the peer. -/
theorem peerId_of_ofHost (hid : id.length = peerIdLength) (ha : ofHost h id = .ok a) :
    a.peerId = id := by
  have htext : a.text.toList = (h.lead ++ h.name ++ s!"/tcp/{peerPort}").toList ++
      (Host.peerMark.toList ++ id.toList) := by
    rw [text_eq_of_ofHost hid ha, Host.stem, String.toList_append, String.toList_append,
      List.append_assoc]
  have hshort : id.toList.length ≤ peerIdLength := by
    rw [String.length_toList, hid]
  rw [← String.toList_inj, eq_of_mark htext hshort]

end MultiAddress

end Rendezvous
