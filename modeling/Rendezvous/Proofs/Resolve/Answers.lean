import Rendezvous.Proofs.Address.Parsing
import Rendezvous.Proofs.Pool.Alone
import Rendezvous.Proofs.Pool.Tasks
import Rendezvous.Proofs.Resolve.Yields

/-!
# The address that a resolution gives

A record under the name of a node holds its whole address, or only its identifier if it was made by an
earlier kind of controller. The address that a resolution gives is one that can be read and passed on,
unless its first look into the cache is answered with a bare identifier: then that identifier is what
it gives. Wherever else a bare identifier is found, it does not come out as an address.
-/

namespace Rendezvous

/-- A record that holds a whole address. -/
def WholeAddress (value : String) : Prop :=
  hasLead value = true ∧ ∃ a, MultiAddress.parse value = .ok a

/-- A record that holds the identifier of a node and nothing else. -/
def BareIdentifier (value : String) : Prop :=
  hasLead value = false ∧ value.length = peerIdLength

/-- A text can be read as an address, and it is passed on to a peer's group when it is what is recorded
of the peer. -/
structure UsableAddress (p : Peer) (text : String) : Prop where
  /-- It can be read. -/
  reads : ∃ a, MultiAddress.parse text = .ok a
  /-- It is passed on. -/
  passedOn : ∀ records : List (String × String),
    records.find? (·.1 == p.nodeName) = some (p.nodeName, text) →
      PeerGroup.usableAddress? records p = some text

/-- An address that was noted reads as itself. -/
def TaskEvent.ReadsBack : TaskEvent → Prop
  | .consulted (.recallAddress _) answer =>
    ∀ a, answer = some a → MultiAddress.parse a.text = .ok a
  | _ => True

theorem PeerGroup.usableAddress?_eq {records : List (String × String)} {p : Peer} {text : String}
    (h : records.find? (·.1 == p.nodeName) = some (p.nodeName, text)) :
    usableAddress? records p = if hasLead text then some text else none := by
  rw [usableAddress?, h]

theorem WholeAddress.usable {text : String} (h : WholeAddress text) (p : Peer) :
    UsableAddress p text where
  reads := h.2
  passedOn records hrecords := by
    rw [PeerGroup.usableAddress?_eq hrecords, if_pos h.1]

/-- An address is longer than its identifier. -/
theorem MultiAddress.length_lt_text (a : MultiAddress) : peerIdLength < a.text.length := by
  obtain ⟨id, hid, hlength⟩ := a.exists_idPart
  unfold idPart? at hid
  obtain ⟨⟨before, after⟩, hsplit, rfl⟩ := Option.map_eq_some_iff.1 hid
  have hwhole := congrArg List.length (Text.eq_of_splitLast? hsplit)
  have hmark : Host.peerMark.toList.length = 5 := by decide
  rw [String.length_ofList] at hlength
  rw [List.length_append, List.length_append, String.length_toList, hmark] at hwhole
  dsimp only at hlength
  omega

/-- The address that every node has by the sample answers is one. -/
theorem exists_parse_sampleAddress :
    ∃ a, MultiAddress.parse sampleAddress = .ok a ∧ a.text = sampleAddress := by
  have hsound : MultiAddress.fault? sampleAddress = none := by decide +kernel
  have htrim : sampleAddress = Text.trim sampleAddress := by decide +kernel
  exact ⟨⟨sampleAddress, hsound⟩, MultiAddress.parse_eq_ok_iff.2 htrim, rfl⟩

/-- A bare identifier is no address, and it is not passed on. -/
theorem BareIdentifier.not_usable {text : String} (h : BareIdentifier text) :
    (∀ a, MultiAddress.parse text ≠ .ok a) ∧ ∀ p, ¬ UsableAddress p text := by
  refine ⟨fun a ha => ?_, fun p husable => ?_⟩
  · have hlong := a.length_lt_text
    have htrim : a.text.length ≤ text.length := by
      rw [MultiAddress.text_of_parse ha, ← String.length_toList, ← String.length_toList,
        Text.toList_trim, Text.trimChars_eq]
      exact (List.rdropWhile_prefix _ _).length_le.trans (List.dropWhile_suffix _).length_le
    have hlength := h.2
    omega
  · have hfind : [(p.nodeName, text)].find? (·.1 == p.nodeName) = some (p.nodeName, text) := by simp
    have hpassed := husable.passedOn _ hfind
    rw [PeerGroup.usableAddress?_eq hfind, h.1] at hpassed
    exact absurd hpassed (by simp)

namespace Resolve

open Routine Attempt

variable {s : Settings} {p : Peer} {t : List TaskEvent} {res : Resolution}

/-! ## Addresses that are looked for -/

theorem yields_any {α : Type} {E : TaskEvent → Prop} (x : Attempt α) :
    Yields E (fun _ => True) x :=
  fun _ _ _ _ => trivial

theorem yields_probeOwn (p : Peer) :
    Yields TaskEvent.ReadsBack (fun a => MultiAddress.parse a.text = .ok a) (probeOwn p) := by
  unfold probeOwn
  refine (yields_any (peerIdOf p)).bind fun id _ => (yields_any (ownHost p)).bind fun host _ => ?_
  refine (yields_ofFormat fun a ha => MultiAddress.parse_text ha).bind fun a ha => ?_
  exact (yields_any _).bind fun _ _ => yields_pure ha

/-- The own address of a node is noted, read from a record or put together, and reads as itself. -/
theorem yields_ownAddress (p : Peer) :
    Yields TaskEvent.ReadsBack (fun a => MultiAddress.parse a.text = .ok a) (ownAddress p) := by
  have hrecall : Yields TaskEvent.ReadsBack
      (fun known => ∀ a, known = some a → MultiAddress.parse a.text = .ok a)
      (liftM (consult (.recallAddress p.nodeName))) := by
    refine yields_lift fun t known hends hE => ?_
    obtain rfl := (@ends_consult t (.recallAddress p.nodeName) known).1 hends
    exact hE (.consulted (.recallAddress p.nodeName) known) (by simp)
  unfold ownAddress
  refine hrecall.bind fun known hknown => ?_
  cases known with
  | some a => exact yields_pure (hknown a rfl)
  | none =>
    refine .locked ((yields_any (liftM (lookup p.nodeName))).bind fun known _ => ?_)
    cases known with
    | some value => exact yields_ofFormat fun a ha => MultiAddress.parse_text ha
    | none => exact yields_probeOwn p

/-- A node that is resolved anew and makes itself known comes to an address. -/
theorem yields_resolveAnew (s : Settings) (hown : p.nodeType.advertises = true) :
    Yields TaskEvent.ReadsBack (fun res => ∃ text, res.address = some text ∧ WholeAddress text)
      (resolveAnew s p) := by
  unfold resolveAnew
  rw [if_pos hown]
  have hfound : Yields TaskEvent.ReadsBack
      (fun own => ∃ a : MultiAddress, own = some a ∧ MultiAddress.parse a.text = .ok a)
      (some <$> ownAddress p) :=
    (yields_ownAddress p).map fun a ha => ⟨a, rfl, ha⟩
  refine hfound.bind fun own hfound => ?_
  obtain ⟨a, rfl, ha⟩ := hfound
  refine (yields_any (connect s p)).bind fun connections _ => ?_
  refine (yields_any _).bind fun _ _ => (yields_any _).bind fun _ _ => ?_
  exact yields_pure ⟨a.text, rfl, a.hasLead_text, a, ha⟩

/-- The first look into the cache is answered with a bare identifier. -/
def FindsBare (p : Peer) (t : List TaskEvent) : Prop :=
  ∃ value rest, t = .consulted (.cacheGet p.nodeName) (.ok (some value)) :: rest ∧
    BareIdentifier value

theorem findsBare_iff {answer : Except CacheError (Option String)} :
    FindsBare p (.consulted (.cacheGet p.nodeName) answer :: t) ↔
      ∃ value, answer = .ok (some value) ∧ BareIdentifier value := by
  constructor
  · rintro ⟨value, rest, heq, hbare⟩
    obtain ⟨hfirst, -⟩ := List.cons.inj heq
    cases hfirst
    exact ⟨value, rfl, hbare⟩
  · rintro ⟨value, rfl, hbare⟩
    exact ⟨value, t, rfl, hbare⟩

/-- Whatever else happens, the address of a node that makes itself known can be read and is passed on,
unless the first look into the cache finds a bare identifier. What is found then is given as it is:
no command is started to complete it, it is no address, and it is not passed on. -/
theorem resolved_address_usable_iff (hown : p.nodeType.advertises = true)
    (hrecords : ∀ value, .consulted (.cacheGet p.nodeName) (.ok (some value)) ∈ t →
      WholeAddress value ∨ BareIdentifier value)
    (hnoted : ∀ e ∈ t, e.ReadsBack) (h : Ends (resolve s p).run t (.ok res)) :
    ∃ text, res.address = some text ∧ (UsableAddress p text ↔ ¬ FindsBare p t) ∧
      (FindsBare p t → BareIdentifier text ∧ res.cached = true ∧ (∀ request, .called request ∉ t) ∧
        ∃ rest, t = .consulted (.cacheGet p.nodeName) (.ok (some text)) :: rest) := by
  unfold resolve at h
  obtain ⟨t₁, known, t₂, rfl, h₁, h₂⟩ := ends_run_bind_ok.1 h
  rw [ends_run_lift] at h₁
  unfold lookup at h₁
  obtain ⟨t₃, answer, t₄, rfl, h₃, h₄⟩ := ends_bind.1 h₁
  obtain rfl := ends_consult.1 h₃
  obtain ⟨rfl, rfl⟩ := ends_pure.1 h₄
  rw [List.append_nil, List.singleton_append] at hrecords hnoted ⊢
  cases hknown : knownValue answer with
  | some value =>
    obtain rfl := knownValue_eq_some hknown
    simp only [hknown] at h₂
    obtain ⟨t₅, u, t₆, rfl, h₅, h₆⟩ := ends_run_bind_ok.1 h₂
    obtain rfl := ends_consult.1 (ends_run_lift.1 h₅)
    obtain ⟨rfl, hres⟩ := ends_run_pure.1 h₆
    obtain rfl := Except.ok.inj hres
    have hfinds := @findsBare_iff p ([.consulted (.register p.nodeName value p.space) u] ++ [])
      (.ok (some value))
    rcases hrecords value List.mem_cons_self with hwhole | hbare
    · have hother : ¬ ∃ value', Except.ok (ε := CacheError) (some value) = .ok (some value') ∧
          BareIdentifier value' := by
        rintro ⟨value', heq, hbare⟩
        obtain rfl := Option.some.inj (Except.ok.inj heq)
        exact absurd hwhole.1 (by simp [hbare.1])
      have hnot := mt hfinds.1 hother
      exact ⟨value, rfl, iff_of_true (hwhole.usable p) hnot, fun hfound => absurd hfound hnot⟩
    · have hfound := hfinds.2 ⟨value, rfl, hbare⟩
      refine ⟨value, rfl, iff_of_false (hbare.not_usable.2 p) fun hnot => hnot hfound, fun _ => ?_⟩
      exact ⟨hbare, rfl, by simp, _, rfl⟩
  | none =>
    simp only [hknown] at h₂
    obtain ⟨text, haddress, hwhole⟩ := yields_resolveAnew s hown t₂ res h₂ fun e he =>
      hnoted e (List.mem_cons_of_mem _ he)
    -- What is not known is no record, or an empty one.
    have hnot : ¬ FindsBare p (.consulted (.cacheGet p.nodeName) answer :: t₂) := by
      intro hfound
      obtain ⟨value, rfl, hbare⟩ := findsBare_iff.1 hfound
      have hempty : value = "" := by simpa [knownValue] using hknown
      rw [hempty] at hbare
      exact absurd hbare.2 (by decide)
    exact ⟨text, haddress, iff_of_true (hwhole.usable p) hnot, fun hfound => absurd hfound hnot⟩

/-! ## A record of an earlier kind -/

/-- A peer of which only the identifier is recorded. -/
def legacyPeer : Peer := Peer.withDefaults { nodeName := "da-one" } "default"

/-- The settings with only this peer. -/
def legacySettings : Settings := { config := ⟨[{ peers := [legacyPeer] }]⟩ }

/-- The identifier. -/
def legacyIdentifier : String := "12D3KooWAbCdEfGhIjKlMnOpQrStUvWxYz123456789abcdefghi"

/-- The memory with its record and nothing else. -/
def legacyMemory : Memory := { cache := .ofRecords 0 [("da-one", legacyIdentifier)] }

/-- The identifier comes back as the address of the peer, which the propagation to its group leaves
out. -/
theorem resolved_address_usable_iff_legacy :
    ∃ log q res, Run (Pool.Turn (.still 0 sampleAnswer))
        (Pool.alone legacyMemory (resolve legacySettings legacyPeer).run) log q ∧
      q.tasks[0]? = some (.ended (.value (.ok res))) ∧ res.address = some legacyIdentifier ∧
      BareIdentifier legacyIdentifier ∧
      (UsableAddress legacyPeer legacyIdentifier ↔ ¬ FindsBare legacyPeer (own 0 log)) ∧
      FindsBare legacyPeer (own 0 log) ∧
      PeerGroup.usableAddress? (q.memory.cache.toList 0) legacyPeer = none := by
  let log : List (Nat × TaskEvent) :=
    [(0, .consulted (.cacheGet "da-one") (.ok (some legacyIdentifier))),
      (0, .consulted (.register "da-one" legacyIdentifier "default") ())]
  have hfinish : ∃ q, Pool.finishAll? 0 sampleAnswer [0]
      (Pool.alone legacyMemory (resolve legacySettings legacyPeer).run) = some (log, q) ∧
      q.ending? 0 = some (.value (.ok ⟨"da-one", some legacyIdentifier, none, true⟩)) ∧
      q.memory.cache = legacyMemory.cache :=
    ⟨_, rfl, rfl, rfl⟩
  obtain ⟨q, hx, hended, hcache⟩ := hfinish
  have hrun : Run (Pool.Turn (.still 0 sampleAnswer)) _ log q :=
    Pool.finishAll?_run rfl (fun _ => rfl) hx
  have hends : Ends (resolve legacySettings legacyPeer).run (own 0 log) _ :=
    Pool.task_follows (hrun.mono .turn) rfl (Pool.ending?_eq_some.1 hended)
  have hbare : BareIdentifier legacyIdentifier := ⟨by decide, by decide⟩
  have hrecords : ∀ value, .consulted (.cacheGet legacyPeer.nodeName) (.ok (some value)) ∈ own 0 log →
      WholeAddress value ∨ BareIdentifier value := by
    intro value hmem
    rcases List.mem_cons.1 hmem with heq | hmem
    · cases heq
      exact Or.inr hbare
    · exact absurd (List.mem_singleton.1 hmem) (by simp)
  have hnoted : ∀ e ∈ own 0 log, e.ReadsBack := by
    intro e hmem
    rcases List.mem_cons.1 hmem with rfl | hmem
    · trivial
    · obtain rfl := List.mem_singleton.1 hmem
      trivial
  have hfinds : FindsBare legacyPeer (own 0 log) := ⟨legacyIdentifier, _, rfl, hbare⟩
  obtain ⟨text, htext, hiff, -⟩ := resolved_address_usable_iff rfl hrecords hnoted hends
  obtain rfl := Option.some.inj htext
  refine ⟨log, q, _, hrun, Pool.ending?_eq_some.1 hended, rfl, hbare, hiff, hfinds, ?_⟩
  rw [hcache]
  rfl

end Resolve

end Rendezvous
