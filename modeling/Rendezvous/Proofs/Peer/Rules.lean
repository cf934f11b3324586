import Rendezvous.Proofs.Address.Hosts
import Rendezvous.Proofs.Peer.Validation

/-!
# The rules of a configuration

Each peer has to keep three rules by itself, and no two peers may have one name. Validation goes
through the peers in the order of the document and reports the first one that breaks a rule: the first
of its own rules that it breaks, or else that its name was there before.
-/

namespace Rendezvous

theorem Text.isBlankText_iff {s : String} : isBlankText s = true ↔ trim s = "" := by
  rw [← String.toList_eq_nil_iff, toList_trim, trimChars_eq, isBlankText, List.all_eq_true,
    List.rdropWhile_eq_nil_iff]
  constructor
  · intro hall c hc
    exact hall c ((List.dropWhile_sublist isBlank).mem hc)
  · intro hall c hc
    cases hrest : s.toList.dropWhile isBlank with
    | nil => exact List.dropWhile_eq_nil_iff.1 hrest c hc
    | cons d ds =>
      have hne : s.toList.dropWhile isBlank ≠ [] := by simp [hrest]
      have hhead := List.head_dropWhile_not isBlank hne
      exact absurd (hall _ (List.head_mem hne)) (by simp [hhead])

/-! ## The rules of one peer -/

namespace Peer

variable {p : Peer} {before : List Peer} {e : ConfigError}

/-- A peer keeps the rules for peers. -/
structure IsProper (p : Peer) : Prop where
  /-- Its name is not blank. -/
  named : Text.trim p.nodeName ≠ ""
  /-- It has no DNS names, or one for each dependency. -/
  aligned : p.dnsConnections = [] ∨ p.dnsConnections.length = p.connectsTo.length
  /-- It has a dependency if one is to be injected. -/
  connected : p.connectsAsEnvVar = true → p.connectsTo ≠ []

/-- The first rule that a peer breaks, where other peers come before it. -/
inductive Breaks (p : Peer) (before : List Peer) : ConfigError → Prop where
  /-- Its name is blank. -/
  | emptyName (blank : Text.trim p.nodeName = "") : Breaks p before .emptyName
  /-- It has DNS names, but not one for each dependency. -/
  | misalignedDns (named : Text.trim p.nodeName ≠ "") (listed : p.dnsConnections ≠ [])
      (misaligned : p.dnsConnections.length ≠ p.connectsTo.length) :
      Breaks p before
        (.misalignedDns p.nodeName p.dnsConnections.length p.connectsTo.length)
  /-- A dependency is to be injected, but it has none. -/
  | missingEnvVarTarget (named : Text.trim p.nodeName ≠ "")
      (aligned : p.dnsConnections = [] ∨ p.dnsConnections.length = p.connectsTo.length)
      (injected : p.connectsAsEnvVar = true) (alone : p.connectsTo = []) :
      Breaks p before (.missingEnvVarTarget p.nodeName)
  /-- It keeps its own rules, but its name was there before. -/
  | duplicateName (proper : p.IsProper) (known : ∃ q ∈ before, q.nodeName = p.nodeName) :
      Breaks p before (.duplicateName p.nodeName)

/-- The rule that a peer breaks first where peers of some names come before it. -/
def faultAmong? (names : List String) (p : Peer) : Option ConfigError :=
  p.fault?.or (if names.contains p.nodeName then some (.duplicateName p.nodeName) else none)

theorem named_iff : Text.trim p.nodeName ≠ "" ↔ ¬ Text.isBlankText p.nodeName = true :=
  Text.isBlankText_iff.symm.not

theorem aligned_iff : (p.dnsConnections = [] ∨ p.dnsConnections.length = p.connectsTo.length) ↔
    ¬ (!p.dnsConnections.isEmpty && p.dnsConnections.length != p.connectsTo.length) = true := by
  simp [or_iff_not_imp_left]

theorem connected_iff : (p.connectsAsEnvVar = true → p.connectsTo ≠ []) ↔
    ¬ (p.connectsAsEnvVar && p.connectsTo.isEmpty) = true := by
  simp

theorem fault?_eq_none_iff : p.fault? = none ↔ p.IsProper := by
  unfold fault?
  split_ifs with hblank hdns henv
  · exact ⟨nofun, fun hproper => absurd hblank (named_iff.1 hproper.named)⟩
  · exact ⟨nofun, fun hproper => absurd hdns (aligned_iff.1 hproper.aligned)⟩
  · exact ⟨nofun, fun hproper => absurd henv (connected_iff.1 hproper.connected)⟩
  · exact ⟨fun _ => ⟨named_iff.2 hblank, aligned_iff.2 hdns, connected_iff.2 henv⟩, fun _ => rfl⟩

/-- A rule that a peer breaks by itself is the first that it breaks wherever it stands. -/
theorem breaks_of_fault? (h : p.fault? = some e) : p.Breaks before e := by
  unfold fault? at h
  split_ifs at h with hblank hdns henv
  · obtain rfl := Option.some.inj h
    exact .emptyName (Text.isBlankText_iff.1 hblank)
  · obtain rfl := Option.some.inj h
    obtain ⟨hlisted, hmisaligned⟩ := not_or.1 (aligned_iff.not_left.2 hdns)
    exact .misalignedDns (named_iff.2 hblank) hlisted hmisaligned
  · obtain rfl := Option.some.inj h
    obtain ⟨hinjected, halone⟩ := Classical.not_imp.1 (connected_iff.not_left.2 henv)
    exact .missingEnvVarTarget (named_iff.2 hblank) (aligned_iff.2 hdns) hinjected (not_not.1 halone)

theorem faultAmong?_eq_some_iff :
    p.faultAmong? (before.map nodeName).reverse = some e ↔ p.Breaks before e := by
  unfold faultAmong?
  constructor
  · intro h
    cases hfault : p.fault? with
    | some e' =>
      rw [hfault, Option.some_or] at h
      exact breaks_of_fault? (hfault.trans h)
    | none =>
      rw [hfault, Option.none_or, Option.ite_none_right_eq_some, List.contains_iff_mem,
        List.mem_reverse, List.mem_map] at h
      obtain ⟨hknown, hdup⟩ := h
      exact Option.some.inj hdup ▸ .duplicateName (fault?_eq_none_iff.1 hfault) hknown
  · intro h
    cases h with
    | emptyName blank => simp [fault?, Text.isBlankText_iff.2 blank]
    | misalignedDns named listed misaligned =>
      simp [fault?, named_iff.1 named, listed, misaligned]
    | missingEnvVarTarget named aligned injected alone =>
      -- without dependencies there is nothing to align DNS names with
      have hnodns : p.dnsConnections = [] := by simpa [alone] using aligned
      simp [fault?, named_iff.1 named, hnodns, injected, alone]
    | duplicateName proper known => simp [fault?_eq_none_iff.2 proper, known]

end Peer

/-! ## Lists of peers -/

/-- Peers keep all rules. -/
structure KeepRules (ps : List Peer) : Prop where
  /-- Each of them keeps the rules for peers. -/
  proper : ∀ p ∈ ps, p.IsProper
  /-- No two of them have one name. -/
  distinct : ps.Pairwise fun p q => p.nodeName ≠ q.nodeName

namespace Config

variable {seen : List String} {ps : List Peer} {p : Peer} {e : ConfigError}

theorem faultAfter?_cons :
    faultAfter? seen (p :: ps) = (p.faultAmong? seen).or (faultAfter? (p.nodeName :: seen) ps) := by
  rw [faultAfter?, Peer.faultAmong?]
  cases p.fault? with
  | some e => rfl
  | none => cases seen.contains p.nodeName <;> rfl

theorem faultAfter?_append {qs : List Peer} :
    faultAfter? seen (ps ++ qs) =
      (faultAfter? seen ps).or (faultAfter? ((ps.map Peer.nodeName).reverse ++ seen) qs) := by
  induction ps generalizing seen with
  | nil => simp [faultAfter?]
  | cons p ps ih => simp [faultAfter?_cons, ih, Option.or_assoc]

/-- The rule that a list of peers breaks first is the one that the first peer breaks which breaks one
after the peers before it. -/
theorem faultAfter?_nil_eq_some_iff :
    faultAfter? [] ps = some e ↔ ∃ before p after, ps = before ++ p :: after ∧
      faultAfter? [] before = none ∧ p.Breaks before e := by
  simp only [← Peer.faultAmong?_eq_some_iff]
  constructor
  · intro h
    -- from the end: the last peer matters only if nothing is wrong before it
    induction ps using List.reverseRecOn with
    | nil => simp [faultAfter?] at h
    | append_singleton ps p ih =>
      cases hps : faultAfter? [] ps with
      | some e' =>
        rw [faultAfter?_append, hps, Option.some_or] at h
        obtain ⟨before, q, after, rfl, hbefore, hq⟩ := ih (hps.trans h)
        exact ⟨before, q, after ++ [p], by simp, hbefore, hq⟩
      | none =>
        rw [faultAfter?_append, hps, Option.none_or, List.append_nil, faultAfter?_cons] at h
        exact ⟨ps, p, [], rfl, hps, by simpa [faultAfter?] using h⟩
  · rintro ⟨before, p, after, rfl, hbefore, hp⟩
    rw [faultAfter?_append, hbefore, Option.none_or, List.append_nil, faultAfter?_cons, hp,
      Option.some_or]

theorem faultAfter?_nil_eq_none_iff : faultAfter? [] ps = none ↔ KeepRules ps := by
  rw [faultAfter?_eq_none_iff, List.Nodup, List.pairwise_map]
  simp only [Peer.fault?_eq_none_iff]
  exact ⟨fun ⟨hproper, hdistinct, _⟩ => ⟨hproper, hdistinct⟩,
    fun ⟨hproper, hdistinct⟩ => ⟨hproper, hdistinct, fun _ _ => List.not_mem_nil⟩⟩

/-! ## Configurations -/

/-- What validation tells of a configuration, and what is found in it under a name. -/
structure Judged (c : Config) : Prop where
  /-- It is accepted if and only if its peers keep all rules. -/
  accepted : c.validate = .ok () ↔ KeepRules c.peers
  /-- It is rejected for what the first peer breaks that breaks a rule after the peers before it. -/
  rejected : ∀ e, c.validate = .error e ↔ ∃ before p after, c.peers = before ++ p :: after ∧
    KeepRules before ∧ p.Breaks before e
  /-- If it is accepted, the name of a peer finds this peer and the group that lists it. -/
  found : c.validate = .ok () → ∀ g ∈ c.groups, ∀ p ∈ g.peers,
    c.find? p.nodeName = some p ∧ c.groupOf? p.nodeName = some g
  /-- The name of no peer finds neither a peer nor a group. -/
  missed : ∀ node, (∀ p ∈ c.peers, p.nodeName ≠ node) →
    c.find? node = none ∧ c.groupOf? node = none

variable {c : Config}

theorem validate_eq_error_iff : c.validate = .error e ↔ c.fault? = some e := by
  unfold validate
  cases c.fault? <;> simp

/-- Both searches miss a name that no peer has. -/
theorem missed_of_unnamed {node : String} (h : ∀ p ∈ c.peers, p.nodeName ≠ node) :
    c.find? node = none ∧ c.groupOf? node = none := by
  constructor
  · exact List.find?_eq_none.2 fun p hp => by simpa using h p hp
  · refine List.find?_eq_none.2 fun g hg hcontains => ?_
    obtain ⟨p, hp, hname⟩ := List.any_eq_true.1 hcontains
    exact h p (List.mem_flatMap.2 ⟨g, hg, hp⟩) (eq_of_beq hname)

/-- Validation accepts just the configurations whose peers keep all rules, and tells of any other one
what is first wrong with it; in a valid configuration, a name finds its own peer and group. -/
theorem validation_exact (c : Config) : c.Judged where
  accepted := by
    rw [validate_eq_ok_iff, ← faultAfter?_nil_eq_none_iff, faultAfter?_eq_none_iff]
    simp
  rejected e := by
    rw [validate_eq_error_iff, fault?, faultAfter?_nil_eq_some_iff]
    simp only [faultAfter?_nil_eq_none_iff]
  found hvalid g hg p hp := by
    obtain ⟨found, hfind, heq⟩ := find?_nodeName (List.mem_flatMap.2 ⟨g, hg, hp⟩)
    exact ⟨hfind.trans (congrArg some (heq hvalid)), groupOf?_eq_some hvalid hg hp⟩
  missed _ := missed_of_unnamed

/-- Two groups of one peer each. -/
def pairOfGroups : Config where
  groups := [
    { peers := [{ nodeName := "da-bridge-1" }] },
    { peers := [{ nodeName := "da-full-1", connectsTo := ["da-bridge-1"] }] }]

theorem validation_exact_pairOfGroups :
    pairOfGroups.validate = .ok () ∧
      pairOfGroups.groupOf? "da-full-1" = pairOfGroups.groups[1]? ∧
      pairOfGroups.groupOf? "da-light-1" = none := by
  have hjudged := validation_exact pairOfGroups
  have hvalid : pairOfGroups.validate = .ok () := by decide
  refine ⟨hvalid, ?_, ?_⟩
  · exact (hjudged.found hvalid _ (.tail _ (.head _)) _ (.head _)).2
  · exact (hjudged.missed "da-light-1" (by decide)).2

/-- A peer that comes later breaks a rule by itself, but the second of one name is found first. -/
example :
    ({ groups := [
        { peers := [{ nodeName := "da-bridge-1" }] },
        { peers := [{ nodeName := "da-bridge-1" }, { nodeName := " " }] }] } : Config).validate =
      .error (.duplicateName "da-bridge-1") := by decide

end Config

end Rendezvous
