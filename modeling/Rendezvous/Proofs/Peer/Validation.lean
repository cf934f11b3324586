import Mathlib.Data.List.Nodup
import Mathlib.Data.List.Pairwise
import Mathlib.Tactic.Common
import Rendezvous.Peer.Config

/-!
# What validation asks for

A configuration is accepted if and only if no peer breaks a rule by itself and no two peers have one
name.
-/

namespace Rendezvous.Config

theorem faultAfter?_eq_none_iff {seen : List String} {ps : List Peer} :
    faultAfter? seen ps = none ↔
      (∀ p ∈ ps, p.fault? = none) ∧ (ps.map Peer.nodeName).Nodup ∧
        ∀ p ∈ ps, p.nodeName ∉ seen := by
  induction ps generalizing seen with
  | nil => simp [faultAfter?]
  | cons p ps ih =>
    unfold faultAfter?
    cases hfault : p.fault? with
    | some e => simp [hfault]
    | none =>
      by_cases hseen : p.nodeName ∈ seen
      · simp [hseen]
      · rw [List.map_cons, List.nodup_cons]
        simp only [List.contains_iff_mem, hseen, if_false, ih, List.mem_cons, forall_eq_or_imp,
          hfault, true_and, not_or, List.mem_map, not_exists, not_and, not_false_eq_true]
        constructor
        · rintro ⟨hrules, hnodup, hnames⟩
          exact ⟨hrules, ⟨fun q hq => (hnames q hq).1, hnodup⟩, fun q hq => (hnames q hq).2⟩
        · rintro ⟨hrules, ⟨hfresh, hnodup⟩, hnames⟩
          exact ⟨hrules, hnodup, fun q hq => ⟨hfresh q hq, hnames q hq⟩⟩

theorem validate_eq_ok_iff {c : Config} :
    c.validate = .ok () ↔
      (∀ p ∈ c.peers, p.fault? = none) ∧ (c.peers.map Peer.nodeName).Nodup := by
  have hnone : c.validate = .ok () ↔ c.fault? = none := by
    unfold validate
    cases c.fault? <;> simp
  rw [hnone, fault?, faultAfter?_eq_none_iff]
  simp

/-- In a valid configuration, peers of one name are one peer. -/
theorem eq_of_nodeName {c : Config} (h : c.validate = .ok ()) {p q : Peer} (hp : p ∈ c.peers)
    (hq : q ∈ c.peers) (hname : p.nodeName = q.nodeName) : p = q :=
  List.inj_on_of_nodup_map (validate_eq_ok_iff.1 h).2 hp hq hname

theorem nodeName_of_find? {c : Config} {node : String} {p : Peer}
    (h : c.find? node = some p) : p.nodeName = node := by
  have hname := @List.find?_some _ (fun p : Peer => p.nodeName == node) _ _ h
  exact eq_of_beq hname

/-- The name of a configured peer finds a peer, which is the only one in a valid configuration. -/
theorem find?_nodeName {c : Config} {p : Peer} (hp : p ∈ c.peers) :
    ∃ found, c.find? p.nodeName = some found ∧ (c.validate = .ok () → found = p) := by
  cases hfind : c.find? p.nodeName with
  | none => exact absurd (List.find?_eq_none.1 hfind p hp) (by simp)
  | some found =>
    refine ⟨found, rfl, fun hvalid => ?_⟩
    exact eq_of_nodeName hvalid (List.mem_of_find?_eq_some hfind) hp (nodeName_of_find? hfind)

/-- In a valid configuration, the group of a peer is the one that lists it. -/
theorem groupOf?_eq_some {c : Config} (h : c.validate = .ok ()) {g : PeerGroup} (hg : g ∈ c.groups)
    {p : Peer} (hp : p ∈ g.peers) : c.groupOf? p.nodeName = some g := by
  have hcontains : g.contains p.nodeName = true := List.any_eq_true.2 ⟨p, hp, beq_self_eq_true _⟩
  unfold groupOf?
  cases hfind : c.groups.find? (·.contains p.nodeName) with
  | none => exact absurd hcontains (List.find?_eq_none.1 hfind g hg)
  | some g' =>
    have hcontains' : g'.contains p.nodeName = true :=
      @List.find?_some _ (fun g : PeerGroup => g.contains p.nodeName) _ _ hfind
    obtain ⟨q, hq, hname⟩ := List.any_eq_true.1 hcontains'
    have hnames := (validate_eq_ok_iff.1 h).2
    rw [peers, List.map_flatMap, List.nodup_flatMap] at hnames
    -- Two different groups have no name in common.
    by_contra hne
    have hsymm : Std.Symm (Function.onFun List.Disjoint
        fun g : PeerGroup => g.peers.map Peer.nodeName) := ⟨fun _ _ hd _ h₁ h₂ => hd h₂ h₁⟩
    have hapart := hnames.2.forall (List.mem_of_find?_eq_some hfind) hg
      fun heq => hne (congrArg some heq)
    refine hapart (List.mem_map_of_mem hq) ?_
    rw [eq_of_beq hname]
    exact List.mem_map_of_mem hp

end Rendezvous.Config
