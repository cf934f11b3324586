import Mathlib.Data.List.Induction
import Mathlib.Data.List.Nodup
import Mathlib.Data.List.Perm.Basic
import Mathlib.Tactic.Common
import Rendezvous.Registry

/-!
# An address belongs to who came first

What a sequence of registrations leaves behind, and what is published of it. Who registers an address
first is published with it; whoever comes later changes nothing. The list that is published is sorted by
node and address. Since no address is in it twice, the order is strict, and a strictly sorted list is
determined by what is in it: in which order the registry keeps its entries does not matter.
-/

namespace Rendezvous

open scoped List

/-- One call that registers an address of a node. -/
structure Registry.Call where
  node : String
  address : String
  space : String
deriving DecidableEq, Repr

namespace Registry.Call

/-- The registration that a call asks for. -/
def under (service : String) (c : Call) : Registration := ⟨service, c.node, c.address, c.space⟩

/-- A call is the first one for its address. -/
def IsFirst (c : Call) (calls : List Call) : Prop :=
  ∃ earlier later : List Call, calls = earlier ++ c :: later ∧
    ∀ b ∈ earlier, b.address ≠ c.address

variable {c d : Call} {calls : List Call}

theorem isFirst_iff_find? : c.IsFirst calls ↔ calls.find? (·.address == c.address) = some c := by
  rw [List.find?_eq_some_iff_append]
  simp [IsFirst]

theorem IsFirst.mem (h : c.IsFirst calls) : c ∈ calls := by
  obtain ⟨earlier, later, rfl, -⟩ := h
  exact List.mem_append_right _ List.mem_cons_self

theorem exists_isFirst (hc : c ∈ calls) : ∃ f : Call, f.IsFirst calls ∧ f.address = c.address := by
  cases hfind : calls.find? (·.address == c.address) with
  | none => exact absurd (by simp) (List.find?_eq_none.1 hfind c hc)
  | some f =>
    have hsame : f.address = c.address := by simpa using List.find?_some hfind
    exact ⟨f, isFirst_iff_find?.2 (by rw [hsame, hfind]), hsame⟩

/-- One more call is the first one of its address when no call before it has that address. -/
theorem isFirst_append_singleton :
    d.IsFirst (calls ++ [c]) ↔
      d.IsFirst calls ∨ d = c ∧ ∀ b ∈ calls, b.address ≠ c.address := by
  simp only [isFirst_iff_find?, List.find?_append]
  cases hfind : calls.find? (·.address == d.address) with
  | some f =>
    have hmem : f ∈ calls := List.mem_of_find?_eq_some hfind
    have hsame : f.address = d.address := by simpa using List.find?_some hfind
    simp only [Option.some_or, Option.some.injEq, iff_self_or, and_imp]
    rintro rfl hnone
    exact absurd hsame (hnone f hmem)
  | none =>
    have hnone : ∀ b ∈ calls, b.address ≠ d.address := by simpa using hfind
    simp only [Option.none_or, reduceCtorEq, false_or]
    constructor
    · intro hlast
      obtain rfl : d = c := List.mem_singleton.1 (List.mem_of_find?_eq_some hlast)
      exact ⟨rfl, hnone⟩
    · rintro ⟨rfl, -⟩
      simp

end Registry.Call

/-- A registration is published before another one; texts are compared by code point. -/
def Registration.Precedes (x y : Registration) : Prop :=
  x.node < y.node ∨ x.node = y.node ∧ x.address < y.address

namespace Registry

variable {r : Registry} {service : String} {calls : List Call} {c : Call} {x y z : Registration}

/-! ## The order of publication -/

theorem before_iff : before x y = true ↔
    x.node < y.node ∨ x.node = y.node ∧ x.address ≤ y.address := by
  unfold before
  by_cases hnode : x.node = y.node
  · rw [if_pos hnode, Bool.not_eq_true', decide_eq_false_iff_not, String.not_lt]
    constructor
    · exact fun hle => .inr ⟨hnode, hle⟩
    · rintro (hlt | ⟨-, hle⟩)
      · exact absurd (hnode ▸ hlt) (String.lt_irrefl _)
      · exact hle
  · rw [if_neg hnode, decide_eq_true_eq]
    constructor
    · exact .inl
    · rintro (hlt | ⟨heq, -⟩)
      · exact hlt
      · exact absurd heq hnode

theorem before_trans (hxy : before x y = true) (hyz : before y z = true) : before x z = true := by
  rw [before_iff] at hxy hyz ⊢
  rcases hxy with hxy | ⟨hxy, haxy⟩ <;> rcases hyz with hyz | ⟨hyz, hayz⟩
  · exact .inl (String.lt_trans hxy hyz)
  · exact .inl (hyz ▸ hxy)
  · exact .inl (hxy ▸ hyz)
  · exact .inr ⟨hxy.trans hyz, String.le_trans haxy hayz⟩

theorem before_total (x y : Registration) : (before x y || before y x) = true := by
  rw [Bool.or_eq_true, before_iff, before_iff]
  by_cases hxy : x.node < y.node
  · exact .inl (.inl hxy)
  by_cases hyx : y.node < x.node
  · exact .inr (.inl hyx)
  have hnode : x.node = y.node := String.le_antisymm (String.not_lt.1 hyx) (String.not_lt.1 hxy)
  exact (String.le_total x.address y.address).imp (fun h => .inr ⟨hnode, h⟩)
    fun h => .inr ⟨hnode.symm, h⟩

/-- What comes before something else, in either order, has one address at most. -/
theorem address_eq_of_before (hxy : before x y = true) (hyx : before y x = true) :
    x.address = y.address := by
  rw [before_iff] at hxy hyx
  rcases hxy with hxy | ⟨hxy, haxy⟩ <;> rcases hyx with hyx | ⟨hyx, hayx⟩
  · exact absurd hyx (String.lt_asymm hxy)
  · exact absurd (hyx ▸ hxy) (String.lt_irrefl _)
  · exact absurd (hxy ▸ hyx) (String.lt_irrefl _)
  · exact String.le_antisymm haxy hayx

theorem precedes_of_before (hxy : before x y = true) (hne : x.address ≠ y.address) :
    x.Precedes y := by
  rcases before_iff.1 hxy with hlt | ⟨heq, hle⟩
  · exact .inl hlt
  · refine .inr ⟨heq, String.not_le.1 fun hge => hne (String.le_antisymm hle hge)⟩

theorem snapshot_perm : r.snapshot ~ r.entries :=
  List.mergeSort_perm _ _

theorem pairwise_snapshot : r.snapshot.Pairwise (before · · = true) :=
  @List.pairwise_mergeSort _ before (fun _ _ _ => before_trans) before_total _

/-! ## What a sequence of registrations leaves behind -/

/-- A registration, as one call. -/
def call (r : Registry) (c : Call) : Registry := r.register c.node c.address c.space

/-- What is registered after a sequence of calls, the first one on an empty registry. -/
def ofCalls (service : String) (calls : List Call) : Registry := calls.foldl call { service }

/-- What holds of a registry after a sequence of calls. -/
structure Holds (service : String) (calls : List Call) (r : Registry) : Prop where
  kept : r.service = service
  mem_iff : ∀ x, x ∈ r.entries ↔
    ∃ c : Call, c.IsFirst calls ∧ c.address ≠ "" ∧ x = c.under service
  nodup : (r.entries.map (·.address)).Nodup

namespace Holds

theorem empty (service : String) : Holds service [] { service } where
  kept := rfl
  mem_iff x := by simp [Call.IsFirst]
  nodup := List.nodup_nil

/-- An address is known when some call had it. -/
theorem address_iff (h : Holds service calls r) (a : String) :
    a ∈ r.entries.map (·.address) ↔ a ≠ "" ∧ a ∈ calls.map (·.address) := by
  constructor
  · intro ha
    obtain ⟨x, hx, rfl⟩ := List.mem_map.1 ha
    obtain ⟨c, hfirst, hnonempty, rfl⟩ := (h.mem_iff x).1 hx
    exact ⟨hnonempty, List.mem_map.2 ⟨c, hfirst.mem, rfl⟩⟩
  · rintro ⟨hnonempty, ha⟩
    obtain ⟨c, hc, rfl⟩ := List.mem_map.1 ha
    obtain ⟨f, hfirst, hsame⟩ := Call.exists_isFirst hc
    have hentry : f.under service ∈ r.entries :=
      (h.mem_iff _).2 ⟨f, hfirst, hsame ▸ hnonempty, rfl⟩
    exact List.mem_map.2 ⟨_, hentry, hsame⟩

/-- A call changes something only when its address is neither empty nor that of a call before. -/
theorem call_eq (h : Holds service calls r) (c : Call) :
    r.call c = if c.address = "" ∨ c.address ∈ calls.map (·.address) then r
      else { r with entries := r.entries ++ [c.under service] } := by
  have hknown : (c.address.isEmpty || r.entries.any (·.address == c.address)) = true ↔
      c.address = "" ∨ c.address ∈ calls.map (·.address) := by
    have hany : r.entries.any (·.address == c.address) = true ↔
        c.address ∈ r.entries.map (·.address) := by
      simp
    rw [Bool.or_eq_true, hany, h.address_iff, String.isEmpty_iff]
    tauto
  rw [call, register]
  simp only [hknown, h.kept, Call.under]

/-- One more call. -/
theorem step (h : Holds service calls r) (c : Call) : Holds service (calls ++ [c]) (r.call c) := by
  rw [h.call_eq]
  split
  case isTrue hknown =>
    refine ⟨h.kept, fun x => (h.mem_iff x).trans ?_, h.nodup⟩
    constructor
    · rintro ⟨d, hfirst, hd⟩
      exact ⟨d, Call.isFirst_append_singleton.2 (.inl hfirst), hd⟩
    · rintro ⟨d, hfirst, hnonempty, rfl⟩
      rcases Call.isFirst_append_singleton.1 hfirst with hfirst | ⟨rfl, hnew⟩
      · exact ⟨d, hfirst, hnonempty, rfl⟩
      · obtain ⟨b, hb, hsame⟩ := List.mem_map.1 (hknown.resolve_left hnonempty)
        exact absurd hsame (hnew b hb)
  case isFalse hnew =>
    obtain ⟨hnonempty, hnew⟩ := not_or.1 hnew
    have hfirst : ∀ b ∈ calls, b.address ≠ c.address := fun b hb hsame =>
      hnew (hsame ▸ List.mem_map_of_mem hb)
    refine ⟨h.kept, fun x => ?_, ?_⟩
    · rw [List.mem_append, h.mem_iff, List.mem_singleton]
      constructor
      · rintro (⟨d, hd, hrest⟩ | rfl)
        · exact ⟨d, Call.isFirst_append_singleton.2 (.inl hd), hrest⟩
        · exact ⟨c, Call.isFirst_append_singleton.2 (.inr ⟨rfl, hfirst⟩), hnonempty, rfl⟩
      · rintro ⟨d, hd, hrest⟩
        rcases Call.isFirst_append_singleton.1 hd with hd | ⟨rfl, -⟩
        · exact .inl ⟨d, hd, hrest⟩
        · exact .inr hrest.2
    · have hunknown : c.address ∉ r.entries.map (·.address) := fun hc =>
        hnew ((h.address_iff _).1 hc).2
      rw [List.map_append]
      exact h.nodup.append (List.nodup_singleton _) (by simpa [Call.under] using hunknown)

end Holds

theorem holds_ofCalls (service : String) (calls : List Call) :
    Holds service calls (ofCalls service calls) := by
  induction calls using List.reverseRecOn with
  | nil => exact .empty service
  | append_singleton calls c ih =>
    rw [ofCalls, List.foldl_concat]
    exact ih.step c

/-! ## What is published -/

/-- What is published after a sequence of calls. -/
structure Published (service : String) (calls : List Call) (r : Registry) : Prop where
  /-- A registration is published when it is what the first call for its address asked for. -/
  mem_iff : ∀ x, x ∈ r.snapshot ↔
    ∃ c : Call, c.IsFirst calls ∧ c.address ≠ "" ∧ x = c.under service
  /-- Every address of some call is published once, unless it is empty, and no other address is. -/
  once : ∀ a, (r.snapshot.map (·.address)).count a =
    if a ≠ "" ∧ a ∈ calls.map (·.address) then 1 else 0
  /-- By node and address, with no two the same. -/
  increasing : r.snapshot.Pairwise Registration.Precedes
  /-- In which order the entries are kept does not matter. -/
  unordered : ∀ entries, entries ~ r.entries → { r with entries }.snapshot = r.snapshot
  /-- The size is the number of registrations that are published. -/
  size : r.size = r.snapshot.length
  /-- A call that was made before changes nothing. -/
  repeated : ∀ c ∈ calls, r.register c.node c.address c.space = r
  /-- In whichever order the calls are made, the same addresses are published. -/
  permuted : ∀ calls', calls' ~ calls →
    ∀ a, a ∈ (ofCalls service calls').snapshot.map (·.address) ↔ a ∈ r.snapshot.map (·.address)

theorem pairwise_precedes (hnodup : (r.entries.map (·.address)).Nodup) :
    r.snapshot.Pairwise Registration.Precedes := by
  have haddresses : r.snapshot.Pairwise (·.address ≠ ·.address) :=
    List.pairwise_map.1 ((snapshot_perm.map Registration.address).nodup_iff.2 hnodup)
  exact (pairwise_snapshot.and haddresses).imp fun h => precedes_of_before h.1 h.2

/-- Registries with the same entries, no two of one address, publish the same. -/
theorem snapshot_congr {r' : Registry} (hperm : r'.entries ~ r.entries)
    (hnodup : (r.entries.map (·.address)).Nodup) : r'.snapshot = r.snapshot := by
  have hperm' : r'.snapshot ~ r.snapshot :=
    snapshot_perm.trans (hperm.trans snapshot_perm.symm)
  have hinj : ∀ x ∈ r.snapshot, ∀ y ∈ r.snapshot, x.address = y.address → x = y := by
    intro x hx y hy hsame
    exact List.inj_on_of_nodup_map hnodup (snapshot_perm.mem_iff.1 hx) (snapshot_perm.mem_iff.1 hy) hsame
  refine hperm'.eq_of_pairwise (fun x y hx hy hxy hyx => ?_) pairwise_snapshot pairwise_snapshot
  exact hinj x (hperm'.mem_iff.1 hx) y hy (address_eq_of_before hxy hyx)

/-- Whatever the calls, the first one for each address is what is published, sorted by node and
address. -/
theorem first_calls_published (service : String) (calls : List Call) :
    Published service calls (ofCalls service calls) := by
  have h := holds_ofCalls service calls
  have hsnapshot : ∀ {calls' : List Call} (a : String),
      a ∈ (ofCalls service calls').snapshot.map (·.address) ↔
        a ≠ "" ∧ a ∈ calls'.map (·.address) := fun a =>
    (snapshot_perm.map _).mem_iff.trans ((holds_ofCalls service _).address_iff a)
  refine ⟨fun x => snapshot_perm.mem_iff.trans (h.mem_iff x), fun a => ?_,
    pairwise_precedes h.nodup, fun entries hperm => snapshot_congr hperm h.nodup,
    snapshot_perm.length_eq.symm, fun c hc => ?_, fun calls' hperm a => ?_⟩
  · have hnodup := (snapshot_perm.map (·.address)).nodup_iff.2 h.nodup
    split
    case isTrue hmem => exact List.count_eq_one_of_mem hnodup ((hsnapshot a).2 hmem)
    case isFalse hmem => exact List.count_eq_zero.2 fun ha => hmem ((hsnapshot a).1 ha)
  · rw [← call, h.call_eq, if_pos (.inr (List.mem_map_of_mem hc))]
  · rw [hsnapshot, hsnapshot, (hperm.map _).mem_iff]

end Registry

end Rendezvous
