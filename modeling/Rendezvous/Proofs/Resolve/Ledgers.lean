import Mathlib.Data.Finset.Card
import Rendezvous.Proofs.Address.Parsing
import Rendezvous.Proofs.Pool.Steps
import Rendezvous.Proofs.Resolve.Custody

/-!
# What has been found is kept

What resolving finds out about nodes is noted or recorded, and as long as nobody forgets it and no
record ends, it is there for every later attempt. A ledger keeps the findings of an item of work and
its commands; surroundings that are in line with the ledger answer whatever is known, and let a
command be started only while there are fewer of them than findings and attempts.
-/

namespace Rendezvous

open Routine Attempt

/-! ## Findings -/

/-- Something that is found out about a node and kept. -/
inductive Finding where
  /-- Its identifier, which is noted. -/
  | id (node : String)
  /-- Its own address, which is noted until it is recorded. -/
  | own (node : String)
  /-- An address of it, which is recorded. -/
  | record (node : String)
deriving DecidableEq

/-- Whether a finding is recorded, and not only noted. -/
def Finding.isRecord : Finding → Bool
  | .record _ => true
  | _ => false

/-- What a task finds out and keeps. -/
def TaskEvent.found? : TaskEvent → Option Finding
  | .consulted (.noteId node _) _ => some (.id node)
  | .consulted (.noteAddress node _) _ => some (.own node)
  | .consulted (.cacheSet node _ _) _ => some (.record node)
  | _ => none

/-- What is believed of the nodes: their identifiers, and the addresses that can stand for them. -/
structure Belief where
  /-- An identifier of a node. -/
  id : String → String → Prop
  /-- An address of a node. -/
  address : String → MultiAddress → Prop
  /-- Such an address reads as itself. -/
  reads : ∀ {node a}, address node a → MultiAddress.parse a.text = .ok a
  /-- Such an address is what is put together from an identifier and any host. -/
  minted : ∀ {node i host a}, id node i → MultiAddress.ofHost host i = .ok a → address node a

/-- A record of a node that is believed. -/
def Belief.Record (B : Belief) (node value : String) : Prop :=
  hasLead value = true ∧ ∃ a, MultiAddress.parse value = .ok a ∧ B.address node a

/-- Anything is believed that a node can tell. -/
def Belief.any : Belief where
  id _ _ := True
  address _ a := MultiAddress.parse a.text = .ok a
  reads h := h
  minted _ h := MultiAddress.parse_text h

namespace Belief

variable {B : Belief} {node : String}

theorem record_text {a : MultiAddress} (h : B.address node a) : B.Record node a.text :=
  ⟨a.hasLead_text, a, B.reads h, h⟩

theorem Record.ne_empty {value : String} (h : B.Record node value) : value.isEmpty = false := by
  rw [Bool.eq_false_iff]
  intro hempty
  have hlead := h.1
  rw [String.isEmpty_iff.1 hempty] at hlead
  exact absurd hlead (by decide)

end Belief

/-- The nodes tell what is believed of them, for a time in which no record of the given lifetime
ends. -/
structure World.Trusty (w : World) (B : Belief) (lifetime : Duration) : Prop where
  told : ∀ request answer id, w.brings request answer → toldId? request answer = some id →
    B.id request.node id
  span : ∀ t t', w.timely t → w.timely t' → t' < t + lifetime.nanos

namespace Memory

variable {w : World} {B : Belief} {m m' : Memory} {node : String} {f : Finding}

/-- A finding is kept in the memory. -/
def Has (m : Memory) : Finding → Prop
  | .id node => m.memos.ids.get? node ≠ none
  | .own node => m.memos.addresses.get? node ≠ none ∨ m.cache.records.get? node ≠ none
  | .record node => m.cache.records.get? node ≠ none

/-- The memory holds only what is believed, in a cache that does not fail, and no record ends. -/
structure Faithful (w : World) (B : Belief) (m : Memory) : Prop where
  faults : m.faults = {}
  ids : ∀ node id, m.memos.ids.get? node = some id → B.id node id
  addresses : ∀ node a, m.memos.addresses.get? node = some a → B.address node a
  records : ∀ r ∈ m.cache.records.entries,
    (∀ t, w.timely t → t < r.2.expiresAt) ∧ B.Record r.1 r.2.value

theorem Faithful.record (h : m.Faithful w B) {r : TimedValue}
    (hr : m.cache.records.get? node = some r) :
    (∀ t, w.timely t → t < r.expiresAt) ∧ B.Record node r.value :=
  h.records _ (Table.mem_entries_of_get? hr)

/-- A memory without a cache that fails is as faithful as what it holds. -/
theorem Faithful.congr (h : m.Faithful w B) (hfaults : m'.faults = m.faults)
    (hmemos : m'.memos = m.memos) (hcache : m'.cache = m.cache) : m'.Faithful w B := by
  obtain ⟨faults, ids, addresses, records⟩ := h
  rw [← hfaults] at faults
  rw [← hmemos] at ids addresses
  rw [← hcache] at records
  exact ⟨faults, ids, addresses, records⟩

theorem Faithful.isKnown (h : m.Faithful w B) {now : Instant} (hnow : w.timely now)
    {r : TimedValue} (hr : m.cache.records.get? node = some r) :
    TimedCache.isKnown now r = true := by
  obtain ⟨hlive, hrecord⟩ := h.record hr
  simp [TimedCache.isKnown, TimedCache.isLive, hlive now hnow, hrecord.ne_empty]

/-- Every record is known, because none has ended. -/
theorem Faithful.get? (h : m.Faithful w B) {now : Instant} (hnow : w.timely now) (node : String) :
    m.cache.get? now node = (m.cache.records.get? node).map TimedValue.value := by
  unfold TimedCache.get?
  cases hr : m.cache.records.get? node with
  | none => rfl
  | some r =>
    dsimp only
    rw [if_pos (h.isKnown hnow hr)]
    rfl

theorem faithful_cancel (h : m.Faithful w B) : Memory.Faithful w B { m with cancelled := true } :=
  h.congr rfl rfl rfl

theorem faithful_forget (h : m.Faithful w B) (node : String) :
    Memory.Faithful w B { m with memos := m.memos.forget node } where
  faults := h.faults
  ids := Table.forall_erase node h.ids
  addresses := Table.forall_erase node h.addresses
  records := h.records

/-- What is forgotten of one node is kept of all others, and records are kept anyway. -/
theorem has_forget (h : m.Has f) (hid : f ≠ .id node) (hown : f ≠ .own node) :
    Memory.Has { m with memos := m.memos.forget node } f := by
  cases f with
  | id other =>
    have hne : other ≠ node := fun heq => hid (by rw [heq])
    show (m.memos.ids.erase node).get? other ≠ none
    rw [Table.get?_erase, if_neg hne]
    exact h
  | own other =>
    have hne : other ≠ node := fun heq => hown (by rw [heq])
    show (m.memos.addresses.erase node).get? other ≠ none ∨ m.cache.records.get? other ≠ none
    rw [Table.get?_erase, if_neg hne]
    exact h
  | record other => exact h

end Memory

/-! ## Ledgers -/

/-- The terms of an item of work. -/
structure Terms where
  /-- Whether its commands are counted. -/
  counts : Bool := false
  /-- The findings for which it may start a command. -/
  findings : Finset Finding := ∅
  /-- The commands that it may start, when it has certain findings. -/
  may : Finset Finding → Request → Prop := fun _ _ => True
  /-- The propagations that it may start. -/
  tells : List TrustWrite → Prop := fun _ => True

namespace Terms

/-- A finding is followed: it pays for a command, or it is a record. -/
def Tracks (T : Terms) (f : Finding) : Prop := f ∈ T.findings ∨ f.isRecord = true

instance (T : Terms) (f : Finding) : Decidable (T.Tracks f) :=
  inferInstanceAs (Decidable (_ ∨ _))

/-- A finding pays for a command, if commands are counted. -/
def Grants (T : Terms) (f : Finding) : Prop := T.counts = true → f ∈ T.findings

end Terms

/-- What an item of work has found and done. -/
structure Ledger where
  /-- Its findings. -/
  known : Finset Finding := ∅
  /-- The commands that it has started. -/
  calls : Nat := 0
  /-- Its attempts. -/
  granted : Nat := 0
  /-- The propagations that it has started. -/
  told : List (List TrustWrite) := []
  /-- The commands of its last attempt for which nothing has been kept yet. -/
  idle : Nat := 0

namespace Ledger

variable {T : Terms} {L : Ledger} {f : Finding} {node : String}

/-- A finding is added, if it is followed. -/
def learn (L : Ledger) (T : Terms) (f : Finding) : Ledger :=
  if T.Tracks f then { L with known := insert f L.known } else L

/-- A finding of its own is kept, and added if it is followed. -/
def keep (L : Ledger) (T : Terms) (f : Finding) : Ledger := { L.learn T f with idle := 0 }

/-- A command is started. -/
def call (L : Ledger) : Ledger := { L with calls := L.calls + 1, idle := L.idle + 1 }

/-- A propagation is started. -/
def tell (L : Ledger) (writes : List TrustWrite) : Ledger := { L with told := writes :: L.told }

/-- An attempt begins. -/
def grant (L : Ledger) : Ledger := { L with granted := L.granted + 1, idle := 0 }

/-- The ledger after the memory has answered. An own address that is known and no longer noted has
been recorded. -/
def consult (L : Ledger) (T : Terms) : (q : Query) → q.Answer → Ledger
  | .cacheGet node, answer =>
    match answer with
    | .ok (some _) => L.learn T (.record node)
    | _ => L
  | .cacheSet node _ _, _ => L.keep T (.record node)
  | .noteId node _, _ => L.keep T (.id node)
  | .noteAddress node _, _ => L.keep T (.own node)
  | .recallAddress node, answer =>
    if answer = none ∧ .own node ∈ L.known then L.learn T (.record node) else L
  | _, _ => L

/-- The ledger after an event. -/
def note (T : Terms) (L : Ledger) : TaskEvent → Ledger
  | .consulted q answer => L.consult T q answer
  | .called _ => L.call
  | .told writes => L.tell writes
  | _ => L

/-- There are fewer commands than findings that pay for one and attempts, and none of this attempt has
brought nothing so far. -/
structure Paid (T : Terms) (L : Ledger) : Prop where
  calls : T.counts = true → L.calls < (L.known ∩ T.findings).card + L.granted
  idle : L.idle = 0

/-- There are no more commands than findings that pay for one and attempts. -/
def Spent (T : Terms) (L : Ledger) : Prop :=
  T.counts = true → L.calls ≤ (L.known ∩ T.findings).card + L.granted

theorem Paid.spent (h : L.Paid T) : L.Spent T := fun hcounts => (h.calls hcounts).le

theorem Paid.call (h : L.Paid T) : L.call.Spent T := h.calls

theorem Spent.grant (h : L.Spent T) : L.grant.Paid T :=
  ⟨fun hcounts => Nat.lt_succ_of_le (h hcounts), rfl⟩

theorem learn_known : (L.learn T f).known ⊆ insert f L.known := by
  unfold learn
  split
  · exact Finset.Subset.refl _
  · exact Finset.subset_insert f L.known

theorem known_learn : L.known ⊆ (L.learn T f).known := by
  unfold learn
  split
  · exact Finset.subset_insert f L.known
  · exact Finset.Subset.refl _

theorem mem_learn_record : .record node ∈ (L.learn T (.record node)).known := by
  have htracks : T.Tracks (.record node) := Or.inr rfl
  rw [learn, if_pos htracks]
  exact Finset.mem_insert_self _ _

@[simp] theorem learn_calls : (L.learn T f).calls = L.calls := by
  unfold learn
  split <;> rfl

@[simp] theorem learn_granted : (L.learn T f).granted = L.granted := by
  unfold learn
  split <;> rfl

@[simp] theorem learn_told : (L.learn T f).told = L.told := by
  unfold learn
  split <;> rfl

@[simp] theorem learn_idle : (L.learn T f).idle = L.idle := by
  unfold learn
  split <;> rfl

/-- A finding more does not make a ledger poorer. -/
theorem card_learn : (L.known ∩ T.findings).card ≤ ((L.learn T f).known ∩ T.findings).card :=
  Finset.card_le_card (Finset.inter_subset_inter_right known_learn)

theorem Paid.learn (h : L.Paid T) : (L.learn T f).Paid T := by
  refine ⟨fun hcounts => ?_, learn_idle.trans h.idle⟩
  have hcard := @card_learn T L f
  have hless := h.calls hcounts
  rw [learn_calls, learn_granted]
  omega

theorem Spent.learn (h : L.Spent T) : (L.learn T f).Spent T := by
  intro hcounts
  have hcard := @card_learn T L f
  have hle := h hcounts
  rw [learn_calls, learn_granted]
  omega

theorem Spent.keep (h : L.Spent T) : (L.keep T f).Spent T := h.learn

/-- A new finding pays for the next command. -/
theorem Spent.keep_new (h : L.Spent T) (hnew : f ∉ L.known) (hgrants : T.Grants f) :
    (L.keep T f).Paid T := by
  refine ⟨fun hcounts => ?_, rfl⟩
  have hmem := hgrants hcounts
  have hle := h hcounts
  have htracks : T.Tracks f := Or.inl hmem
  have hinsert : (L.learn T f).known = insert f L.known := by
    rw [Ledger.learn, if_pos htracks]
  have hnew' : f ∉ L.known ∩ T.findings := fun hf => hnew (Finset.mem_inter.1 hf).1
  show (L.learn T f).calls < ((L.learn T f).known ∩ T.findings).card + (L.learn T f).granted
  rw [learn_calls, learn_granted, hinsert, Finset.insert_inter_of_mem hmem,
    Finset.card_insert_of_notMem hnew']
  omega

end Ledger

/-! ## Surroundings that are in line with a ledger -/

/-- An answer is in line with a ledger: what is known is answered, and what is answered is
believed. -/
def Ledger.Fair (L : Ledger) (B : Belief) : (e : Effect) → e.Answer → Prop
  | .consult (.cacheGet node), answer =>
    (∃ value, answer = .ok (some value) ∧ B.Record node value) ∨
      (answer = .ok none ∧ .record node ∉ L.known)
  | .consult (.cacheSet ..), answer => answer = .ok ()
  | .consult .cacheList, answer =>
    ∃ records, answer = .ok records ∧ (∀ r ∈ records, B.Record r.1 r.2) ∧
      ∀ node, .record node ∈ L.known → ∃ value, (node, value) ∈ records
  | .consult (.recallId node), answer =>
    (∀ id, answer = some id → B.id node id) ∧ (answer = none → .id node ∉ L.known)
  | .consult (.recallAddress node), answer => ∀ a, answer = some a → B.address node a
  | .run request, answer => ∀ id, toldId? request answer = some id → B.id request.node id
  | _, _ => True

/-- What may be asked for under some terms. -/
def Ledger.Allows (L : Ledger) (T : Terms) (B : Belief) (lifetime : Duration) : Effect → Prop
  | .consult (.cacheSet node value lifetime') =>
    lifetime' = lifetime ∧ ∃ a : MultiAddress, value = a.text ∧ B.address node a
  | .consult (.noteId node id) => B.id node id
  | .consult (.noteAddress node a) => B.address node a
  | .consult (.dropAddress node) => .record node ∈ L.known
  | .run request => L.Paid T ∧ T.may L.known request
  | .propagate writes => T.tells writes
  | _ => True

/-- Surroundings that keep a ledger for an item of work. -/
def underLedger (T : Terms) (B : Belief) (lifetime : Duration) : Surroundings Ledger where
  allows L e := L.Allows T B lifetime e
  answers L e answer L' := L.Fair B e answer ∧ L' = (e.events answer).foldl (Ledger.note T) L

/-! ## Memories in line with a ledger -/

namespace Memory

variable {w : World} {B : Belief} {T : Terms} {L : Ledger} {m m' : Memory} {lifetime : Duration}
  {now : Instant}

/-- Everything that a ledger has is kept. -/
def Backs (m : Memory) (L : Ledger) : Prop := ∀ f ∈ L.known, m.Has f

theorem Backs.mono (h : m.Backs L) (hkeep : ∀ f, m.Has f → m'.Has f) : m'.Backs L :=
  fun f hf => hkeep f (h f hf)

theorem Backs.learn {f : Finding} (h : m.Backs L) (hf : m.Has f) : m.Backs (L.learn T f) := by
  intro g hg
  rcases Finset.mem_insert.1 (Ledger.learn_known hg) with rfl | hg
  · exact hf
  · exact h g hg

theorem Backs.keep {f : Finding} (h : m.Backs L) (hput : ∀ g, m.Has g ∨ g = f → m'.Has g) :
    m'.Backs (L.keep T f) :=
  Backs.learn (h.mono fun g hg => hput g (Or.inl hg)) (hput f (Or.inr rfl))

/-! ### What is put is kept -/

theorem has_putRecord {f : Finding} {node : String} {r : TimedValue}
    (h : m.Has f ∨ f = .record node) : Has { m with cache := ⟨m.cache.records.put node r⟩ } f := by
  rcases h with h | rfl
  · cases f with
    | id other => exact h
    | own other => exact h.imp_right fun h => Table.get?_put_ne_none h _ _
    | record other => exact Table.get?_put_ne_none h _ _
  · show (m.cache.records.put node r).get? node ≠ none
    simp [Table.get?_put]

theorem has_putId {f : Finding} {node id : String} (h : m.Has f ∨ f = .id node) :
    Has { m with memos := { m.memos with ids := m.memos.ids.put node id } } f := by
  rcases h with h | rfl
  · cases f with
    | id other => exact Table.get?_put_ne_none h _ _
    | own other => exact h
    | record other => exact h
  · show (m.memos.ids.put node id).get? node ≠ none
    simp [Table.get?_put]

theorem has_putAddress {f : Finding} {node : String} {a : MultiAddress}
    (h : m.Has f ∨ f = .own node) :
    Has { m with memos := { m.memos with addresses := m.memos.addresses.put node a } } f := by
  rcases h with h | rfl
  · cases f with
    | id other => exact h
    | own other => exact h.imp_left fun h => Table.get?_put_ne_none h _ _
    | record other => exact h
  · refine Or.inl ?_
    show (m.memos.addresses.put node a).get? node ≠ none
    simp [Table.get?_put]

/-- The own address of a node is still there when it is no longer noted, if it has been recorded. -/
theorem has_dropAddress {f : Finding} {node : String} (hrecord : m.Has (.record node))
    (h : m.Has f) :
    Has { m with memos := { m.memos with addresses := m.memos.addresses.erase node } } f := by
  cases f with
  | id other => exact h
  | own other =>
    by_cases hother : other = node
    · rw [hother]
      exact Or.inr hrecord
    · refine h.imp_left fun h => ?_
      show (m.memos.addresses.erase node).get? other ≠ none
      rwa [Table.get?_erase, if_neg hother]
  | record other => exact h

/-! ### Answers of a faithful memory -/

theorem Faithful.fair_get (hm : m.Faithful w B) (hbacks : m.Backs L) (hnow : w.timely now)
    (node : String) : L.Fair B (.consult (.cacheGet node)) (.ok (m.cache.get? now node)) := by
  rw [hm.get? hnow]
  cases hr : m.cache.records.get? node with
  | none => exact Or.inr ⟨rfl, fun hmem => hbacks _ hmem hr⟩
  | some r => exact Or.inl ⟨r.value, rfl, (hm.record hr).2⟩

theorem Faithful.backs_get (hm : m.Faithful w B) (hbacks : m.Backs L) (hnow : w.timely now)
    (node : String) : m.Backs (L.consult T (.cacheGet node) (.ok (m.cache.get? now node))) := by
  rw [hm.get? hnow]
  cases hr : m.cache.records.get? node with
  | none => exact hbacks
  | some r =>
    have hhas : m.Has (.record node) := by simp [Has, hr]
    exact hbacks.learn hhas

theorem Faithful.fair_list (hm : m.Faithful w B) (hbacks : m.Backs L) (hnow : w.timely now) :
    L.Fair B (.consult .cacheList) (.ok (m.cache.toList now)) := by
  refine ⟨_, rfl, fun record hrecord => ?_, fun node hmem => ?_⟩
  · obtain ⟨⟨node, r⟩, he, rfl⟩ := List.mem_map.1 hrecord
    exact (hm.records (node, r) (List.mem_filter.1 he).1).2
  · have hrecord : m.Has (.record node) := hbacks _ hmem
    obtain ⟨r, hr⟩ := Option.ne_none_iff_exists'.1 hrecord
    have hknown := hm.isKnown hnow hr
    obtain ⟨e, he, rfl⟩ := Option.map_eq_some_iff.1 hr
    obtain rfl : e.1 = node := by simpa using List.find?_some he
    have hmem : e ∈ m.cache.records.entries := List.mem_of_find?_eq_some he
    exact ⟨e.2.value, List.mem_map.2 ⟨e, List.mem_filter.2 ⟨hmem, hknown⟩, rfl⟩⟩

/-- A record of what is believed that does not end in time leaves the memory faithful. -/
theorem Faithful.putRecord (hm : m.Faithful w B) {node : String} {r : TimedValue}
    (hlive : ∀ t, w.timely t → t < r.expiresAt) (hrecord : B.Record node r.value) :
    Faithful w B { m with cache := ⟨m.cache.records.put node r⟩ } := by
  refine ⟨hm.faults, hm.ids, hm.addresses, fun e he => ?_⟩
  rcases List.mem_append.1 he with he | he
  · exact hm.records e (List.mem_filter.1 he).1
  · obtain rfl := List.mem_singleton.1 he
    exact ⟨hlive, hrecord⟩

/-- A faithful memory answers in line with every ledger that it backs, backs it afterwards, and keeps
all that it had. -/
theorem Faithful.consult (hw : w.Trusty B lifetime) (hm : m.Faithful w B) (hbacks : m.Backs L)
    {q : Query} {answer : q.Answer} (hallows : L.Allows T B lifetime (.consult q))
    (hnow : w.timely now) (h : m.consult now q = some (answer, m')) :
    L.Fair B (.consult q) answer ∧ m'.Faithful w B ∧ m'.Backs (L.consult T q answer) ∧
      ∀ f, m.Has f → m'.Has f := by
  cases q with
  | cacheGet node =>
    simp only [Memory.consult, hm.faults, Bool.false_eq_true, if_false, Option.some.injEq,
      Prod.mk.injEq] at h
    obtain ⟨rfl, rfl⟩ := h
    exact ⟨hm.fair_get hbacks hnow node, hm, hm.backs_get hbacks hnow node, fun _ hf => hf⟩
  | cacheSet node value lifetime' =>
    obtain ⟨rfl, a, rfl, ha⟩ := hallows
    have hset : m.faults.set = false := by rw [hm.faults]
    simp only [Memory.consult, hset, Bool.false_eq_true, if_false, Option.map_eq_some_iff,
      Prod.mk.injEq] at h
    obtain ⟨cache, hcache, rfl, rfl⟩ := h
    obtain ⟨expiry, hexpiry, rfl⟩ := Option.map_eq_some_iff.1 hcache
    have hlive : ∀ t, w.timely t → t < expiry := by
      intro t ht
      rw [Instant.after?_eq_some hexpiry]
      exact hw.span now t hnow ht
    exact ⟨rfl, hm.putRecord hlive (B.record_text ha),
      hbacks.keep fun _ => has_putRecord, fun _ hf => has_putRecord (Or.inl hf)⟩
  | cacheList =>
    simp only [Memory.consult, hm.faults, Bool.false_eq_true, if_false, Option.some.injEq,
      Prod.mk.injEq] at h
    obtain ⟨rfl, rfl⟩ := h
    exact ⟨hm.fair_list hbacks hnow, hm, hbacks, fun _ hf => hf⟩
  | recallId node =>
    obtain ⟨rfl, rfl⟩ := Prod.mk.inj (Option.some.inj h)
    exact ⟨⟨hm.ids node, fun hnone hmem => hbacks _ hmem hnone⟩, hm, hbacks, fun _ hf => hf⟩
  | noteId node id =>
    obtain ⟨-, rfl⟩ := Prod.mk.inj (Option.some.inj h)
    exact ⟨trivial, ⟨hm.faults, Table.forall_put hm.ids hallows, hm.addresses, hm.records⟩,
      hbacks.keep fun _ => has_putId, fun _ hf => has_putId (Or.inl hf)⟩
  | recallAddress node =>
    obtain ⟨rfl, rfl⟩ := Prod.mk.inj (Option.some.inj h)
    refine ⟨hm.addresses node, hm, ?_, fun _ hf => hf⟩
    show m.Backs (if m.memos.addresses.get? node = none ∧ .own node ∈ L.known then
      L.learn T (.record node) else L)
    split
    · rename_i hgone
      -- It was noted, and is dropped only when it has been recorded.
      exact hbacks.learn ((hbacks _ hgone.2).resolve_left fun hnoted => hnoted hgone.1)
    · exact hbacks
  | noteAddress node a =>
    obtain ⟨-, rfl⟩ := Prod.mk.inj (Option.some.inj h)
    exact ⟨trivial, ⟨hm.faults, hm.ids, Table.forall_put hm.addresses hallows, hm.records⟩,
      hbacks.keep fun _ => has_putAddress, fun _ hf => has_putAddress (Or.inl hf)⟩
  | dropAddress node =>
    obtain ⟨-, rfl⟩ := Prod.mk.inj (Option.some.inj h)
    have hrecorded : m.Has (.record node) := hbacks _ hallows
    have hkeep := fun f => has_dropAddress (f := f) hrecorded
    exact ⟨trivial, ⟨hm.faults, hm.ids, Table.forall_erase node hm.addresses, hm.records⟩,
      hbacks.mono hkeep, hkeep⟩
  | register node address space =>
    obtain ⟨-, rfl⟩ := Prod.mk.inj (Option.some.inj h)
    exact ⟨trivial, hm.congr rfl rfl rfl, hbacks, fun f hf => by cases f <;> exact hf⟩
  | isCancelled =>
    obtain ⟨-, rfl⟩ := Prod.mk.inj (Option.some.inj h)
    exact ⟨trivial, hm, hbacks, fun _ hf => hf⟩

end Memory

end Rendezvous
