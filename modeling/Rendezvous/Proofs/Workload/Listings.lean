import Rendezvous.Proofs.Json.Fields
import Rendezvous.Proofs.Json.RoundTrip
import Rendezvous.Workload.StatefulSet

/-!
# Listings of stateful sets

A listing may be written in many ways: the members of its objects stand in any order, among others
that do not matter, and what is zero may be left out. However it is written, what is read is what was
listed, in order. And it is read as a whole: where a name is missing, a field is given twice or a count
is no integer of 32 bits, nothing is read.
-/

namespace Rendezvous

open scoped List

/-! ## Objects with some members -/

/-- An object with these members and others that are no fields, in any order. -/
def Json.Shows (names : List String) (known : List (String × Json)) (j : Json) : Prop :=
  ∃ others ms, (∀ m ∈ others, m.1 ∉ names) ∧ ms ~ known ++ others ∧ j = .ofMembers ms

namespace Json.Shows

variable {names : List String} {known : List (String × Json)} {j : Json}

theorem isRecord (h : j.Shows names known) : j.IsRecord names := by
  obtain ⟨others, ms, -, -, rfl⟩ := h
  exact .object ms

/-- Under the name of a field an object gives what is shown under it. -/
theorem under_perm (h : j.Shows names known) (name : String) (hname : name ∈ names) :
    j.under names name ~ (known.filter (·.1 == name)).map (·.2) := by
  obtain ⟨others, ms, hothers, hms, rfl⟩ := h
  have hnone : others.filter (·.1 == name) = [] := by
    refine List.filter_eq_nil_iff.2 fun m hm heq => ?_
    exact hothers m hm (beq_iff_eq.1 heq ▸ hname)
  have hperm := (hms.filter (·.1 == name)).map (·.2)
  rw [List.filter_append, hnone, List.append_nil] at hperm
  rwa [under_ofMembers]

end Json.Shows

namespace StatefulSet

/-- The fields of a status. -/
abbrev countNames : List String := ["replicas", "readyReplicas", "currentReplicas"]

/-- The fields of a workload. -/
abbrev itemNames : List String := ["metadata", "status"]

/-! ## How listings are written -/

/-- The numbers that can be counts. -/
def IsCount (n : Int) : Prop := -0x80000000 ≤ n ∧ n ≤ 0x7FFFFFFF

instance (n : Int) : Decidable (IsCount n) :=
  inferInstanceAs (Decidable (-0x80000000 ≤ n ∧ n ≤ 0x7FFFFFFF))

/-- A count is given under its name, or left out if it is zero. -/
inductive WritesCount (name : String) : Int → List (String × Json) → Prop where
  | given {n : Int} (h : IsCount n) : WritesCount name n [(name, .ofInt n)]
  | omitted : WritesCount name 0 []

/-- A status gives the counts of a workload. -/
def WritesStatus (s : StatefulSet) (j : Json) : Prop :=
  ∃ replicas ready current, WritesCount "replicas" s.replicas replicas ∧
    WritesCount "readyReplicas" s.readyReplicas ready ∧
    WritesCount "currentReplicas" s.currentReplicas current ∧
    j.Shows countNames (replicas ++ ready ++ current)

/-- A workload gives its name in its metadata and its counts in its status. The status is left out only
if all counts are zero. -/
inductive Writes (s : StatefulSet) (j : Json) : Prop where
  | full {metadata status : Json} (hmetadata : metadata.Shows ["name"] [("name", .ofString s.name)])
      (hstatus : WritesStatus s status)
      (h : j.Shows itemNames [("metadata", metadata), ("status", status)])
  | bare {metadata : Json} (hmetadata : metadata.Shows ["name"] [("name", .ofString s.name)])
      (hzero : s.replicas = 0 ∧ s.readyReplicas = 0 ∧ s.currentReplicas = 0)
      (h : j.Shows itemNames [("metadata", metadata)])

/-- A listing gives its workloads in order. -/
def WritesAll (sets : List StatefulSet) (j : Json) : Prop :=
  ∃ items, List.Forall₂ Writes sets items ∧ j.Shows ["items"] [("items", .list items)]

/-! ## What no listing may have -/

/-- A status with a count that is given twice or is no integer of 32 bits. -/
inductive FlawedStatus (j : Json) : Prop where
  | repeated {name : String} (hname : name ∈ countNames)
      (h : 1 < (j.under countNames name).length)
  | noCount {name : String} {value : Json} (hname : name ∈ countNames)
      (hvalue : value ∈ j.under countNames name) (h : ∀ n, IsCount n → value ≠ .ofInt n)

/-- Metadata without a name, or with more than one. -/
inductive FlawedMetadata (j : Json) : Prop where
  | missing (h : j.under ["name"] "name" = [])
  | repeated (h : 1 < (j.under ["name"] "name").length)

/-- A workload without metadata, with a field that is given twice, or with flawed metadata or a flawed
status. -/
inductive Flawed (j : Json) : Prop where
  | missing (h : j.under itemNames "metadata" = [])
  | repeated {name : String} (hname : name ∈ itemNames) (h : 1 < (j.under itemNames name).length)
  | metadata {value : Json} (hvalue : value ∈ j.under itemNames "metadata")
      (h : FlawedMetadata value)
  | status {value : Json} (hvalue : value ∈ j.under itemNames "status") (h : FlawedStatus value)

/-- A listing that gives its items twice, or has a flawed workload anywhere. -/
inductive FlawedList (j : Json) : Prop where
  | repeated (h : 1 < (j.under ["items"] "items").length)
  | item {items : List Json} {item : Json} (hitems : .list items ∈ j.under ["items"] "items")
      (hitem : item ∈ items) (h : Flawed item)

/-! ## What is read -/

theorem count?_eq_some_iff {j : Json} {n : Int} : count? j = some n ↔ j = .ofInt n ∧ IsCount n := by
  unfold count? Json.intIn?
  constructor
  · intro h
    split at h
    · rename_i m hm
      split at h
      · rename_i hcount
        obtain rfl := Option.some.inj h
        exact ⟨Json.int?_eq_some_iff.1 hm, hcount⟩
      · exact absurd h (by simp)
    · exact absurd h (by simp)
  · rintro ⟨rfl, hn⟩
    rw [Json.int?_eq_some_iff.2 rfl]
    exact if_pos hn

/-- A count is given once, or it is zero and not given. -/
def Counts (values : List Json) (n : Int) : Prop :=
  (values = [] ∧ n = 0) ∨ (values = [.ofInt n] ∧ IsCount n)

theorem orDefault_count?_eq_some_iff {value : Option Json} {n : Int} :
    Record.orDefault 0 count? value = some n ↔ Counts value.toList n := by
  cases value with
  | none => simp [Record.orDefault, Counts, eq_comm]
  | some j => simp [Record.orDefault, Counts, count?_eq_some_iff]

theorem Counts.exists_value {values : List Json} {n : Int} (h : Counts values n) :
    ∃ value : Option Json, values = value.toList ∧ Record.orDefault 0 count? value = some n := by
  rcases h with ⟨rfl, rfl⟩ | ⟨rfl, hn⟩
  · exact ⟨none, rfl, rfl⟩
  · exact ⟨some (.ofInt n), rfl, count?_eq_some_iff.2 ⟨rfl, hn⟩⟩

theorem status?_eq_some_iff {j : Json} {replicas ready current : Int} :
    status? j = some (replicas, ready, current) ↔ j.IsRecord countNames ∧
      Counts (j.under countNames "replicas") replicas ∧
      Counts (j.under countNames "readyReplicas") ready ∧
      Counts (j.under countNames "currentReplicas") current := by
  constructor
  · intro h
    unfold status? at h
    split at h
    · rename_i a b c hfields
      obtain ⟨hrecord, hunder⟩ := (Json.fields?_eq_some_iff (by decide)).1 hfields
      simp only [List.forall₂_cons, List.forall₂_nil_left_iff, and_true] at hunder
      obtain ⟨ha, hb, hc⟩ := hunder
      simp only [bind, Option.bind_eq_some_iff, pure, Option.some.injEq, Prod.mk.injEq,
        orDefault_count?_eq_some_iff, ← ha, ← hb, ← hc] at h
      obtain ⟨r, hr, rd, hrd, c, hc, rfl, rfl, rfl⟩ := h
      exact ⟨hrecord, hr, hrd, hc⟩
    · exact absurd h (by simp)
  · rintro ⟨hrecord, hr, hrd, hc⟩
    obtain ⟨a, ha, hr⟩ := hr.exists_value
    obtain ⟨b, hb, hrd⟩ := hrd.exists_value
    obtain ⟨c, hc, hcr⟩ := hc.exists_value
    have hfields : j.fields? countNames = some [a, b, c] :=
      (Json.fields?_eq_some_iff (by decide)).2 ⟨hrecord, .cons ha (.cons hb (.cons hc .nil))⟩
    unfold status?
    rw [hfields]
    simp only [hr, hrd, hcr]
    rfl

theorem name?_eq_some_iff {j : Json} {s : String} :
    name? j = some s ↔ j.IsRecord ["name"] ∧ j.under ["name"] "name" = [.ofString s] := by
  constructor
  · intro h
    unfold name? at h
    split at h
    · rename_i name hfields
      obtain ⟨hrecord, hunder⟩ := (Json.fields?_eq_some_iff (by decide)).1 hfields
      rw [Json.string?_eq_some_iff] at h
      rw [List.forall₂_cons, h] at hunder
      exact ⟨hrecord, hunder.1⟩
    · exact absurd h (by simp)
  · rintro ⟨hrecord, hunder⟩
    have hfields : j.fields? ["name"] = some [some (.ofString s)] :=
      (Json.fields?_eq_some_iff (by decide)).2 ⟨hrecord, .cons hunder .nil⟩
    unfold name?
    rw [hfields]
    rfl

/-- A workload has its name in its metadata, and its counts in its status if it has one. -/
theorem ofJson?_eq_some_iff {j : Json} {s : StatefulSet} :
    ofJson? j = some s ↔ j.IsRecord itemNames ∧
      (∃ metadata, j.under itemNames "metadata" = [metadata] ∧ name? metadata = some s.name) ∧
      ∃ status, j.under itemNames "status" = status.toList ∧
        Record.orDefault (0, 0, 0) status? status =
          some (s.replicas, s.readyReplicas, s.currentReplicas) := by
  constructor
  · intro h
    unfold ofJson? at h
    split at h
    · rename_i metadata status hfields
      obtain ⟨hrecord, hunder⟩ := (Json.fields?_eq_some_iff (by decide)).1 hfields
      simp only [List.forall₂_cons, List.forall₂_nil_left_iff, and_true] at hunder
      simp only [bind, Option.bind_eq_some_iff, pure, Option.some.injEq] at h
      obtain ⟨name, hname, ⟨r, rd, c⟩, hstatus, rfl⟩ := h
      exact ⟨hrecord, ⟨metadata, hunder.1, hname⟩, status, hunder.2, hstatus⟩
    · exact absurd h (by simp)
  · rintro ⟨hrecord, ⟨metadata, hmetadata, hname⟩, status, hstatus, hcounts⟩
    have hfields : j.fields? itemNames = some [some metadata, status] :=
      (Json.fields?_eq_some_iff (by decide)).2 ⟨hrecord, .cons hmetadata (.cons hstatus .nil)⟩
    unfold ofJson?
    rw [hfields]
    simp only [hname, hcounts]
    rfl

/-- A listing has items, each of which is a workload, or none. -/
theorem listOfJson?_eq_some_iff {j : Json} {sets : List StatefulSet} :
    listOfJson? j = some sets ↔ j.IsRecord ["items"] ∧
      (j.under ["items"] "items" = [] ∧ sets = [] ∨
        ∃ items, j.under ["items"] "items" = [.list items] ∧
          List.Forall₂ (fun item s => ofJson? item = some s) items sets) := by
  constructor
  · intro h
    unfold listOfJson? at h
    split at h
    · rename_i items hfields
      obtain ⟨hrecord, hunder⟩ := (Json.fields?_eq_some_iff (by decide)).1 hfields
      simp only [List.forall₂_cons, List.forall₂_nil_left_iff, and_true] at hunder
      refine ⟨hrecord, ?_⟩
      cases items with
      | none => exact Or.inl ⟨hunder, (Option.some.inj h).symm⟩
      | some value =>
        obtain ⟨items, hitems, hread⟩ := Option.bind_eq_some_iff.1 h
        have hvalue : value = .list items := by
          unfold Json.items? at hitems
          split at hitems
          · rw [Option.some.inj hitems]
          · exact absurd hitems (by simp)
        rw [hvalue] at hunder
        exact Or.inr ⟨items, hunder, mapM_eq_some_iff.1 hread⟩
    · exact absurd h (by simp)
  · rintro ⟨hrecord, hitems⟩
    unfold listOfJson?
    rcases hitems with ⟨hnone, rfl⟩ | ⟨items, hitems, hread⟩
    · have hfields : j.fields? ["items"] = some [none] :=
        (Json.fields?_eq_some_iff (by decide)).2 ⟨hrecord, .cons hnone .nil⟩
      rw [hfields]
      rfl
    · have hfields : j.fields? ["items"] = some [some (.list items)] :=
        (Json.fields?_eq_some_iff (by decide)).2 ⟨hrecord, .cons hitems .nil⟩
      rw [hfields]
      exact mapM_eq_some_iff.2 hread

/-! ## What was written is read -/

theorem Counts.of_perm {values values' : List Json} {n : Int} (h : Counts values n)
    (hperm : values' ~ values) : Counts values' n := by
  rcases h with ⟨rfl, hn⟩ | ⟨rfl, hn⟩
  · exact Or.inl ⟨hperm.eq_nil, hn⟩
  · exact Or.inr ⟨List.perm_singleton.1 hperm, hn⟩

theorem WritesCount.counts {name : String} {n : Int} {ms : List (String × Json)}
    (h : WritesCount name n ms) : Counts (ms.map (·.2)) n := by
  cases h with
  | given hn => exact Or.inr ⟨rfl, hn⟩
  | omitted => exact Or.inl ⟨rfl, rfl⟩

/-- A count is given under its own name only. -/
theorem WritesCount.filter_eq {name : String} {n : Int} {ms : List (String × Json)}
    (h : WritesCount name n ms) (other : String) :
    ms.filter (·.1 == other) = if name = other then ms else [] := by
  cases h with
  | given => by_cases heq : name = other <;> simp [heq]
  | omitted => simp

theorem WritesStatus.status?_eq {s : StatefulSet} {j : Json} (h : WritesStatus s j) :
    status? j = some (s.replicas, s.readyReplicas, s.currentReplicas) := by
  obtain ⟨replicas, ready, current, hreplicas, hready, hcurrent, hshows⟩ := h
  have hunder := hshows.under_perm
  simp only [List.filter_append, hreplicas.filter_eq, hready.filter_eq, hcurrent.filter_eq] at hunder
  refine status?_eq_some_iff.2 ⟨hshows.isRecord, ?_, ?_, ?_⟩
  · exact hreplicas.counts.of_perm (by simpa using hunder "replicas" (by simp))
  · exact hready.counts.of_perm (by simpa using hunder "readyReplicas" (by simp))
  · exact hcurrent.counts.of_perm (by simpa using hunder "currentReplicas" (by simp))

theorem name?_of_shows {j : Json} {s : String} (h : j.Shows ["name"] [("name", .ofString s)]) :
    name? j = some s :=
  name?_eq_some_iff.2 ⟨h.isRecord, List.perm_singleton.1 (h.under_perm _ (by simp))⟩

theorem Writes.ofJson?_eq {s : StatefulSet} {j : Json} (h : Writes s j) : ofJson? j = some s := by
  cases h with
  | @full metadata status hmetadata hstatus h =>
    have hunder := List.perm_singleton.1 (h.under_perm "metadata" (by simp))
    have hunder' := List.perm_singleton.1 (h.under_perm "status" (by simp))
    exact ofJson?_eq_some_iff.2 ⟨h.isRecord, ⟨metadata, hunder, name?_of_shows hmetadata⟩,
      some status, hunder', hstatus.status?_eq⟩
  | @bare metadata hmetadata hzero h =>
    have hunder := List.perm_singleton.1 (h.under_perm "metadata" (by simp))
    have hunder' := List.perm_nil.1 (h.under_perm "status" (by simp))
    obtain ⟨hreplicas, hready, hcurrent⟩ := hzero
    refine ofJson?_eq_some_iff.2 ⟨h.isRecord, ⟨metadata, hunder, name?_of_shows hmetadata⟩,
      none, hunder', ?_⟩
    rw [hreplicas, hready, hcurrent]
    rfl

theorem WritesAll.listOfJson?_eq {sets : List StatefulSet} {j : Json} (h : WritesAll sets j) :
    listOfJson? j = some sets := by
  obtain ⟨items, hitems, hshows⟩ := h
  refine listOfJson?_eq_some_iff.2 ⟨hshows.isRecord, Or.inr ⟨items, ?_, ?_⟩⟩
  · exact List.perm_singleton.1 (hshows.under_perm _ (by simp))
  · exact hitems.flip.imp fun _ _ h => h.ofJson?_eq

/-! ## What is read has no flaws -/

theorem not_flawedStatus {j : Json} {counts : Int × Int × Int} (h : status? j = some counts) :
    ¬ FlawedStatus j := by
  obtain ⟨-, hreplicas, hready, hcurrent⟩ := status?_eq_some_iff.1 h
  have hall : ∀ name ∈ countNames, ∃ n, Counts (j.under countNames name) n := by
    simp only [List.forall_mem_cons, List.not_mem_nil, false_imp_iff, implies_true, and_true]
    exact ⟨⟨_, hreplicas⟩, ⟨_, hready⟩, ⟨_, hcurrent⟩⟩
  intro hflaw
  cases hflaw with
  | @repeated name hname htwice =>
    obtain ⟨n, ⟨hnone, -⟩ | ⟨hone, -⟩⟩ := hall name hname
    · simp [hnone] at htwice
    · simp [hone] at htwice
  | @noCount name value hname hvalue hno =>
    obtain ⟨n, ⟨hnone, -⟩ | ⟨hone, hn⟩⟩ := hall name hname
    · simp [hnone] at hvalue
    · rw [hone] at hvalue
      exact hno n hn (List.mem_singleton.1 hvalue)

theorem not_flawedMetadata {j : Json} {s : String} (h : name? j = some s) :
    ¬ FlawedMetadata j := by
  obtain ⟨-, hname⟩ := name?_eq_some_iff.1 h
  intro hflaw
  cases hflaw with
  | missing hnone => simp [hname] at hnone
  | repeated htwice => simp [hname] at htwice

theorem not_flawed {j : Json} {s : StatefulSet} (h : ofJson? j = some s) : ¬ Flawed j := by
  obtain ⟨-, ⟨metadata, hmetadata, hname⟩, status, hstatus, hcounts⟩ := ofJson?_eq_some_iff.1 h
  intro hflaw
  cases hflaw with
  | missing hnone => simp [hmetadata] at hnone
  | @repeated name hfield htwice =>
    rcases List.mem_cons.1 hfield with rfl | hfield
    · simp [hmetadata] at htwice
    · obtain rfl := List.mem_singleton.1 hfield
      cases status <;> simp [hstatus] at htwice
  | metadata hvalue hflaw =>
    rw [hmetadata] at hvalue
    obtain rfl := List.mem_singleton.1 hvalue
    exact not_flawedMetadata hname hflaw
  | status hvalue hflaw =>
    rw [hstatus] at hvalue
    obtain rfl := Option.mem_toList.1 hvalue
    exact not_flawedStatus hcounts hflaw

theorem not_flawedList {j : Json} {sets : List StatefulSet} (h : listOfJson? j = some sets) :
    ¬ FlawedList j := by
  obtain ⟨-, ⟨hnone, -⟩ | ⟨items, hitems, hread⟩⟩ := listOfJson?_eq_some_iff.1 h
  · intro hflaw
    cases hflaw with
    | repeated htwice => simp [hnone] at htwice
    | item hgiven => simp [hnone] at hgiven
  · intro hflaw
    cases hflaw with
    | repeated htwice => simp [hitems] at htwice
    | item hgiven hitem hflaw =>
      rw [hitems] at hgiven
      obtain rfl := Json.list.inj (List.mem_singleton.1 hgiven)
      obtain ⟨s, -, hs⟩ := exists_mem_of_forall₂ hread hitem
      exact not_flawed hs hflaw

/-- However a listing is written, what is read is what was listed, in order. A listing with a flaw
anywhere is not read at all. -/
theorem listing_read_exactly {text : String} {j : Json} (h : Json.read? text = some j) :
    (∀ sets, WritesAll sets j → parseList? text = some sets) ∧
      (FlawedList j → parseList? text = none) := by
  have hparse : parseList? text = listOfJson? j := by rw [parseList?, h, Option.bind_some]
  rw [hparse]
  constructor
  · intro sets hwrites
    exact hwrites.listOfJson?_eq
  · intro hflaw
    cases hread : listOfJson? j with
    | none => rfl
    | some sets => exact absurd hflaw (not_flawedList hread)

/-- Two workloads among members that do not matter; the counts of the second are left out. -/
def shuffled : Json :=
  .ofMembers [
    ("items", .list [
      .ofMembers [("status", .ofMembers [("readyReplicas", .ofInt 2), ("replicas", .ofInt 3)]),
        ("kind", .null), ("metadata", .ofMembers [("name", .ofString "da-1")])],
      .ofMembers [("metadata", .ofMembers [("name", .ofString "da-2")])]]),
    ("page", .object [])]

/-- The second of two workloads has a count with a point. -/
def pointed : Json :=
  .ofMembers [
    ("items", .list [
      .ofMembers [("metadata", .ofMembers [("name", .ofString "da-1")])],
      .ofMembers [("metadata", .ofMembers [("name", .ofString "da-2")]),
        ("status", .ofMembers [("replicas", .number ⟨false, 3, some ['0'], none⟩)])]])]

theorem proper_metadata (s : String) : (Json.ofMembers [("name", .ofString s)]).Proper :=
  .ofMembers (List.forall_mem_singleton.2 (.text s))

theorem proper_shuffled : shuffled.Proper := by
  have hint : ∀ n : Int, (Json.ofInt n).Proper := fun n => .number fun _ h => absurd h (by simp)
  have hstatus : (Json.ofMembers [("readyReplicas", .ofInt 2), ("replicas", .ofInt 3)]).Proper :=
    .ofMembers (by simp [hint])
  refine .ofMembers (List.forall_mem_cons.2 ⟨.list ?_, List.forall_mem_singleton.2 ?_⟩)
  · refine List.forall_mem_cons.2 ⟨.ofMembers ?_, List.forall_mem_singleton.2 (.ofMembers ?_)⟩
    · simp [hstatus, proper_metadata, Json.Proper.null]
    · simp [proper_metadata]
  · exact .object (by simp) (by simp)

theorem proper_pointed : pointed.Proper := by
  have hcount : (Json.number ⟨false, 3, some ['0'], none⟩).Proper :=
    .number fun digits h => by
      obtain rfl := Option.some.inj h
      exact ⟨List.cons_ne_nil _ _, List.forall_mem_singleton.2 rfl⟩
  refine .ofMembers (List.forall_mem_singleton.2 (.list ?_))
  refine List.forall_mem_cons.2 ⟨.ofMembers ?_, List.forall_mem_singleton.2 (.ofMembers ?_)⟩
  · simp [proper_metadata]
  · simp [proper_metadata, hcount, Json.Proper.ofMembers]

theorem listing_read_exactly_shuffled :
    parseList? (Json.write shuffled) = some [⟨"da-1", 3, 2, 0⟩, ⟨"da-2", 0, 0, 0⟩] ∧
      parseList? (Json.write pointed) = none := by
  have hshuffled := Json.read?_write proper_shuffled
  have hpointed := Json.read?_write proper_pointed
  constructor
  · refine (listing_read_exactly hshuffled).1 _ ⟨_, .cons ?first (.cons ?second .nil),
      [("page", .object [])], _, by decide, .refl _, rfl⟩
    case first =>
      have hstatus : WritesStatus ⟨"da-1", 3, 2, 0⟩
          (.ofMembers [("readyReplicas", .ofInt 2), ("replicas", .ofInt 3)]) :=
        ⟨_, _, _, .given (by decide), .given (by decide), .omitted, [], _, by simp, .swap _ _ _, rfl⟩
      exact .full ⟨[], _, by simp, .refl _, rfl⟩ hstatus
        ⟨[("kind", .null)], _, by simp, @List.perm_append_comm _ [_, _] [_], rfl⟩
    case second =>
      exact .bare ⟨[], _, by simp, .refl _, rfl⟩ ⟨rfl, rfl, rfl⟩ ⟨[], _, by simp, .refl _, rfl⟩
  · have hstatus : FlawedStatus (.ofMembers [("replicas", .number ⟨false, 3, some ['0'], none⟩)]) :=
      @FlawedStatus.noCount _ "replicas" _ (by decide) (List.mem_singleton_self _)
        fun n _ heq => by simp [Json.ofInt] at heq
    exact (listing_read_exactly hpointed).2 (.item (List.mem_singleton_self _)
      (List.mem_cons_of_mem _ (List.mem_singleton_self _))
      (.status (List.mem_singleton_self _) hstatus))

end StatefulSet

end Rendezvous
