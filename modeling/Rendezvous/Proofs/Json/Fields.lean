import Mathlib.Data.List.Forall2
import Mathlib.Tactic.Common
import Rendezvous.Json.Record

/-!
# The fields of a record

A record is read from an object or from an array, which gives its items under the names of the fields
in order. Whichever it is, what is read under a name is what is given under it, once or not at all.
Neither the order of the members nor what is given under other names matters.
-/

namespace Rendezvous

/-- Reading one by one. -/
theorem mapM_eq_some_iff {α β : Type} {read : α → Option β} {as : List α} {bs : List β} :
    as.mapM read = some bs ↔ List.Forall₂ (fun a b => read a = some b) as bs := by
  induction as generalizing bs with
  | nil =>
    rw [List.mapM_nil, List.forall₂_nil_left_iff]
    exact ⟨fun h => (Option.some.inj h).symm, fun h => h ▸ rfl⟩
  | cons a as ih =>
    rw [List.mapM_cons, List.forall₂_cons_left_iff]
    simp only [bind, Option.bind_eq_some_iff, ih]
    constructor
    · rintro ⟨b, hb, bs', hbs', heq⟩
      exact ⟨b, bs', hb, hbs', (Option.some.inj heq).symm⟩
    · rintro ⟨b, bs', hb, hbs', rfl⟩
      exact ⟨b, hb, bs', hbs', rfl⟩

/-- What stands in one of two lists that correspond has a counterpart in the other. -/
theorem exists_mem_of_forall₂ {α β : Type} {R : α → β → Prop} {as : List α} {bs : List β} {a : α}
    (h : List.Forall₂ R as bs) (ha : a ∈ as) : ∃ b ∈ bs, R a b := by
  induction h with
  | nil => exact absurd ha List.not_mem_nil
  | @cons _ b _ _ hb _ ih =>
    rcases List.mem_cons.1 ha with rfl | ha
    · exact ⟨b, List.mem_cons_self, hb⟩
    · obtain ⟨b', hb', hread⟩ := ih ha
      exact ⟨b', List.mem_cons_of_mem _ hb', hread⟩

/-- What is read one by one from what was written one by one. -/
theorem mapM_map_eq_some {α β : Type} {read : β → Option α} {write : α → β} {l : List α}
    (h : ∀ a ∈ l, read (write a) = some a) : (l.map write).mapM read = some l := by
  rw [mapM_eq_some_iff, List.forall₂_map_left_iff, List.forall₂_same]
  exact h

/-- One value at most has only one order. -/
theorem eq_toList_iff_of_perm {α : Type} {as bs : List α} (h : as.Perm bs) (a : Option α) :
    as = a.toList ↔ bs = a.toList := by
  cases a with
  | none => exact ⟨fun heq => (heq ▸ h).nil_eq.symm, fun heq => (heq ▸ h).eq_nil⟩
  | some a =>
    rw [Option.toList_some]
    exact ⟨fun heq => List.perm_singleton.1 (heq ▸ h).symm, fun heq => List.perm_singleton.1 (heq ▸ h)⟩

/-! ## Members with proper keys -/

namespace Record

variable {α : Type} {name : String} {names : List String} {members : List (String × α)}

/-- Of the values under a name there may be one or none. -/
theorem only_eq_some_iff (found : List (String × α)) (value : Option α) :
    (match found with
      | [] => some none
      | [m] => some (some m.2)
      | _ => none) = some value ↔ found.map (·.2) = value.toList := by
  match found with
  | [] => cases value <;> simp
  | [m] => cases value <;> simp
  | m :: m' :: rest => cases value <;> simp

/-- What is read under a name is the only value under it. -/
theorem ofMembers?_eq_some_iff {values : List (Option α)} :
    ofMembers? names members = some values ↔
      List.Forall₂ (fun name value => (members.filter (·.1 == name)).map (·.2) = value.toList)
        names values := by
  unfold ofMembers?
  rw [mapM_eq_some_iff]
  constructor
  · intro h
    exact h.imp fun name value => (only_eq_some_iff _ value).1
  · intro h
    exact h.imp fun name value => (only_eq_some_iff _ value).2

/-- A member with another name is passed over. -/
theorem ofMembers?_cons_of_notMem (h : name ∉ names) (a : α) :
    ofMembers? names ((name, a) :: members) = ofMembers? names members := by
  refine Option.ext fun values => ?_
  rw [ofMembers?_eq_some_iff, ofMembers?_eq_some_iff, List.forall₂_iff_zip, List.forall₂_iff_zip]
  refine and_congr_right fun _ => forall₂_congr fun name' value => ?_
  refine imp_congr_right fun hmem => ?_
  have hne : name ≠ name' := fun heq => h (heq ▸ (List.of_mem_zip hmem).1)
  rw [List.filter_cons_of_neg (by simpa using hne)]

/-- The items of an array are read as the first fields, in order. -/
theorem ofItems?_eq (hnames : names.Nodup) (items : List α) :
    ofItems? names items =
      if items.length ≤ names.length then ofMembers? names (names.zip items) else none := by
  unfold ofItems?
  by_cases hlength : items.length ≤ names.length
  · rw [if_pos hlength, if_pos hlength, eq_comm, ofMembers?_eq_some_iff]
    induction names generalizing items with
    | nil =>
      obtain rfl := List.length_eq_zero_iff.1 (Nat.le_zero.1 hlength)
      exact .nil
    | cons name names ih =>
      obtain ⟨hname, hrest⟩ := List.nodup_cons.1 hnames
      cases items with
      | nil =>
        have htail := ih hrest [] (Nat.zero_le _)
        rw [List.zip_nil_right] at htail
        exact .cons rfl htail
      | cons item items =>
        have htail := ih hrest items (Nat.le_of_succ_le_succ hlength)
        rw [← ofMembers?_eq_some_iff, ← ofMembers?_cons_of_notMem hname item,
          ofMembers?_eq_some_iff] at htail
        have hfirst : (names.zip items).filter (·.1 == name) = [] := by
          refine List.filter_eq_nil_iff.2 fun m hm heq => ?_
          have hmem := (List.of_mem_zip (a := m.1) (b := m.2) hm).1
          exact hname (beq_iff_eq.1 heq ▸ hmem)
        have hhead : (((name, item) :: names.zip items).filter (·.1 == name)).map (·.2) = [item] := by
          rw [List.filter_cons_of_pos (by simp), hfirst]
          rfl
        rw [List.length_cons, List.length_cons, Nat.add_sub_add_right]
        exact .cons hhead htail
  · rw [if_neg hlength, if_neg hlength]

end Record

/-! ## Objects and arrays -/

namespace Json

variable {names : List String} {name : String}

/-- What a value gives as a record: the members of an object, or the items of an array under the
names of the fields, in order. -/
def members (names : List String) : Json → List (Option String × Json)
  | .object ms => ms
  | .list items => (names.zip items).map fun m => (some m.1, m.2)
  | _ => []

/-- The values that are given under a name. -/
def under (names : List String) (j : Json) (name : String) : List Json :=
  ((j.members names).filter (·.1 == some name)).map (·.2)

/-- A value that is read as a record if no field is given twice: an object with proper keys, or an
array with no more items than there are fields. -/
inductive IsRecord (names : List String) : Json → Prop where
  | object (ms : List (String × Json)) : IsRecord names (ofMembers ms)
  | list {items : List Json} (h : items.length ≤ names.length) : IsRecord names (.list items)

theorem fields?_ofMembers (names : List String) (ms : List (String × Json)) :
    (ofMembers ms).fields? names = Record.ofMembers? names ms := by
  have hkeys : (ms.map fun m => (some m.1, m.2)).mapM
      (fun m : Option String × Json => m.1.map (·, m.2)) = some ms := by
    rw [mapM_eq_some_iff, List.forall₂_map_left_iff, List.forall₂_same]
    exact fun m _ => rfl
  unfold ofMembers fields?
  simp only [hkeys]

/-- The keys of an object that is read as a record are proper. -/
theorem exists_ofMembers {ms : List (Option String × Json)} {values : List (Option Json)}
    (h : (Json.object ms).fields? names = some values) : ∃ ms', Json.object ms = ofMembers ms' := by
  unfold fields? at h
  cases hkeys : ms.mapM fun m : Option String × Json => m.1.map (·, m.2) with
  | none =>
    simp only [hkeys] at h
    exact absurd h (by simp)
  | some ms' =>
    have hsame : List.Forall₂ (fun m m' => m = (some m'.1, m'.2)) ms ms' := by
      refine (mapM_eq_some_iff.1 hkeys).imp fun m m' hm => ?_
      obtain ⟨key, hkey, rfl⟩ := Option.map_eq_some_iff.1 hm
      rw [← hkey]
    rw [← List.forall₂_map_right_iff (R := Eq), List.forall₂_eq_eq_eq] at hsame
    exact ⟨ms', congrArg Json.object hsame⟩

theorem under_ofMembers (ms : List (String × Json)) (name : String) :
    (ofMembers ms).under names name = (ms.filter (·.1 == name)).map (·.2) := by
  simp [under, members, ofMembers, List.filter_map, Function.comp_def]

/-- An array is read as the object with its items under the names of the fields. -/
theorem fields?_list (hnames : names.Nodup) (items : List Json) :
    (Json.list items).fields? names =
      if items.length ≤ names.length then (ofMembers (names.zip items)).fields? names
      else none := by
  rw [fields?_ofMembers]
  exact Record.ofItems?_eq hnames items

/-- An object that gives all fields is read by their values. -/
theorem fields?_zip (hnames : names.Nodup) {items : List Json}
    (hlength : items.length = names.length) :
    (ofMembers (names.zip items)).fields? names = some (items.map some) := by
  have hlist : (Json.list items).fields? names = some (items.map some) := by
    simp [fields?, Record.ofItems?, hlength]
  rw [← hlist, fields?_list hnames, if_pos (Nat.le_of_eq hlength)]

/-- What is read under the names of the fields is what is given under them. -/
theorem fields?_eq_some_iff (hnames : names.Nodup) {j : Json} {values : List (Option Json)} :
    j.fields? names = some values ↔
      j.IsRecord names ∧
        List.Forall₂ (fun name value => j.under names name = value.toList) names values := by
  have hproper : ∀ ms : List (String × Json), (ofMembers ms).fields? names = some values ↔
      List.Forall₂ (fun name value => (ofMembers ms).under names name = value.toList)
        names values := by
    intro ms
    rw [fields?_ofMembers, Record.ofMembers?_eq_some_iff]
    simp only [under_ofMembers]
  constructor
  · intro h
    cases j with
    | object ms =>
      obtain ⟨ms', hms'⟩ := exists_ofMembers h
      rw [hms'] at h ⊢
      exact ⟨.object ms', (hproper ms').1 h⟩
    | list items =>
      rw [fields?_list hnames] at h
      by_cases hlength : items.length ≤ names.length
      · rw [if_pos hlength] at h
        exact ⟨.list hlength, (hproper _).1 h⟩
      · rw [if_neg hlength] at h
        exact absurd h (by simp)
    | _ => exact absurd h (by simp [fields?])
  · rintro ⟨hrecord, hunder⟩
    cases hrecord with
    | object ms => exact (hproper ms).2 hunder
    | list hlength =>
      rw [fields?_list hnames, if_pos hlength]
      exact (hproper _).2 hunder

/-! ## Strings and integers -/

theorem string?_eq_some_iff {j : Json} {s : String} : j.string? = some s ↔ j = .ofString s := by
  constructor
  · intro h
    unfold string? at h
    split at h
    · rw [h]
      rfl
    · exact absurd h (by simp)
  · rintro rfl
    rfl

/-- An integer has one form only. -/
theorem int?_eq_some_iff {j : Json} {n : Int} : j.int? = some n ↔ j = .ofInt n := by
  constructor
  · intro h
    unfold int? at h
    split at h
    · rename_i negative whole
      cases negative with
      | false =>
        obtain rfl := Option.some.inj h
        simp [ofInt]
      | true =>
        rw [if_pos rfl] at h
        by_cases hzero : whole = 0
        · rw [if_pos hzero] at h
          exact absurd h (by simp)
        · rw [if_neg hzero] at h
          obtain rfl := Option.some.inj h
          have hpos : 0 < whole := Nat.pos_of_ne_zero hzero
          simp [ofInt, hpos]
    · exact absurd h (by simp)
  · rintro rfl
    unfold ofInt int?
    by_cases hn : n < 0
    · have hzero : n.natAbs ≠ 0 := by omega
      have habs : -(n.natAbs : Int) = n := by omega
      simp only [hn, decide_true, if_true, hzero, if_false, habs]
    · have habs : (n.natAbs : Int) = n := by omega
      simp only [hn, decide_false, Bool.false_eq_true, if_false, habs]

/-! ## What does not matter -/

/-- An object is read as a record only if all its keys are proper. -/
theorem isRecord_object_iff {ms : List (Option String × Json)} :
    IsRecord names (.object ms) ↔ ∀ m ∈ ms, m.1.isSome = true := by
  constructor
  · intro h
    generalize hj : Json.object ms = j at h
    cases h with
    | object ms' =>
      rw [Json.object.inj hj]
      intro m hm
      obtain ⟨m', -, rfl⟩ := List.mem_map.1 hm
      rfl
    | list h => exact absurd hj (by simp)
  · intro h
    have hms : (ms.map fun m => (m.1.getD "", m.2)).map (fun m => (some m.1, m.2)) = ms := by
      rw [List.map_map]
      refine (List.map_congr_left fun m hm => ?_).trans (List.map_id ms)
      obtain ⟨key, hkey⟩ := Option.isSome_iff_exists.1 (h m hm)
      exact Prod.ext (by simp [hkey]) rfl
    have hobject : IsRecord names (ofMembers (ms.map fun m => (m.1.getD "", m.2))) := .object _
    rwa [ofMembers, hms] at hobject

/-- Reading a record depends on what is given under the names of the fields, and not on its order. -/
theorem fields?_congr (hnames : names.Nodup) {j j' : Json}
    (hrecord : j.IsRecord names ↔ j'.IsRecord names)
    (hunder : ∀ name ∈ names, (j.under names name).Perm (j'.under names name)) :
    j.fields? names = j'.fields? names := by
  refine Option.ext fun values => ?_
  rw [fields?_eq_some_iff hnames, fields?_eq_some_iff hnames, hrecord, List.forall₂_iff_zip,
    List.forall₂_iff_zip]
  refine and_congr_right fun _ => and_congr_right fun _ => forall₂_congr fun name value => ?_
  refine imp_congr_right fun hmem => ?_
  exact eq_toList_iff_of_perm (hunder name (List.of_mem_zip hmem).1) value

/-- The order of the members of an object does not matter. -/
theorem fields?_perm (hnames : names.Nodup) {ms ms' : List (Option String × Json)}
    (h : ms.Perm ms') : (Json.object ms).fields? names = (Json.object ms').fields? names := by
  refine fields?_congr hnames ?_ fun name _ => (h.filter _).map _
  rw [isRecord_object_iff, isRecord_object_iff]
  exact forall_congr' fun m => imp_congr_left h.mem_iff

/-- A member that is no field does not matter. -/
theorem fields?_filter (hnames : names.Nodup) {key : String} (hkey : key ∉ names)
    (ms : List (Option String × Json)) :
    (Json.object (ms.filter (·.1 != some key))).fields? names =
      (Json.object ms).fields? names := by
  refine fields?_congr hnames ?_ fun name hname => ?_
  · rw [isRecord_object_iff, isRecord_object_iff]
    constructor
    · intro h m hm
      by_cases hsame : m.1 = some key
      · rw [hsame]
        rfl
      · exact h m (List.mem_filter.2 ⟨hm, bne_iff_ne.2 hsame⟩)
    · intro h m hm
      exact h m (List.mem_filter.1 hm).1
  · have hne : key ≠ name := fun heq => hkey (heq ▸ hname)
    have hsame : (ms.filter (·.1 != some key)).filter (·.1 == some name) =
        ms.filter (·.1 == some name) := by
      rw [List.filter_filter]
      refine List.filter_congr fun m _ => ?_
      by_cases hm : m.1 = some name
      · simp [hm, hne.symm]
      · simp [hm]
    simp only [under, members, hsame]
    exact List.Perm.refl _

end Json

end Rendezvous
