/-!
# Tables

Finite maps from names, as lists of entries with distinct names in the order in which the names were
last put. Looking up a name that has just been put, or erased, gives just that; all other names are
left as they were.
-/

namespace Rendezvous

/-- A finite map from names. -/
structure Table (α : Type) where
  /-- The entries. -/
  entries : List (String × α) := []
deriving DecidableEq, Repr, Inhabited

namespace Table

variable {α : Type}

/-- The value of a name. -/
def get? (t : Table α) (name : String) : Option α :=
  (t.entries.find? (·.1 == name)).map (·.2)

/-- The table without a name. -/
def erase (t : Table α) (name : String) : Table α :=
  ⟨t.entries.filter (·.1 != name)⟩

/-- The table with a value for a name. -/
def put (t : Table α) (name : String) (a : α) : Table α :=
  ⟨(t.erase name).entries ++ [(name, a)]⟩

/-- The table with only those entries that pass a test. -/
def filter (t : Table α) (keep : String → α → Bool) : Table α :=
  ⟨t.entries.filter fun e => keep e.1 e.2⟩

/-- Whether a name has a value. -/
def contains (t : Table α) (name : String) : Bool :=
  (t.get? name).isSome

/-- How many names have values. -/
def size (t : Table α) : Nat := t.entries.length

/-- The table of a list of entries, of which the later ones count. -/
def ofList (entries : List (String × α)) : Table α :=
  entries.foldl (fun t e => t.put e.1 e.2) {}

/-! ## Looking up -/

@[simp] theorem get?_empty (name : String) : ({} : Table α).get? name = none := rfl

theorem get?_erase (t : Table α) (name other : String) :
    (t.erase name).get? other = if other = name then none else t.get? other := by
  obtain ⟨entries⟩ := t
  simp only [get?, erase]
  induction entries with
  | nil => simp
  | cons e es ih =>
    by_cases h : e.1 = name
    · have he : ((e :: es).filter fun x => x.1 != name) = es.filter fun x => x.1 != name := by
        simp [h]
      rw [he, ih]
      by_cases h' : other = name
      · rw [if_pos h', if_pos h']
      · rw [if_neg h', if_neg h', List.find?_cons_of_neg (by simpa [h] using Ne.symm h')]
    · have he : ((e :: es).filter fun x => x.1 != name) = e :: es.filter fun x => x.1 != name := by
        simp [h]
      rw [he]
      by_cases h' : e.1 = other
      · have hne : other ≠ name := fun e => h (h'.trans e)
        rw [if_neg hne, List.find?_cons_of_pos (by simpa using h'),
          List.find?_cons_of_pos (by simpa using h')]
      · rw [List.find?_cons_of_neg (by simpa using h'), ih,
          List.find?_cons_of_neg (by simpa using h')]

theorem get?_put (t : Table α) (name : String) (a : α) (other : String) :
    (t.put name a).get? other = if other = name then some a else t.get? other := by
  have h : (t.put name a).get? other =
      ((t.erase name).get? other).or (if name = other then some a else none) := by
    simp only [get?, put, List.find?_append, Option.map_or, List.find?_singleton]
    congr 1
    by_cases h : name = other <;> simp [h]
  rw [h, get?_erase]
  by_cases h' : other = name
  · simp [h']
  · simp [h', Ne.symm h']

/-- The value of a name is the one of its entry. -/
theorem mem_entries_of_get? {t : Table α} {name : String} {a : α} (h : t.get? name = some a) :
    (name, a) ∈ t.entries := by
  obtain ⟨e, he, rfl⟩ := Option.map_eq_some_iff.1 h
  have hname : e.1 = name := by simpa using List.find?_some he
  subst hname
  exact List.mem_of_find?_eq_some he

/-- The names that have values are those of the entries. -/
theorem exists_get?_iff {t : Table α} {name : String} :
    (∃ a, t.get? name = some a) ↔ name ∈ t.entries.map (·.1) := by
  constructor
  · rintro ⟨a, ha⟩
    exact List.mem_map.2 ⟨(name, a), mem_entries_of_get? ha, rfl⟩
  · intro h
    obtain ⟨e, he, hname⟩ := List.mem_map.1 h
    have hfound : (t.entries.find? (·.1 == name)).isSome = true :=
      List.find?_isSome.2 ⟨e, he, by simpa using hname⟩
    obtain ⟨e', he'⟩ := Option.isSome_iff_exists.1 hfound
    exact ⟨e'.2, by rw [get?, he', Option.map_some]⟩

/-- Putting takes no value away. -/
theorem get?_put_ne_none {t : Table α} {other : String} (h : t.get? other ≠ none) (name : String)
    (a : α) : (t.put name a).get? other ≠ none := by
  rw [get?_put]
  split
  · simp
  · exact h

/-- What holds of all entries and of the one that is put holds of all entries afterwards. -/
theorem forall_put {Φ : String → α → Prop} {t : Table α} {name : String} {a : α}
    (h : ∀ n b, t.get? n = some b → Φ n b) (ha : Φ name a) :
    ∀ n b, (t.put name a).get? n = some b → Φ n b := by
  intro n b hb
  rw [get?_put] at hb
  by_cases hn : n = name
  · rw [if_pos hn, Option.some.injEq] at hb
    rw [hn, ← hb]
    exact ha
  · rw [if_neg hn] at hb
    exact h n b hb

theorem forall_erase {Φ : String → α → Prop} {t : Table α} (name : String)
    (h : ∀ n b, t.get? n = some b → Φ n b) : ∀ n b, (t.erase name).get? n = some b → Φ n b := by
  intro n b hb
  rw [get?_erase] at hb
  by_cases hn : n = name
  · rw [if_pos hn] at hb
    exact absurd hb (by simp)
  · rw [if_neg hn] at hb
    exact h n b hb

/-! ## Tables in which no name stands twice -/

/-- No name stands twice. -/
def Distinct (t : Table α) : Prop := (t.entries.map (·.1)).Nodup

theorem distinct_empty : ({} : Table α).Distinct := List.nodup_nil

theorem Distinct.filter {t : Table α} (h : t.Distinct) (keep : String → α → Bool) :
    (t.filter keep).Distinct :=
  h.sublist (List.filter_sublist.map _)

theorem Distinct.erase {t : Table α} (h : t.Distinct) (name : String) : (t.erase name).Distinct :=
  h.sublist (List.filter_sublist.map _)

theorem Distinct.put {t : Table α} (h : t.Distinct) (name : String) (a : α) :
    (t.put name a).Distinct := by
  unfold Distinct Table.put
  rw [List.map_append, List.nodup_append]
  refine ⟨h.erase name, by simp, ?_⟩
  intro x hx y hy
  obtain ⟨e, he, rfl⟩ := List.mem_map.1 hx
  have hne : e.1 ≠ name := by simpa using (List.mem_filter.1 he).2
  simpa [List.mem_singleton.1 hy] using hne

/-- A name keeps its value if the value passes the test. -/
theorem Distinct.get?_filter {t : Table α} (h : t.Distinct) (keep : String → α → Bool)
    (name : String) : (t.filter keep).get? name = (t.get? name).filter (keep name) := by
  obtain ⟨entries⟩ := t
  simp only [get?, Table.filter]
  induction entries with
  | nil => rfl
  | cons e es ih =>
    obtain ⟨hnew, hrest⟩ := List.nodup_cons.1 h
    by_cases hname : e.1 = name
    · have hnone : es.find? (·.1 == name) = none := by
        refine List.find?_eq_none.2 fun x hx => ?_
        have hne : x.1 ≠ name := fun heq => hnew (List.mem_map.2 ⟨x, hx, heq.trans hname.symm⟩)
        simpa using hne
      rw [List.find?_cons_of_pos (by simpa using hname)]
      by_cases hkeep : keep e.1 e.2 = true
      · rw [List.filter_cons, if_pos hkeep, List.find?_cons_of_pos (by simpa using hname)]
        simp [Option.filter, ← hname, hkeep]
      · rw [List.filter_cons, if_neg hkeep, ih hrest, hnone]
        simp [Option.filter, ← hname, hkeep]
    · rw [List.find?_cons_of_neg (by simpa using hname), ← ih hrest]
      by_cases hkeep : keep e.1 e.2 = true
      · rw [List.filter_cons, if_pos hkeep, List.find?_cons_of_neg (by simpa using hname)]
      · rw [List.filter_cons, if_neg hkeep]

end Table

end Rendezvous
