import Rendezvous.Cache.Timed
import Rendezvous.Proofs.Cache.Saving
import Rendezvous.Proofs.Run

/-!
# One timed map in memory and in a file

The two caches side by side: whatever is stored in the one is stored in the other, at the same
millisecond and for the same lifetime, while the file is opened anew now and then. Both answer from
the last value that was stored for a key, until its time is over. That the file cache drops records
on the way cannot be told from its answers: it only drops what it would not give out any more.
-/

namespace Rendezvous

/-! ## Records and answers -/

/-- The answers of a cache are those of a map: reading, looking up and listing go by what is known,
and no key is listed twice. -/
structure Answers (get : String → Option String) (list : List (String × String))
    (known : String → String → Prop) : Prop where
  /-- Reading a key. -/
  reads : ∀ key value, get key = some value ↔ known key value
  /-- Looking a key up, where a failure or an empty value would count as nothing. -/
  looksUp : ∀ key value, knownValue (.ok (get key)) = some value ↔ known key value
  /-- Listing everything. -/
  lists : ∀ key value, (key, value) ∈ list ↔ known key value
  /-- No key is listed twice. -/
  nodup : (list.map (·.1)).Nodup

/-- In a table in which no name stands twice, the entries are the values of the names. -/
theorem Table.Distinct.mem_entries_iff {α : Type} {t : Table α} (h : t.Distinct) {name : String}
    {a : α} : (name, a) ∈ t.entries ↔ t.get? name = some a := by
  refine ⟨fun hmem => ?_, Table.mem_entries_of_get?⟩
  obtain ⟨entries⟩ := t
  refine Option.map_eq_some_iff.2 ?_
  induction entries with
  | nil => exact absurd hmem (by simp)
  | cons e entries ih =>
    obtain ⟨hnew, hrest⟩ := List.nodup_cons.1 h
    by_cases hname : e.1 = name
    · rw [List.find?_cons_of_pos (by simpa using hname)]
      rcases List.mem_cons.1 hmem with rfl | hmem
      · exact ⟨_, rfl, rfl⟩
      · exact absurd (List.mem_map.2 ⟨_, hmem, hname.symm⟩) hnew
    · rw [List.find?_cons_of_neg (by simpa using hname)]
      rcases List.mem_cons.1 hmem with rfl | hmem
      · exact absurd rfl hname
      · exact ih hrest hmem

/-- Answers that are taken from a table by a test. -/
theorem Table.Distinct.answers {α : Type} {t : Table α} (h : t.Distinct) {test : α → Bool}
    (value : α → String) {get : String → Option String}
    (hget : ∀ key, get key = ((t.get? key).filter test).map value)
    (htest : ∀ a, test a = true → value a ≠ "") {known : String → String → Prop}
    (hknown : ∀ key v, known key v ↔ ∃ a, t.get? key = some a ∧ test a = true ∧ value a = v) :
    Answers get ((t.entries.filter fun e => test e.2).map fun e => (e.1, value e.2)) known := by
  have hiff : ∀ key v, get key = some v ↔ known key v := by
    intro key v
    rw [hget, hknown]
    simp only [Option.map_eq_some_iff, Option.filter_eq_some_iff, and_assoc]
  refine ⟨hiff, fun key v => ?_, fun key v => ?_, ?_⟩
  · rw [← hiff]
    cases hvalue : get key with
    | none => exact Iff.rfl
    | some v' =>
      -- What the cache gives out is not empty.
      obtain ⟨a, -, ha, rfl⟩ := (hknown key v').1 ((hiff key v').1 hvalue)
      have hne : (value a).isEmpty = false := by simpa using htest a ha
      simp [knownValue, hne]
  · rw [hknown]
    constructor
    · intro hmem
      obtain ⟨e, he, heq⟩ := List.mem_map.1 hmem
      obtain ⟨rfl, rfl⟩ := Prod.mk.inj heq
      obtain ⟨he, htest⟩ := List.mem_filter.1 he
      exact ⟨e.2, h.mem_entries_iff.1 he, htest, rfl⟩
    · rintro ⟨a, ha, htest, rfl⟩
      exact List.mem_map.2 ⟨(key, a), List.mem_filter.2 ⟨h.mem_entries_iff.2 ha, htest⟩, rfl⟩
  · rw [List.map_map]
    exact h.sublist (List.filter_sublist.map _)

theorem TimedCache.get?_eq_filter (c : TimedCache) (now : Instant) (key : String) :
    c.get? now key = ((c.records.get? key).filter (isKnown now)).map (·.value) := by
  unfold TimedCache.get?
  cases c.records.get? key with
  | none => rfl
  | some r => by_cases hr : isKnown now r <;> simp [Option.filter, hr]

theorem FileCache.get?_eq_filter (c : FileCache) (now : Nat) (key : String) :
    c.get? now key = ((c.records.get? key).filter (·.isLive now)).map (·.value) := by
  unfold FileCache.get?
  cases c.records.get? key with
  | none => rfl
  | some r => by_cases hr : r.isLive now <;> simp [Option.filter, hr]

/-! ## What was stored -/

/-- A value that was stored for a key: when, and for how long, in milliseconds. -/
structure Stored where
  /-- When it was stored. -/
  time : Nat
  /-- The key. -/
  key : String
  /-- The value. -/
  value : String
  /-- How long it was to be known. -/
  lifetime : Nat
deriving DecidableEq, Repr

/-- The last value that was stored for a key. -/
def lastStored? (log : List Stored) (key : String) : Option Stored :=
  log.reverse.find? (·.key == key)

/-- A value is known for a key: it was the last one to be stored for it, it is not empty, and its
time is not over. -/
def Known (log : List Stored) (now : Nat) (key value : String) : Prop :=
  ∃ s, lastStored? log key = some s ∧ s.value = value ∧ value ≠ "" ∧ now < s.time + s.lifetime

theorem lastStored?_snoc (log : List Stored) (s : Stored) (key : String) :
    lastStored? (log ++ [s]) key = if key = s.key then some s else lastStored? log key := by
  unfold lastStored?
  rw [List.reverse_append, List.reverse_singleton, List.singleton_append]
  by_cases hkey : key = s.key
  · rw [if_pos hkey, List.find?_cons_of_pos (by simpa using hkey.symm)]
  · rw [if_neg hkey, List.find?_cons_of_neg (by simpa using Ne.symm hkey)]

namespace Stored

/-- The record in memory, where the clock started at an instant. -/
def timed (base : Instant) (s : Stored) : TimedValue :=
  ⟨s.value, base + (s.time + s.lifetime) * nanosPerMilli⟩

/-- The record in a file, where the clock started at a millisecond. -/
def filed (epoch : Nat) (s : Stored) : FileRecord :=
  ⟨s.value, epoch + (s.time + s.lifetime)⟩

theorem isKnown_timed {base : Instant} {s : Stored} {now : Nat} :
    TimedCache.isKnown (base + now * nanosPerMilli) (s.timed base) = true ↔
      s.value ≠ "" ∧ now < s.time + s.lifetime := by
  have htime : base + now * nanosPerMilli < base + (s.time + s.lifetime) * nanosPerMilli ↔
      now < s.time + s.lifetime := by
    rw [Nat.add_lt_add_iff_left, Nat.mul_lt_mul_right (by decide)]
  simp [TimedCache.isKnown, TimedCache.isLive, timed, htime, and_comm]

theorem isLive_filed {epoch : Nat} {s : Stored} {now : Nat} :
    (s.filed epoch).isLive (epoch + now) = true ↔ s.value ≠ "" ∧ now < s.time + s.lifetime := by
  simp [FileRecord.isLive, filed, and_comm]

end Stored

/-! ## The two caches side by side -/

/-- The two caches, the disk, and the milliseconds since they were opened. -/
structure CachePair where
  /-- The milliseconds. -/
  time : Nat
  /-- The cache in memory. -/
  inMemory : TimedCache
  /-- The cache in a file. -/
  inFile : FileCache
  /-- The disk with the file. -/
  disk : Disk

namespace CachePair

/-- One step, where the clocks of the two caches started at an instant and at a millisecond: time
passes, a value is stored in both caches, or the file is opened anew. -/
inductive Step (base : Instant) (epoch : Nat) : CachePair → List Stored → CachePair → Prop where
  | wait (t : CachePair) (n : Nat) : Step base epoch t [] { t with time := t.time + n }
  | store {t : CachePair} (key value : String) (lifetime : Nat) {inMemory : TimedCache}
      {inFile : FileCache} {disk : Disk}
      (hmemory : t.inMemory.set? (base + t.time * nanosPerMilli) key value (.ofMillis lifetime) =
        some inMemory)
      (hlimit : epoch + (t.time + lifetime) ≤ maxStamp)
      (hfile : t.inFile.set t.disk (epoch + t.time) key value (.ofMillis lifetime) =
        (.ok (), inFile, disk)) :
      Step base epoch t [⟨t.time, key, value, lifetime⟩] { t with inMemory, inFile, disk }
  | reopen {t : CachePair} {inFile : FileCache}
      (hopen : FileCache.open? t.disk t.inFile.path = .ok inFile) :
      Step base epoch t [] { t with inFile }

/-- The records of both caches are those of what was stored, except that the file may lack some
whose time is over; and the file holds the records of its cache. -/
structure Sound (base : Instant) (epoch : Nat) (log : List Stored) (t : CachePair) : Prop where
  memory : ∀ key, t.inMemory.records.get? key = (lastStored? log key).map (·.timed base)
  file : ∀ key, t.inFile.records.get? key = (lastStored? log key).map (·.filed epoch) ∨
    t.inFile.records.get? key = none ∧
      ∀ s, lastStored? log key = some s → s.time + s.lifetime ≤ t.time
  memory_distinct : t.inMemory.records.Distinct
  file_distinct : t.inFile.records.Distinct
  stamped : Stamped t.inFile.records
  saved : FileCache.load t.disk t.inFile.path = .ok t.inFile.records

variable {base : Instant} {epoch : Nat} {log shown : List Stored} {s t u : CachePair}

/-- Opening the file anew brings back the cache. -/
theorem Sound.open_eq_ok (h : t.Sound base epoch log) :
    FileCache.open? t.disk t.inFile.path = .ok t.inFile := by
  unfold FileCache.open?
  rw [h.saved]
  rfl

/-! ### Storing -/

/-- What a change of the cache in memory does. -/
theorem records_set? {c c' : TimedCache} {time lifetime : Nat} {key value : String}
    (h : c.set? (base + time * nanosPerMilli) key value (.ofMillis lifetime) = some c') :
    c'.records = c.records.put key (Stored.timed base ⟨time, key, value, lifetime⟩) := by
  obtain ⟨expiresAt, hexpires, rfl⟩ := Option.map_eq_some_iff.1 h
  have htime : expiresAt = base + (time + lifetime) * nanosPerMilli := by
    rw [Instant.after?_eq_some hexpires, Nat.add_mul, Nat.add_assoc]
    rfl
  rw [htime]
  rfl

/-- What a successful change of the file cache does. -/
theorem set_ok {c c' : FileCache} {d d' : Disk} {time lifetime : Nat} {key value : String}
    (hlimit : epoch + (time + lifetime) ≤ maxStamp)
    (h : c.set d (epoch + time) key value (.ofMillis lifetime) = (.ok (), c', d')) :
    c'.path = c.path ∧
      c'.records = (c.records.filter fun _ r => epoch + time < r.expiresAtMs).put key
        (Stored.filed epoch ⟨time, key, value, lifetime⟩) ∧
      FileCache.save d c.path c'.records none = (none, d') := by
  have hstamp : FileRecord.stamp (epoch + time) (.ofMillis lifetime) =
      epoch + (time + lifetime) := by
    have hmillis : (Duration.ofMillis lifetime).millis = lifetime :=
      Nat.mul_div_cancel lifetime (by decide)
    unfold FileRecord.stamp
    rw [hmillis, Nat.mod_eq_of_lt (by omega), Nat.add_assoc, Nat.min_eq_left hlimit]
  unfold FileCache.set at h
  dsimp only at h
  split at h
  · rename_i d₁ hsave
    obtain ⟨-, h⟩ := Prod.mk.inj h
    obtain ⟨rfl, rfl⟩ := Prod.mk.inj h
    refine ⟨rfl, ?_, hsave⟩
    unfold Stored.filed
    rw [← hstamp]
    rfl
  · exact absurd (Prod.mk.inj h).1 (by simp)

/-- Dropping the records whose time is over drops none that would still be given out. -/
theorem Sound.get?_filter (h : t.Sound base epoch log) (key : String) :
    (t.inFile.records.filter fun _ r => epoch + t.time < r.expiresAtMs).get? key =
        (lastStored? log key).map (·.filed epoch) ∨
      (t.inFile.records.filter fun _ r => epoch + t.time < r.expiresAtMs).get? key = none ∧
        ∀ s, lastStored? log key = some s → s.time + s.lifetime ≤ t.time := by
  rw [h.file_distinct.get?_filter]
  rcases h.file key with hold | ⟨hnone, hover⟩
  · rw [hold]
    cases lastStored? log key with
    | none => exact .inl rfl
    | some s =>
      have hkeep : epoch + t.time < (s.filed epoch).expiresAtMs ↔
          t.time < s.time + s.lifetime := Nat.add_lt_add_iff_left
      by_cases hlive : t.time < s.time + s.lifetime
      · left
        simp [Option.filter, hkeep, hlive]
      · right
        refine ⟨by simp [Option.filter, hkeep, hlive], fun s' hs' => ?_⟩
        obtain rfl := Option.some.inj hs'
        omega
  · right
    rw [hnone]
    exact ⟨rfl, hover⟩

theorem Sound.store (h : t.Sound base epoch log) {s : Stored} {inMemory : TimedCache}
    {inFile : FileCache} {disk : Disk} (hlimit : epoch + (s.time + s.lifetime) ≤ maxStamp)
    (hmemory : inMemory.records = t.inMemory.records.put s.key (s.timed base))
    (hpath : inFile.path = t.inFile.path)
    (hfile : inFile.records =
      (t.inFile.records.filter fun _ r => epoch + t.time < r.expiresAtMs).put s.key
        (s.filed epoch))
    (hsave : FileCache.save t.disk t.inFile.path inFile.records none = (none, disk)) :
    Sound base epoch (log ++ [s]) { t with inMemory, inFile, disk } := by
  have hdistinct : inFile.records.Distinct := by
    rw [hfile]
    exact (h.file_distinct.filter _).put _ _
  have hstamped : Stamped inFile.records := by
    rw [hfile]
    exact (h.stamped.filter _).put _ hlimit
  refine ⟨fun key => ?_, fun key => ?_, ?_, hdistinct, hstamped, ?_⟩
  · dsimp only
    rw [lastStored?_snoc, hmemory, Table.get?_put, h.memory key]
    split <;> rfl
  · dsimp only
    rw [lastStored?_snoc, hfile, Table.get?_put]
    by_cases hkey : key = s.key
    · rw [if_pos hkey, if_pos hkey]
      exact .inl rfl
    · rw [if_neg hkey, if_neg hkey]
      exact h.get?_filter key
  · dsimp only
    rw [hmemory]
    exact h.memory_distinct.put _ _
  · dsimp only
    rw [hpath]
    exact FileCache.load_of_save hdistinct hstamped hsave

theorem Step.sound (step : Step base epoch t shown u) (h : t.Sound base epoch log) :
    u.Sound base epoch (log ++ shown) := by
  cases step with
  | wait n =>
    rw [List.append_nil]
    refine { h with file := fun key => ?_ }
    rcases h.file key with hfile | ⟨hnone, hover⟩
    · exact .inl hfile
    · refine .inr ⟨hnone, fun s hs => ?_⟩
      have hle := hover s hs
      dsimp only
      omega
  | reopen hopen =>
    rw [List.append_nil]
    obtain rfl : t.inFile = _ := Except.ok.inj (h.open_eq_ok.symm.trans hopen)
    exact h
  | store key value lifetime hmemory hlimit hfile =>
    obtain ⟨hpath, hrecords, hsave⟩ := set_ok hlimit hfile
    exact h.store hlimit (records_set? hmemory) hpath hrecords hsave

/-! ### Answering -/

/-- The cache in memory gives out what is known. -/
theorem Sound.answers_inMemory (h : t.Sound base epoch log) :
    Answers (t.inMemory.get? (base + t.time * nanosPerMilli))
      (t.inMemory.toList (base + t.time * nanosPerMilli)) (Known log t.time) := by
  refine h.memory_distinct.answers (·.value) (t.inMemory.get?_eq_filter _) (fun r hr => ?_)
    fun key v => ?_
  · simp only [TimedCache.isKnown, Bool.and_eq_true] at hr
    simpa using hr.2
  · rw [h.memory key]
    constructor
    · rintro ⟨s, hs, rfl, hne, htime⟩
      exact ⟨s.timed base, by rw [hs]; rfl, Stored.isKnown_timed.2 ⟨hne, htime⟩, rfl⟩
    · rintro ⟨r, hr, hknown, rfl⟩
      obtain ⟨s, hs, rfl⟩ := Option.map_eq_some_iff.1 hr
      obtain ⟨hne, htime⟩ := Stored.isKnown_timed.1 hknown
      exact ⟨s, hs, rfl, hne, htime⟩

/-- The cache in a file gives out what is known. -/
theorem Sound.answers_inFile (h : t.Sound base epoch log) :
    Answers (t.inFile.get? (epoch + t.time)) (t.inFile.toList (epoch + t.time))
      (Known log t.time) := by
  refine h.file_distinct.answers (·.value) (t.inFile.get?_eq_filter _) (fun r hr => ?_)
    fun key v => ?_
  · simp only [FileRecord.isLive, Bool.and_eq_true] at hr
    simpa using hr.2
  · constructor
    · rintro ⟨s, hs, rfl, hne, htime⟩
      rcases h.file key with hfile | ⟨-, hover⟩
      · exact ⟨s.filed epoch, by rw [hfile, hs]; rfl, Stored.isLive_filed.2 ⟨hne, htime⟩, rfl⟩
      · have hle := hover s hs
        omega
    · rintro ⟨r, hr, hlive, rfl⟩
      rcases h.file key with hfile | ⟨hnone, -⟩
      · rw [hfile] at hr
        obtain ⟨s, hs, rfl⟩ := Option.map_eq_some_iff.1 hr
        obtain ⟨hne, htime⟩ := Stored.isLive_filed.1 hlive
        exact ⟨s, hs, rfl, hne, htime⟩
      · exact absurd (hr.symm.trans hnone) (by simp)

/-- Two caches that are opened empty. -/
theorem sound_of_empty (hmemory : t.inMemory = {})
    (hopen : FileCache.open? t.disk t.inFile.path = .ok t.inFile) (hempty : t.inFile.records = {}) :
    t.Sound base epoch [] := by
  have hload : FileCache.load t.disk t.inFile.path = .ok t.inFile.records := by
    unfold FileCache.open? at hopen
    cases hl : FileCache.load t.disk t.inFile.path with
    | error e =>
      rw [hl] at hopen
      exact absurd hopen (by simp [Except.map])
    | ok records =>
      rw [hl] at hopen
      rw [← Except.ok.inj hopen]
  refine ⟨fun key => ?_, fun key => .inl ?_, ?_, ?_, ?_, hload⟩
  · rw [hmemory]
    rfl
  · rw [hempty]
    rfl
  · rw [hmemory]
    exact Table.distinct_empty
  · rw [hempty]
    exact Table.distinct_empty
  · intro e he
    rw [hempty] at he
    exact absurd he (by simp)

/-- Two caches that start empty and in which the same is stored give the same answers, those of a
map from keys to the values that were stored last, each until its time is over. The file can be
opened anew at any time, which changes nothing. -/
theorem caches_agree (run : Run (Step base epoch) s log t) (hmemory : s.inMemory = {})
    (hopen : FileCache.open? s.disk s.inFile.path = .ok s.inFile) (hempty : s.inFile.records = {}) :
    Answers (t.inMemory.get? (base + t.time * nanosPerMilli))
        (t.inMemory.toList (base + t.time * nanosPerMilli)) (Known log t.time) ∧
      Answers (t.inFile.get? (epoch + t.time)) (t.inFile.toList (epoch + t.time))
        (Known log t.time) ∧
      FileCache.open? t.disk t.inFile.path = .ok t.inFile := by
  have hsound : t.Sound base epoch log :=
    run.preserves (P := fun log t => t.Sound base epoch log)
      (sound_of_empty hmemory hopen hempty) fun h step => step.sound h
  exact ⟨hsound.answers_inMemory, hsound.answers_inFile, hsound.open_eq_ok⟩

/-- A value gives way to one with a shorter lifetime, the file is opened anew, and four milliseconds
later only the third value is known. -/
theorem caches_agree_reopened :
    ∃ t, Run (Step 0 1700000000000) ⟨0, {}, { path := ["identities.json"] }, {}⟩
        [⟨0, "da-one", "first", 100⟩, ⟨50, "da-one", "second", 10⟩, ⟨60, "da-two", "third", 5⟩] t ∧
      t.time = 64 ∧
      ∀ key value, t.inFile.get? (1700000000000 + 64) key = some value ↔
        key = "da-two" ∧ value = "third" := by
  have hopen : FileCache.open? {} ["identities.json"] = .ok { path := ["identities.json"] } := by
    decide
  have hstart : Run (Step 0 1700000000000) _ [] _ :=
    .refl ⟨0, {}, { path := ["identities.json"] }, {}⟩
  have hfirst := hstart.tail (.store "da-one" "first" 100 rfl (by decide) rfl)
  have hsecond := (hfirst.tail (.wait _ 50)).tail (.store "da-one" "second" 10 rfl (by decide) rfl)
  have hthird := (hsecond.tail (.wait _ 10)).tail (.store "da-two" "third" 5 rfl (by decide) rfl)
  have hreopen := hthird.tail (.reopen (caches_agree hthird rfl hopen rfl).2.2)
  have hend := hreopen.tail (.wait _ 4)
  have hagree := (caches_agree hend rfl hopen rfl).2.1
  refine ⟨_, hend, rfl, fun key value => (hagree.reads key value).trans ?_⟩
  change Known [⟨0, "da-one", "first", 100⟩, ⟨50, "da-one", "second", 10⟩,
    ⟨60, "da-two", "third", 5⟩] 64 key value ↔ _
  by_cases htwo : key = "da-two"
  · subst htwo
    constructor
    · rintro ⟨s, hs, rfl, -, -⟩
      obtain rfl : _ = s := Option.some.inj hs
      exact ⟨rfl, rfl⟩
    · rintro ⟨-, rfl⟩
      exact ⟨⟨60, "da-two", "third", 5⟩, rfl, rfl, by decide, by decide⟩
  · by_cases hone : key = "da-one"
    · subst hone
      simp [Known, lastStored?]
    · simp [Known, lastStored?, htwo, Ne.symm htwo, Ne.symm hone]

end CachePair

end Rendezvous
