import Rendezvous.Proofs.Cache.Agreement
import Rendezvous.Proofs.Cache.Durability

/-!
# Lifetimes in a file cache

A value is given out until the millisecond with which it was stamped, whatever becomes of other keys
in the meantime. The stamp is the end of the lifetime as long as the lifetime has no more than 64 bits
of milliseconds. Of a longer one only the low 64 bits count, so it may end earlier than a shorter one.
-/

namespace Rendezvous

namespace FileRecord

variable {now : Nat} {lifetime longer : Duration}

theorem stamp_le (now : Nat) (lifetime : Duration) :
    stamp now lifetime ≤ min (now + lifetime.millis) maxStamp := by
  have hcut := Nat.mod_le lifetime.millis (maxStamp + 1)
  unfold stamp
  omega

theorem stamp_eq (h : lifetime.millis ≤ maxStamp) :
    stamp now lifetime = min (now + lifetime.millis) maxStamp := by
  unfold stamp
  rw [Nat.mod_eq_of_lt (Nat.lt_succ_of_le h)]

/-- The stamp is the end of the lifetime, unless bits are cut off that would have counted. -/
theorem stamp_eq_iff : stamp now lifetime = min (now + lifetime.millis) maxStamp ↔
    lifetime.millis ≤ maxStamp ∨ maxStamp ≤ now + lifetime.millis % (maxStamp + 1) := by
  by_cases hshort : lifetime.millis ≤ maxStamp
  · exact ⟨fun _ => .inl hshort, fun _ => stamp_eq hshort⟩
  · unfold stamp
    omega

theorem millis_mono (h : lifetime.nanos ≤ longer.nanos) : lifetime.millis ≤ longer.millis :=
  Nat.div_le_div_right h

/-- As long as no bits are cut off, a longer lifetime does not end earlier. -/
theorem stamp_mono (h : lifetime.nanos ≤ longer.nanos) (hshort : longer.millis ≤ maxStamp) :
    stamp now lifetime ≤ stamp now longer := by
  have hmillis := millis_mono h
  rw [stamp_eq hshort, stamp_eq (hmillis.trans hshort)]
  omega

end FileRecord

namespace FileCache

variable {c : FileCache} {now t : Nat} {key other value : String} {lifetime : Duration}

theorem get?_put_self : (c.put now key value lifetime).get? t key =
    if t < FileRecord.stamp now lifetime ∧ value ≠ "" then some value else none := by
  unfold get? put
  rw [Table.get?_put, if_pos rfl]
  simp [FileRecord.isLive]

/-- What is known of another key does not change, as only what is over is dropped. -/
theorem get?_put_ne (h : c.records.Distinct) (hkey : other ≠ key) (ht : now ≤ t) :
    (c.put now key value lifetime).get? t other = c.get? t other := by
  unfold put
  rw [get?_eq_filter, get?_eq_filter, Table.get?_put, if_neg hkey, h.get?_filter,
    Option.filter_filter]
  congr 2
  funext r
  by_cases hlive : t < r.expiresAtMs
  · simp [FileRecord.isLive, hlive, ht.trans_lt hlive]
  · simp [FileRecord.isLive, hlive]

end FileCache

namespace SavedCache

variable {a b : SavedCache} {opened : FileCache} {log shown : List Change} {d : Disk}
  {path : DiskPath} {t : Nat} {key : String}

theorem Step.distinct (step : Step a shown b) (h : a.cache.records.Distinct) :
    b.cache.records.Distinct := by
  cases step with
  | elsewhere _ => exact h
  | set now key value lifetime fault hset =>
    obtain ⟨rfl, -⟩ := FileCache.set_cases hset
    exact (h.filter _).put _ _

theorem distinct_of_run (run : Run Step a log b) (h : a.cache.records.Distinct) :
    b.cache.records.Distinct :=
  run.preserves (P := fun _ b => b.cache.records.Distinct) h fun h step => step.distinct h

theorem distinct_of_open? (hopen : FileCache.open? d path = .ok opened)
    (run : Run Step ⟨opened, d⟩ log a) : a.cache.records.Distinct :=
  distinct_of_run run (FileCache.sound_of_load (FileCache.open?_eq_ok_iff.1 hopen).2).1

theorem Step.get?_eq (step : Step a shown b) (h : a.cache.records.Distinct)
    (hshown : ∀ ch ∈ shown, ch.key ≠ key ∧ ch.now ≤ t) : b.cache.get? t key = a.cache.get? t key := by
  cases step with
  | elsewhere _ => rfl
  | set now key' value lifetime fault hset =>
    obtain ⟨rfl, -⟩ := FileCache.set_cases hset
    obtain ⟨hkey, htime⟩ := hshown _ List.mem_cons_self
    exact FileCache.get?_put_ne h hkey.symm htime

/-- Changes of other keys, up to the time of reading, do not change what is read. -/
theorem get?_of_run (run : Run Step a log b) (h : a.cache.records.Distinct)
    (hlog : ∀ ch ∈ log, ch.key ≠ key ∧ ch.now ≤ t) : b.cache.get? t key = a.cache.get? t key := by
  induction run with
  | refl => rfl
  | tail run step ih =>
    rw [List.forall_mem_append] at hlog
    exact (step.get?_eq (distinct_of_run run h) hlog.2).trans (ih hlog.1)

/-- A value that was stored with success is given out until its stamp and no longer. The stamp is not
later than the end of the lifetime. It is this end whenever the milliseconds of the lifetime have 64
bits, and then a shorter lifetime does not end later. -/
theorem kept_until_stamp (hopen : FileCache.open? d path = .ok opened)
    (run : Run Step ⟨opened, d⟩ log a) {now : Nat} {value : String} (hvalue : value ≠ "")
    {lifetime : Duration} {fault : Option SaveFault} {cache : FileCache} {disk : Disk}
    (hset : a.cache.set a.disk now key value lifetime fault = (.ok (), cache, disk))
    {later : List Change} (hlater : Run Step ⟨cache, disk⟩ later b)
    (hkey : ∀ ch ∈ later, ch.key ≠ key) (htime : ∀ ch ∈ later, ch.now ≤ t) :
    (b.cache.get? t key = some value ↔ t < FileRecord.stamp now lifetime) ∧
      FileRecord.stamp now lifetime ≤ min (now + lifetime.millis) maxStamp ∧
      (FileRecord.stamp now lifetime = min (now + lifetime.millis) maxStamp ↔
        lifetime.millis ≤ maxStamp ∨ maxStamp ≤ now + lifetime.millis % (maxStamp + 1)) ∧
      (lifetime.millis ≤ maxStamp → ∀ shorter : Duration, shorter.nanos ≤ lifetime.nanos →
        FileRecord.stamp now shorter ≤ FileRecord.stamp now lifetime) := by
  obtain ⟨rfl, -⟩ := FileCache.set_cases hset
  have hdistinct : (a.cache.put now key value lifetime).records.Distinct :=
    ((distinct_of_open? hopen run).filter _).put _ _
  refine ⟨?_, FileRecord.stamp_le now lifetime, FileRecord.stamp_eq_iff, fun hshort shorter hle =>
    FileRecord.stamp_mono hle hshort⟩
  rw [get?_of_run hlater hdistinct fun ch hch => ⟨hkey ch hch, htime ch hch⟩,
    FileCache.get?_put_self]
  simp [hvalue]

/-- A lifetime of 5124095576031 hours ends after 34 minutes, which is before one of 35 minutes does. -/
theorem kept_until_stamp_hours : ∃ cache disk,
    FileCache.set { path := ["identities.json"] } {} 0 "da-one" "x"
      (.ofSecs (5124095576031 * 3600)) = (.ok (), cache, disk) ∧
    cache.get? 2048383 "da-one" = some "x" ∧ cache.get? 2048384 "da-one" ≠ some "x" ∧
    2048384 < min (0 + (Duration.ofSecs (5124095576031 * 3600)).millis) maxStamp ∧
    FileRecord.stamp 0 (.ofSecs (5124095576031 * 3600)) < FileRecord.stamp 0 (.ofSecs (35 * 60)) := by
  have hopen : FileCache.open? {} ["identities.json"] = .ok { path := ["identities.json"] } := by
    decide
  have hset : FileCache.set { path := ["identities.json"] } {} 0 "da-one" "x"
      (.ofSecs (5124095576031 * 3600)) = (.ok (), _, _) := rfl
  have hstamp : FileRecord.stamp 0 (.ofSecs (5124095576031 * 3600)) = 2048384 := by decide
  have hkept := fun t => (kept_until_stamp (t := t) hopen (.refl _) (by decide) hset (.refl _)
    (by simp) (by simp)).1
  rw [hstamp] at hkept
  refine ⟨_, _, hset, (hkept _).2 (by decide), mt (hkept _).1 (by decide), by decide, ?_⟩
  rw [hstamp]
  decide

end SavedCache

end Rendezvous
