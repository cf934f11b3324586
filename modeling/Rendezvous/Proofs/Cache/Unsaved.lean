import Rendezvous.Proofs.Cache.Lifetimes

/-!
# Changes that cannot be saved

A change is made in memory before it is saved, and is not taken back when saving fails. The file then
holds what it held before, while the cache answers as if the change had succeeded.
-/

namespace Rendezvous

theorem Answers.congr {get : String → Option String} {list : List (String × String)}
    {known known' : String → String → Prop} (h : Answers get list known)
    (hknown : ∀ key value, known key value ↔ known' key value) : Answers get list known' := by
  have hsame : known = known' := funext₂ fun key value => propext (hknown key value)
  rwa [← hsame]

namespace FileCache

variable {c : FileCache}

theorem answers (h : c.records.Distinct) (t : Nat) :
    Answers (c.get? t) (c.toList t) fun key value => c.get? t key = some value := by
  refine h.answers (·.value) (c.get?_eq_filter t) (fun r hr hempty => ?_) fun key value => ?_
  · simp [FileRecord.isLive, hempty] at hr
  · rw [get?_eq_filter]
    simp only [Option.map_eq_some_iff, Option.filter_eq_some_iff, and_assoc]

/-- The answers of a cache that was changed, from then on. -/
theorem answers_put (h : c.records.Distinct) {now t : Nat} (ht : now ≤ t) (key value : String)
    (lifetime : Duration) :
    Answers ((c.put now key value lifetime).get? t) ((c.put now key value lifetime).toList t)
      fun other v =>
        if other = key then v = value ∧ value ≠ "" ∧ t < FileRecord.stamp now lifetime
        else c.get? t other = some v := by
  refine (answers ((h.filter _).put key _) t).congr fun other v => ?_
  by_cases hkey : other = key
  · rw [if_pos hkey, hkey, get?_put_self, Option.ite_none_right_eq_some, Option.some.injEq]
    constructor
    · rintro ⟨⟨htime, hvalue⟩, rfl⟩
      exact ⟨rfl, hvalue, htime⟩
    · rintro ⟨rfl, hvalue, htime⟩
      exact ⟨⟨htime, hvalue⟩, rfl⟩
  · rw [if_neg hkey, get?_put_ne h hkey ht]

end FileCache

namespace SavedCache

variable {a b : SavedCache} {opened : FileCache} {log : List Change} {d : Disk} {path : DiskPath}

theorem Step.quiet (step : Step a [] b) :
    b.cache = a.cache ∧ b.disk.read a.cache.path = a.disk.read a.cache.path := by
  cases step with
  | elsewhere hread => exact ⟨rfl, hread⟩

/-- Without changes, the cache and its file stay as they are. -/
theorem quiet_run (run : Run Step a [] b) :
    b.cache = a.cache ∧ b.disk.read a.cache.path = a.disk.read a.cache.path := by
  refine run.preserves (P := fun log b => log = [] → b.cache = a.cache ∧
    b.disk.read a.cache.path = a.disk.read a.cache.path) (fun _ => ⟨rfl, rfl⟩) ?_ rfl
  intro log b shown u h step hlog
  obtain ⟨hnil, rfl⟩ := List.append_eq_nil_iff.1 hlog
  obtain ⟨hcache, hread⟩ := h hnil
  obtain ⟨hcache', hread'⟩ := step.quiet
  rw [hcache] at hcache' hread'
  exact ⟨hcache', hread'.trans hread⟩

theorem path_of_open? (hopen : FileCache.open? d path = .ok opened)
    (run : Run Step ⟨opened, d⟩ log a) : a.cache.path = path := by
  obtain ⟨hpath, -⟩ := FileCache.open?_eq_ok_iff.1 hopen
  rw [← hpath]
  refine run.preserves (P := fun _ a => a.cache.path = opened.path) rfl fun h step => ?_
  cases step with
  | elsewhere _ => exact h
  | set now key value lifetime fault hset =>
    obtain ⟨rfl, -⟩ := FileCache.set_cases hset
    exact h

/-- A change that cannot be saved, at whichever step, is found by nobody who opens the file, as long as
its path is one on which a file can be. The cache itself answers from then on, until it is changed
again, as if the change had been made: the key has the value until its stamp, in reading and in
listing, and the other keys are as before. -/
theorem unsaved_stays_in_memory (hopen : FileCache.open? d path = .ok opened)
    (run : Run Step ⟨opened, d⟩ log a) {now : Nat} {key value : String} {lifetime : Duration}
    {fault : Option SaveFault} {e : CacheError} {cache : FileCache} {disk : Disk}
    (hset : a.cache.set a.disk now key value lifetime fault = (.error e, cache, disk))
    (quiet : Run Step ⟨cache, disk⟩ [] b) :
    (a.disk.NamesFile path → FileCache.open? b.disk path = FileCache.open? a.disk path) ∧
      (∀ fault' cache' disk', a.cache.set a.disk now key value lifetime fault' =
        (.ok (), cache', disk') → b.cache = cache') ∧
      ∀ t, now ≤ t → Answers (b.cache.get? t) (b.cache.toList t) fun other v =>
        if other = key then v = value ∧ value ≠ "" ∧ t < FileRecord.stamp now lifetime
        else a.cache.get? t other = some v := by
  have hpath := path_of_open? hopen run
  have hdistinct := distinct_of_open? hopen run
  obtain ⟨rfl, hsave⟩ := FileCache.set_cases hset
  obtain ⟨hcache, hread⟩ := quiet_run quiet
  dsimp only at hcache hread
  refine ⟨fun hnames => ?_, ?_, fun t ht => ?_⟩
  · rcases hsave with ⟨hok, -⟩ | ⟨_, e', -, hsave⟩
    · exact absurd hok (by simp)
    · rw [hpath] at hsave
      have hkept := (FileCache.namesFile_save hnames hsave).2 (Option.some_ne_none e')
      rw [show (a.cache.put now key value lifetime).path = path from hpath] at hread
      unfold FileCache.open?
      rw [FileCache.load_congr (hread.trans hkept)]
  · intro fault' cache' disk' hset'
    rw [hcache, (FileCache.set_cases hset').1]
  · rw [hcache]
    exact FileCache.answers_put hdistinct ht key value lifetime

/-- A directory stands where the file beside the cache's own is to be written, so the first value for
a node cannot be saved. It is given out all the same. -/
theorem unsaved_stays_in_memory_blocked : ∃ e cache disk,
    FileCache.set { path := ["identities.json"] }
        (Disk.put {} ["identities.json.tmp"] .directory) 7 "da-one" "x" (.ofSecs 1) =
      (.error e, cache, disk) ∧
    FileCache.open? disk ["identities.json"] = .ok { path := ["identities.json"] } ∧
    cache.get? 8 "da-one" = some "x" ∧ ("da-one", "x") ∈ cache.toList 8 := by
  have hopen : FileCache.open? (Disk.put {} ["identities.json.tmp"] .directory)
      ["identities.json"] = .ok { path := ["identities.json"] } := by decide
  have hset : FileCache.set { path := ["identities.json"] }
      (Disk.put {} ["identities.json.tmp"] .directory) 7 "da-one" "x" (.ofSecs 1) =
        (.error _, _, _) := rfl
  obtain ⟨hfile, -, hanswers⟩ := unsaved_stays_in_memory hopen (.refl _) hset (.refl _)
  have hknown := hanswers 8 (by decide)
  have hnames := FileCache.namesFile_of_open? (by decide) hopen
  refine ⟨_, _, _, hset, (hfile hnames).trans hopen, (hknown.reads _ _).2 ?_, (hknown.lists _ _).2 ?_⟩
  · rw [if_pos rfl]
    decide
  · rw [if_pos rfl]
    decide

end SavedCache

end Rendezvous
