import Mathlib.Data.List.DropRight
import Rendezvous.Proofs.Address.Parsing
import Rendezvous.Proofs.Cache.Saving
import Rendezvous.Proofs.Run

/-!
# What a file cache keeps

Saving can fail at any of its steps: when the directory is made, when the file beside the cache's own
is written, of which anything may then be left, and when that file is to take the name of the cache's
own. Whatever has failed, the file of the cache holds what was saved last, all of it, while the
records of the changes that could not be saved stay in memory and are saved with the next change that
can be. The path of the file has to be one on which a file can be: what is made on the way to it would
otherwise open ways to other places.
-/

namespace Rendezvous

/-! ## What a disk keeps -/

namespace Disk

variable {d d' : Disk} {path place : DiskPath}

/-- What is read from a file depends on where its path leads to, and on what is there. -/
theorem read_congr (hway : d'.locate path = d.locate path)
    (hself : d'.find? path.place = d.find? path.place) : d'.read path = d.read path := by
  unfold read
  rw [hway]
  split
  · rfl
  · rename_i place hplace
    rw [locate_eq hplace, hself]

/-! ## The way to a file -/

/-- The path is one on which a file can be: it ends with a name, and each `..` on it leads back from a
directory that is there. -/
structure NamesFile (d : Disk) (path : DiskPath) : Prop where
  name : path.fileName? ≠ none
  located : ∃ place, d.locate path = .ok place

theorem NamesFile.eq_concat (h : d.NamesFile path) :
    ∃ dir name, name ≠ ".." ∧ path = dir ++ [name] := by
  obtain rfl | ⟨dir, name, rfl⟩ := List.eq_nil_or_concat path
  · exact absurd rfl h.name
  · rw [List.concat_eq_append]
    refine ⟨dir, name, ?_, rfl⟩
    rintro rfl
    exact h.name (by rw [List.concat_eq_append, DiskPath.fileName?_concat, if_pos rfl])

/-- Where no name leads back, nothing but a file in the way keeps a path from leading somewhere. -/
theorem follow_forth {names : List String} {e : DiskError} (hforth : ".." ∉ names)
    (h : d.follow place names = .error e) : e = .notADirectory := by
  induction names generalizing place with
  | nil => exact absurd h (by simp [follow])
  | cons name names ih =>
    rw [List.mem_cons, not_or] at hforth
    rw [follow] at h
    split at h
    · exact ih hforth.2 h
    · exact (Except.error.inj h).symm
    · rw [if_neg (Ne.symm hforth.1)] at h
      exact ih hforth.2 h

/-- Directories that come up do not close a way. -/
theorem Grows.follow_ok (h : d.Grows d') {names : List String} {other : DiskPath}
    (hway : d.follow place names = .ok other) : d'.follow place names = .ok other := by
  induction names generalizing place with
  | nil => exact hway
  | cons name names ih =>
    rw [follow] at hway ⊢
    rcases h place with hsame | ⟨hnone, hdir⟩
    · rw [hsame]
      split at hway
      · exact ih hway
      · exact absurd hway (by simp)
      · split at hway
        · exact absurd hway (by simp)
        · rename_i hforth
          rw [if_neg hforth]
          exact ih hway
    · rw [hnone] at hway
      dsimp only at hway
      rw [hdir]
      split at hway
      · exact absurd hway (by simp)
      · exact ih hway

/-- A way that leaves a place for the directory above it goes through a directory that is there. -/
theorem directory_of_follow {names : List String} {start other : DiskPath}
    (hway : d.follow start names = .ok other) (hstart : place <+: start)
    (hother : ¬ place <+: other) : d.find? place = some .directory := by
  induction names generalizing start with
  | nil =>
    obtain rfl := Except.ok.inj hway
    exact absurd hstart hother
  | cons name names ih =>
    by_cases hnext : place <+: start.enter name
    · rw [follow] at hway
      split at hway
      · exact ih hway hnext
      · exact absurd hway (by simp)
      · split at hway
        · exact absurd hway (by simp)
        · exact ih hway hnext
    · have hback : name = ".." := by
        by_contra hforth
        rw [DiskPath.enter, if_neg hforth] at hnext
        exact hnext (hstart.trans (List.prefix_append ..))
      -- Of the prefixes of a place, only the place itself is lost on the way back.
      have hself : place = start := by
        rw [DiskPath.enter, if_pos hback] at hnext
        obtain ⟨rest, rfl⟩ := hstart
        obtain rfl | ⟨rest', last, rfl⟩ := List.eq_nil_or_concat rest
        · rw [List.append_nil]
        · rw [List.concat_eq_append, ← List.append_assoc, List.dropLast_concat] at hnext
          exact absurd (List.prefix_append ..) hnext
      subst hself
      rw [follow, if_pos hback] at hway
      split at hway
      · assumption
      · exact absurd hway (by simp)
      · exact absurd hway (by simp)

/-- A path that leads somewhere does so along all its names. -/
theorem locate_append_ok {names : List String} (h : d.locate (path ++ names) = .ok place) :
    d.locate path = .ok path.place ∧ d.follow path.place names = .ok place := by
  rw [locate, follow_append] at h
  cases hlocate : d.locate path with
  | error e =>
    rw [locate] at hlocate
    rw [hlocate] at h
    exact absurd h (by simp [bind, Except.bind])
  | ok other =>
    obtain rfl := locate_eq hlocate
    rw [locate] at hlocate
    rw [hlocate] at h
    exact ⟨rfl, h⟩

/-- Making the directories down to a file does not change what is read from it. -/
theorem NamesFile.makeDirectories (h : d.NamesFile path)
    (hmake : d.makeDirectories (parent path) = .ok d') :
    d'.locate path = d.locate path ∧ d'.read path = d.read path := by
  obtain ⟨place, hplace⟩ := h.located
  obtain rfl := locate_eq hplace
  obtain ⟨hgrows, -, hothers⟩ := makeAll_ok hmake
  have hway : d'.locate path = d.locate path := (hgrows.follow_ok hplace).trans hplace.symm
  refine ⟨hway, read_congr hway ?_⟩
  by_cases hdir : d.find? path.place = some .directory
  · rcases hgrows path.place with hsame | ⟨hnone, -⟩
    · exact hsame
    · exact absurd (hdir.symm.trans hnone) (by simp)
  · -- No directory is made at the place of the file: the way would have to lead back from there.
    refine hothers _ fun q hq heq => hdir ?_
    obtain ⟨dir, name, hname, rfl⟩ := h.eq_concat
    rw [parent, List.dropLast_concat] at hq
    obtain ⟨⟨rest, rfl⟩, -⟩ := mem_ancestry_iff.1 hq
    have hfile : DiskPath.place (q ++ rest ++ [name]) = DiskPath.place (q ++ rest) ++ [name] := by
      rw [DiskPath.place_concat, DiskPath.enter, if_neg hname]
    have hrest := (locate_append_ok (locate_append_ok hplace).1).2
    refine directory_of_follow hrest (heq ▸ List.prefix_refl _) fun hprefix => ?_
    have hle := hprefix.length_le
    rw [hfile, List.length_append, List.length_singleton] at hle
    omega

end Disk

/-! ## What loading gives -/

theorem FileRecord.le_of_ofJson? {j : Json} {r : FileRecord} (h : ofJson? j = some r) :
    r.expiresAtMs ≤ maxStamp := by
  unfold ofJson? at h
  split at h
  · rename_i value stamp _
    simp only [bind, Option.bind_eq_some_iff] at h
    obtain ⟨text, -, n, hn, hr⟩ := h
    obtain rfl := Option.some.inj hr
    unfold Json.intIn? at hn
    split at hn
    · split at hn
      · rename_i hrange
        obtain rfl := Option.some.inj hn
        dsimp only
        omega
      · exact absurd hn (by simp)
    · exact absurd hn (by simp)
  · exact absurd h (by simp)

/-- Entries that are put into a table one after the other keep their names apart, and their stamps
as they are. -/
theorem foldl_put_sound {entries : List (String × FileRecord)} {t : Table FileRecord}
    (hstamps : ∀ e ∈ entries, e.2.expiresAtMs ≤ maxStamp) (ht : t.Distinct ∧ Stamped t) :
    (entries.foldl (fun t e => t.put e.1 e.2) t).Distinct ∧
      Stamped (entries.foldl (fun t e => t.put e.1 e.2) t) := by
  induction entries generalizing t with
  | nil => exact ht
  | cons e entries ih =>
    rw [List.forall_mem_cons] at hstamps
    exact ih hstamps.2 ⟨ht.1.put _ _, ht.2.put _ hstamps.1⟩

namespace FileCache

variable {d d' : Disk} {path : DiskPath} {records : Table FileRecord} {c c' : FileCache}

theorem sound_of_recordsOfJson? {j : Json} (h : recordsOfJson? j = some records) :
    records.Distinct ∧ Stamped records := by
  unfold recordsOfJson? at h
  split at h
  · obtain ⟨entries, hentries, rfl⟩ := Option.map_eq_some_iff.1 h
    refine foldl_put_sound (fun e he => ?_) ⟨Table.distinct_empty, by simp [Stamped]⟩
    obtain ⟨m, -, hm⟩ := exists_mem_of_forall₂ (mapM_eq_some_iff.1 hentries).flip he
    split at hm
    · rename_i key r _ hr
      obtain rfl := Option.some.inj hm
      exact FileRecord.le_of_ofJson? hr
    · exact absurd hm (by simp)
  · exact absurd h (by simp)

/-- Whatever is loaded can be saved and loaded again. -/
theorem sound_of_load (h : load d path = .ok records) : records.Distinct ∧ Stamped records := by
  have hempty : ({} : Table FileRecord).Distinct ∧ Stamped {} :=
    ⟨Table.distinct_empty, by simp [Stamped]⟩
  unfold load at h
  split at h
  · rw [← Except.ok.inj h]
    exact hempty
  · exact absurd h (by simp)
  · split at h
    · exact absurd h (by simp)
    · split at h
      · rw [← Except.ok.inj h]
        exact hempty
      · split at h
        · rename_i records' hread
          obtain ⟨j, -, hj⟩ := Option.bind_eq_some_iff.1 hread
          rw [← Except.ok.inj h]
          exact sound_of_recordsOfJson? hj
        · exact absurd h (by simp)

/-- Loading a file depends on nothing but what is read from it. -/
theorem load_congr (h : d'.read path = d.read path) : load d' path = load d path := by
  unfold load
  rw [h]

theorem open?_eq_ok_iff : open? d path = .ok c ↔ c.path = path ∧ load d path = .ok c.records := by
  obtain ⟨path', records'⟩ := c
  unfold open?
  cases load d path with
  | error e => simp [Except.map]
  | ok records => simp [Except.map, eq_comm]

/-- Where no name leads back, a file that can be opened is one that can be there. -/
theorem namesFile_of_open? (hforth : ".." ∉ path) (hopen : open? d path = .ok c) :
    d.NamesFile path := by
  obtain ⟨-, hload⟩ := open?_eq_ok_iff.1 hopen
  refine ⟨fun hnone => ?_, ?_⟩
  · obtain rfl | ⟨dir, name, rfl⟩ := List.eq_nil_or_concat path
    · exact absurd hload (by simp [load, Disk.read, Disk.locate, Disk.follow, Disk.find?_root])
    · rw [List.concat_eq_append] at hnone hforth
      rw [DiskPath.fileName?_concat] at hnone
      split at hnone
      · rename_i hname
        exact hforth (by simp [hname])
      · exact absurd hnone (by simp)
  · cases hlocate : d.locate path with
    | ok place => exact ⟨place, rfl⟩
    | error e =>
      obtain rfl := Disk.follow_forth hforth hlocate
      exact absurd hload (by simp [load, Disk.read, hlocate])

/-! ## What saving leaves alone -/

/-- The extension that takes the place of a name's last one has a point in it, so it is never the
extension that was there. -/
theorem stem_ne (name : String) : stem name ++ ".json.tmp" ≠ name := by
  intro heq
  have hself : name ++ ".json.tmp" ≠ name := by
    intro h
    have hlength := congrArg String.length h
    rw [String.length_append] at hlength
    have htail : ".json.tmp".length = 9 := by decide
    omega
  unfold stem at heq
  split at heq
  · exact hself heq
  · rename_i before after _ hsplit
    have htext := congrArg String.toList heq
    rw [String.toList_append, String.toList_ofList] at htext
    -- The last point of the name is the one before its last three characters.
    obtain ⟨before', after', hlast, hshort⟩ := @Text.exists_splitLast? ['.'] (by decide)
      (before ++ ".json".toList) "tmp".toList
    have hsame : before ++ ".json".toList ++ (['.'] ++ "tmp".toList) = name.toList := by
      rw [← htext, List.append_assoc]
      rfl
    rw [hsame, hsplit] at hlast
    obtain ⟨rfl, rfl⟩ := Prod.mk.inj (Option.some.inj hlast)
    have hwhole := congrArg List.length (Text.eq_of_splitLast? hsplit)
    rw [← htext] at hwhole
    simp only [List.length_append, List.length_singleton, String.length_toList] at hwhole hshort
    have htail : ".json.tmp".length = 9 := by decide
    have hend : "tmp".length = 3 := by decide
    omega
  · exact hself heq

theorem temporary_concat {dir : DiskPath} {name : String} (hname : name ≠ "..") :
    temporary (dir ++ [name]) = dir ++ [stem name ++ ".json.tmp"] := by
  unfold temporary
  rw [DiskPath.fileName?_concat, if_neg hname, List.dropLast_concat]

/-- The file that is written first is not the one that is to take its place. -/
theorem temporary_ne {d : Disk} (h : d.NamesFile path) : temporary path ≠ path := by
  obtain ⟨dir, name, hname, rfl⟩ := h.eq_concat
  rw [temporary_concat hname]
  exact fun heq => stem_ne name (List.singleton_inj.1 (List.append_cancel_left heq))

/-- The two files stand beside each other. -/
theorem temporary_place_ne (h : d.NamesFile path) : path.place ≠ (temporary path).place := by
  obtain ⟨dir, name, hname, rfl⟩ := h.eq_concat
  have hlong : stem name ++ ".json.tmp" ≠ ".." := by
    intro heq
    have hlength := congrArg String.length heq
    rw [String.length_append] at hlength
    have htail : ".json.tmp".length = 9 := by decide
    have hback : "..".length = 2 := by decide
    omega
  rw [temporary_concat hname, DiskPath.place_concat, DiskPath.place_concat, DiskPath.enter,
    DiskPath.enter, if_neg hname, if_neg hlong]
  exact fun heq => stem_ne name (List.singleton_inj.1 (List.append_cancel_left heq)).symm

/-- Saving does not change where the path leads, and when it fails, at whichever step, it does not
change what is read from the file. -/
theorem namesFile_save {fault : Option SaveFault} {result : Option DiskError}
    (hnames : d.NamesFile path) (h : save d path records fault = (result, d')) :
    d'.NamesFile path ∧ (result ≠ none → d'.read path = d.read path) := by
  have hdirectories : ∀ {d₁ : Disk}, d.makeDirectories (Disk.parent path) = .ok d₁ →
      d₁.Leads (Disk.parent path) ∧ d₁.read path = d.read path := fun hmake =>
    ⟨Disk.makeDirectories_ok hmake, (hnames.makeDirectories hmake).2⟩
  cases save_end h with
  | untouched => exact ⟨hnames, fun _ => rfl⟩
  | made _ _ hmake =>
    obtain ⟨hdir, hread⟩ := hdirectories hmake
    exact ⟨⟨hnames.name, _, hdir.locate⟩, fun _ => hread⟩
  | @written _ _ _ _ bytes hmake hwrite =>
    obtain ⟨hdir, hread⟩ := hdirectories hmake
    obtain ⟨hfree, rfl⟩ := Disk.write_ok hwrite
    have hdir' := hdir.put hfree (.file bytes)
    refine ⟨⟨hnames.name, _, hdir'.locate⟩, fun _ => Eq.trans ?_ hread⟩
    exact Disk.read_congr (hdir'.locate.trans hdir.locate.symm)
      (Disk.find?_put_ne (temporary_place_ne hnames))
  | @renamed d₁ _ _ hmake hwrite hrename =>
    obtain ⟨hfree, rfl⟩ := Disk.write_ok hwrite
    obtain ⟨hwritten, hnodir⟩ := Disk.find?_put_file hfree (content records)
    obtain ⟨hfree', rfl⟩ := Disk.rename_ok hwritten hrename
    have hdir' := ((hdirectories hmake).1.put hfree (.file (content records))).rename hnodir hfree'
      (.file (content records))
    exact ⟨⟨hnames.name, _, hdir'.locate⟩, fun hnone => absurd rfl hnone⟩

/-- What a change does: the records in memory are changed in any case, and are then saved or not. -/
theorem set_cases {now : Nat} {key value : String} {lifetime : Duration}
    {fault : Option SaveFault} {result : Except CacheError Unit}
    (h : c.set d now key value lifetime fault = (result, c', d')) :
    c' = c.put now key value lifetime ∧
      (result = .ok () ∧ save d c.path c'.records fault = (none, d') ∨
        ∃ e e', result = .error e ∧ save d c.path c'.records fault = (some e', d')) := by
  unfold set at h
  dsimp only at h
  split at h
  · rename_i d₁ hsave
    obtain ⟨rfl, hrest⟩ := Prod.mk.inj h
    obtain ⟨rfl, rfl⟩ := Prod.mk.inj hrest
    exact ⟨rfl, Or.inl ⟨rfl, hsave⟩⟩
  · rename_i e d₁ hsave
    obtain ⟨rfl, hrest⟩ := Prod.mk.inj h
    obtain ⟨rfl, rfl⟩ := Prod.mk.inj hrest
    exact ⟨rfl, Or.inr ⟨_, e, rfl, hsave⟩⟩

end FileCache

/-! ## Changes -/

/-- A change of a cache, and whether it could be saved. -/
structure Change where
  /-- The millisecond at which it was made. -/
  now : Nat
  /-- The key. -/
  key : String
  /-- The value. -/
  value : String
  /-- How long the value is to be known. -/
  lifetime : Duration
  /-- Whether saving succeeded. -/
  saved : Bool

/-- The records after a change: those whose time is over are dropped, and the value is put. -/
def Change.apply (records : Table FileRecord) (ch : Change) : Table FileRecord :=
  (records.filter fun _ r => ch.now < r.expiresAtMs).put ch.key
    ⟨ch.value, FileRecord.stamp ch.now ch.lifetime⟩

/-- The records in memory after some changes, whether or not they could be saved. -/
def held (opened : Table FileRecord) (log : List Change) : Table FileRecord :=
  log.foldl Change.apply opened

/-- The records that were in memory when the last change was saved, those of the changes before it
that could not be saved among them; without such a change, the records with which the cache was
opened. -/
def lastSaved (opened : Table FileRecord) (log : List Change) : Table FileRecord :=
  held opened (log.rdropWhile fun ch => !ch.saved)

theorem held_snoc (opened : Table FileRecord) (log : List Change) (ch : Change) :
    held opened (log ++ [ch]) = ch.apply (held opened log) := by
  unfold held
  rw [List.foldl_append]
  rfl

theorem lastSaved_snoc (opened : Table FileRecord) (log : List Change) (ch : Change) :
    lastSaved opened (log ++ [ch]) =
      if ch.saved then held opened (log ++ [ch]) else lastSaved opened log := by
  unfold lastSaved
  rw [List.rdropWhile_concat]
  cases ch.saved <;> rfl

/-- A cache and the disk on which it is saved. -/
structure SavedCache where
  /-- The cache. -/
  cache : FileCache
  /-- The disk. -/
  disk : Disk

namespace SavedCache

/-- What can happen to a cache and its disk: a change, of which saving may fail at any step, or
something elsewhere on the disk, which leaves the file of the cache alone. -/
inductive Step : SavedCache → List Change → SavedCache → Prop where
  /-- A value is stored. -/
  | set (a : SavedCache) (now : Nat) (key value : String) (lifetime : Duration)
      (fault : Option SaveFault) {result : Except CacheError Unit} {cache : FileCache} {disk : Disk}
      (h : a.cache.set a.disk now key value lifetime fault = (result, cache, disk)) :
      Step a [⟨now, key, value, lifetime, result.toBool⟩] ⟨cache, disk⟩
  /-- Anything else happens on the disk. -/
  | elsewhere (a : SavedCache) {disk : Disk}
      (h : disk.read a.cache.path = a.disk.read a.cache.path) : Step a [] { a with disk }

/-- A step in which nobody else takes away what the way to the cache's file leads through. The steps
of the cache itself are all of this kind. -/
def Undisturbed (a : SavedCache) (shown : List Change) (b : SavedCache) : Prop :=
  Step a shown b ∧ (a.disk.NamesFile a.cache.path → b.disk.NamesFile b.cache.path)

variable {a b : SavedCache} {opened : FileCache} {log shown : List Change}

theorem undisturbed_set (a : SavedCache) (now : Nat) (key value : String) (lifetime : Duration)
    (fault : Option SaveFault) {result : Except CacheError Unit} {cache : FileCache} {disk : Disk}
    (h : a.cache.set a.disk now key value lifetime fault = (result, cache, disk)) :
    Undisturbed a [⟨now, key, value, lifetime, result.toBool⟩] ⟨cache, disk⟩ := by
  refine ⟨.set a now key value lifetime fault h, fun hnames => ?_⟩
  obtain ⟨rfl, ⟨-, hsave⟩ | ⟨_, _, -, hsave⟩⟩ := FileCache.set_cases h
  · exact (FileCache.namesFile_save hnames hsave).1
  · exact (FileCache.namesFile_save hnames hsave).1

/-- The records are those of the changes, and the file holds those that were saved last. -/
structure Sound (opened : FileCache) (log : List Change) (a : SavedCache) : Prop where
  path : a.cache.path = opened.path
  names : a.disk.NamesFile opened.path
  held : a.cache.records = held opened.records log
  distinct : a.cache.records.Distinct
  stamped : Stamped a.cache.records
  file : FileCache.load a.disk opened.path = .ok (lastSaved opened.records log)

theorem Undisturbed.sound (step : Undisturbed a shown b) (h : a.Sound opened log) :
    b.Sound opened (log ++ shown) := by
  obtain ⟨step, hnames⟩ := step
  have hnames := hnames (h.path ▸ h.names)
  cases step with
  | elsewhere hread =>
    rw [List.append_nil]
    rw [h.path] at hread
    exact ⟨h.path, h.path ▸ hnames, h.held, h.distinct, h.stamped,
      (FileCache.load_congr hread).trans h.file⟩
  | set now key value lifetime fault hset =>
    obtain ⟨rfl, hsave⟩ := FileCache.set_cases hset
    have hdistinct : (a.cache.put now key value lifetime).records.Distinct :=
      (h.distinct.filter _).put _ _
    have hstamped : Stamped (a.cache.put now key value lifetime).records :=
      (h.stamped.filter _).put _ (Nat.min_le_right _ _)
    have hheld : ∀ saved, (a.cache.put now key value lifetime).records =
        held opened.records (log ++ [⟨now, key, value, lifetime, saved⟩]) := by
      intro saved
      rw [held_snoc, ← h.held]
      rfl
    refine ⟨h.path, h.path ▸ hnames, hheld _, hdistinct, hstamped, ?_⟩
    rw [lastSaved_snoc, ← hheld]
    dsimp only
    rw [h.path] at hsave
    rcases hsave with ⟨rfl, hsave⟩ | ⟨e, e', rfl, hsave⟩
    · exact FileCache.load_of_save hdistinct hstamped hsave
    · have hread := (FileCache.namesFile_save h.names hsave).2 (Option.some_ne_none e')
      rw [FileCache.load_congr hread]
      exact h.file

/-- Whatever happens to a cache and its disk, as long as nobody else writes the file of the cache or
takes away the way to it, the file can be opened and holds all that was in memory when the last
change was saved, as it was; a change that cannot be saved leaves the file as it is, and no change is
first written to the file itself. -/
theorem saved_records_survive {d : Disk} {path : DiskPath} (hnames : d.NamesFile path)
    (hopen : FileCache.open? d path = .ok opened) (run : Run Undisturbed ⟨opened, d⟩ log a) :
    a.cache = ⟨path, held opened.records log⟩ ∧
      FileCache.open? a.disk path = .ok ⟨path, lastSaved opened.records log⟩ ∧
      (∀ now key value lifetime fault e cache disk,
        a.cache.set a.disk now key value lifetime fault = (.error e, cache, disk) →
          disk.read path = a.disk.read path) ∧
      FileCache.temporary path ≠ path := by
  obtain ⟨hpath, hload⟩ := FileCache.open?_eq_ok_iff.1 hopen
  rw [← hpath] at hload hnames ⊢
  obtain ⟨hdistinct, hstamped⟩ := FileCache.sound_of_load hload
  have hsound : a.Sound opened log :=
    run.preserves (P := fun log a => a.Sound opened log)
      ⟨rfl, hnames, rfl, hdistinct, hstamped, hload⟩ fun h step => step.sound h
  refine ⟨?_, FileCache.open?_eq_ok_iff.2 ⟨rfl, hsound.file⟩, ?_, FileCache.temporary_ne hnames⟩
  · rw [← hsound.path, ← hsound.held]
  · intro now key value lifetime fault e cache disk hset
    obtain ⟨-, ⟨hok, -⟩ | ⟨_, e', -, hsave⟩⟩ := FileCache.set_cases hset
    · exact absurd hok (by simp)
    · rw [hsound.path] at hsave
      exact (FileCache.namesFile_save hsound.names hsave).2 (Option.some_ne_none e')

/-- A change is saved, the next one fails while its file is half written, and the one after that when
this file is to be renamed: the file of the cache holds the first one, and all of them are in
memory. -/
theorem saved_records_survive_half_written : ∃ a log,
    FileCache.open? {} ["identities.json"] = .ok { path := ["identities.json"] } ∧
    Run Undisturbed ⟨{ path := ["identities.json"] }, {}⟩ log a ∧
    log.map (·.saved) = [true, false, false] ∧
    FileCache.open? a.disk ["identities.json"] =
      .ok ⟨["identities.json"], ⟨[("da-one", ⟨"first", 1000⟩)]⟩⟩ ∧
    a.cache.records.entries.map (·.1) = ["da-one", "da-two", "da-three"] := by
  have hopen : FileCache.open? {} ["identities.json"] = .ok { path := ["identities.json"] } := by
    decide
  have hnames : Disk.NamesFile {} ["identities.json"] :=
    FileCache.namesFile_of_open? (by decide) hopen
  have hfirst := Run.single
    (undisturbed_set ⟨{ path := ["identities.json"] }, {}⟩ 0 "da-one" "first" (.ofMillis 1000) none
      rfl)
  have hsecond := hfirst.tail
    (undisturbed_set _ 1 "da-two" "second" (.ofMillis 1000) (some (.temporary (some "x".toUTF8)))
      rfl)
  have hthird := hsecond.tail
    (undisturbed_set _ 2 "da-three" "third" (.ofMillis 1000) (some .rename) rfl)
  obtain ⟨hcache, hfile, -, -⟩ := saved_records_survive hnames hopen hthird
  refine ⟨_, _, hopen, hthird, rfl, hfile, ?_⟩
  rw [hcache]
  rfl

/-- On a path that ends on the way back there is no other file beside the cache's own, and on one that
leads back from a directory that is not there yet the first change makes this directory. Either path
can be opened, the change fails, and then there is a directory where the file was looked for. -/
theorem unopenable_after_way_back :
    FileCache.temporary ["state", ".."] = ["state", ".."] ∧
      ∀ path ∈ [["state", ".."], ["state", "..", "state"]],
        FileCache.open? {} path = .ok { path } ∧
        ∃ e e' cache disk, FileCache.set { path } {} 0 "da-one" "x" (.ofSecs 1) =
          (.error e, cache, disk) ∧ FileCache.open? disk path = .error e' := by
  refine ⟨by decide, fun path hpath => ?_⟩
  rcases List.mem_pair.1 hpath with rfl | rfl
  · exact ⟨by decide, _, _, _, _, rfl, rfl⟩
  · exact ⟨by decide, _, _, _, _, rfl, rfl⟩

end SavedCache

end Rendezvous
