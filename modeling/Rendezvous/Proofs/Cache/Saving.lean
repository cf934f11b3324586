import Mathlib.Data.List.Induction
import Rendezvous.Cache.File
import Rendezvous.Proofs.Json.Fields
import Rendezvous.Proofs.Json.RoundTrip

/-!
# Loading what was saved

After records have been saved, the file of the cache holds just these, and loading it brings them
back as they were.
-/

namespace Rendezvous

/-! ## Disks -/

namespace DiskPath

theorem place_concat (path : DiskPath) (name : String) :
    place (path ++ [name]) = enter path.place name := by
  rw [place, List.foldl_append]
  rfl

theorem fileName?_concat (path : DiskPath) (name : String) :
    fileName? (path ++ [name]) = if name = ".." then none else some name := by
  rw [fileName?, List.getLast?_concat]

end DiskPath

namespace Disk

variable {d d' d'' : Disk} {path target place other : DiskPath} {node : DiskNode}
  {content : ByteArray}

/-! ### What is at a place -/

theorem find?_put_self (hplace : place ≠ []) : (d.put place node).find? place = some node := by
  have hnone : (d.nodes.filter (·.1 != place)).find? (·.1 == place) = none := by
    refine List.find?_eq_none.2 fun n hn => ?_
    simpa using (List.mem_filter.1 hn).2
  have hempty : place.isEmpty = false := by simpa using hplace
  unfold find? put
  rw [hempty, List.find?_append, hnone]
  simp

theorem find?_filter_ne (h : other ≠ place) (nodes : List (DiskPath × DiskNode)) :
    (nodes.filter (·.1 != place)).find? (·.1 == other) = nodes.find? (·.1 == other) := by
  induction nodes with
  | nil => rfl
  | cons n nodes ih =>
    by_cases hn : n.1 = place
    · have hother : n.1 ≠ other := fun heq => h (heq.symm.trans hn)
      rw [List.filter_cons_of_neg (by simpa using hn), ih,
        List.find?_cons_of_neg (by simpa using hother)]
    · rw [List.filter_cons_of_pos (by simpa using hn)]
      by_cases hother : n.1 = other
      · rw [List.find?_cons_of_pos (by simpa using hother),
          List.find?_cons_of_pos (by simpa using hother)]
      · rw [List.find?_cons_of_neg (by simpa using hother), ih,
          List.find?_cons_of_neg (by simpa using hother)]

theorem find?_erase_ne (h : other ≠ place) : (d.erase place).find? other = d.find? other := by
  unfold find? erase
  rw [find?_filter_ne h]

theorem find?_put_ne (h : other ≠ place) : (d.put place node).find? other = d.find? other := by
  unfold find? put
  rw [List.find?_append, find?_filter_ne h]
  have hnot : (place == other) = false := beq_eq_false_iff_ne.2 (Ne.symm h)
  simp [hnot]

theorem find?_root (d : Disk) : d.find? [] = some .directory := rfl

/-- The root is a directory. -/
theorem ne_root (h : d.find? place ≠ some .directory) : place ≠ [] := by
  rintro rfl
  exact h d.find?_root

theorem find?_put_file (hfree : d.find? place ≠ some .directory) (content : ByteArray) :
    (d.put place (.file content)).find? place = some (.file content) ∧
      (d.put place (.file content)).find? place ≠ some .directory := by
  rw [find?_put_self (ne_root hfree)]
  exact ⟨rfl, by simp⟩

/-! ### Where a path leads -/

theorem follow_append (d : Disk) (place : DiskPath) (names names' : List String) :
    d.follow place (names ++ names') = d.follow place names >>= (d.follow · names') := by
  induction names generalizing place with
  | nil => rfl
  | cons name names ih =>
    rw [List.cons_append, follow, follow]
    split
    · exact ih _
    · rfl
    · split
      · rfl
      · exact ih _

theorem follow_eq {names : List String} (h : d.follow place names = .ok other) :
    other = names.foldl DiskPath.enter place := by
  induction names generalizing place with
  | nil => exact (Except.ok.inj h).symm
  | cons name names ih =>
    rw [follow] at h
    split at h
    · exact ih h
    · exact absurd h (by simp)
    · split at h
      · exact absurd h (by simp)
      · exact ih h

/-- A path leads nowhere else than its names say. -/
theorem locate_eq (h : d.locate path = .ok place) : place = path.place :=
  follow_eq h

theorem locate_concat (d : Disk) (path : DiskPath) (name : String) :
    d.locate (path ++ [name]) = d.locate path >>= (d.follow · [name]) :=
  follow_append ..

/-- The directories on a path are there, the one to which it leads among them. -/
def Leads (d : Disk) (path : DiskPath) : Prop :=
  ∀ p : DiskPath, p <+: path → d.find? p.place = some .directory

theorem Leads.put (h : d.Leads path) (hplace : d.find? place ≠ some .directory) (node : DiskNode) :
    (d.put place node).Leads path := by
  intro p hp
  have hne : DiskPath.place p ≠ place := fun heq => hplace (heq ▸ h p hp)
  rw [find?_put_ne hne]
  exact h p hp

theorem Leads.rename {source : DiskPath} (h : d.Leads path)
    (hsource : d.find? source ≠ some .directory) (hplace : d.find? place ≠ some .directory)
    (node : DiskNode) : ((d.erase source).put place node).Leads path := by
  intro p hp
  have hne : DiskPath.place p ≠ place := fun heq => hplace (heq ▸ h p hp)
  have hne' : DiskPath.place p ≠ source := fun heq => hsource (heq ▸ h p hp)
  rw [find?_put_ne hne, find?_erase_ne hne']
  exact h p hp

/-- In a directory that is there, every name leads somewhere. -/
theorem Leads.locate (h : d.Leads (parent path)) : d.locate path = .ok path.place := by
  induction path using List.reverseRecOn with
  | nil => rfl
  | append_singleton path name ih =>
    rw [parent, List.dropLast_concat] at h
    have hpath : d.Leads (parent path) := fun p hp => h p (hp.trans (List.dropLast_prefix _))
    rw [locate_concat, ih hpath, DiskPath.place_concat]
    show d.follow (DiskPath.place path) [name] = _
    rw [follow, h path (List.prefix_refl _)]
    rfl

theorem mem_ancestry_iff {p : DiskPath} : p ∈ ancestry path ↔ p <+: path ∧ p ≠ [] := by
  unfold ancestry
  rw [List.mem_map]
  constructor
  · rintro ⟨i, hi, rfl⟩
    refine ⟨List.take_prefix .., ?_⟩
    have hpath : path ≠ [] := List.ne_nil_of_length_pos (Nat.zero_lt_of_lt (List.mem_range.1 hi))
    simpa using hpath
  · rintro ⟨hp, hne⟩
    have hpos := List.length_pos_iff.2 hne
    have hle := hp.length_le
    refine ⟨p.length - 1, List.mem_range.2 (by omega), ?_⟩
    rw [Nat.sub_add_cancel hpos]
    exact (List.prefix_iff_eq_take.1 hp).symm

/-! ### What is done to a disk -/

/-- A file can be read where its path leads. -/
theorem read_eq_ok (hplace : d.locate path = .ok place)
    (hfile : d.find? place = some (.file content)) : d.read path = .ok content := by
  unfold read
  rw [hplace]
  dsimp only
  rw [hfile]

/-- Of two disks, the later one has all that the earlier one has, and besides that new directories
at most. -/
def Grows (d d' : Disk) : Prop :=
  ∀ p, d'.find? p = d.find? p ∨ d.find? p = none ∧ d'.find? p = some .directory

theorem Grows.refl (d : Disk) : d.Grows d := fun _ => Or.inl rfl

theorem Grows.trans (h : d.Grows d') (h' : d'.Grows d'') : d.Grows d'' := by
  intro p
  rcases h' p with hsame | ⟨hnone, hdir⟩
  · rw [hsame]
    exact h p
  · rcases h p with hsame | ⟨-, hdir'⟩
    · exact Or.inr ⟨hsame ▸ hnone, hdir⟩
    · exact absurd (hdir'.symm.trans hnone) (by simp)

theorem Grows.directory (h : d.Grows d') (hdir : d.find? place = some .directory) :
    d'.find? place = some .directory := by
  rcases h place with hsame | ⟨-, hdir'⟩
  · rw [hsame, hdir]
  · exact hdir'

theorem makeDirectory_ok (h : d.makeDirectory path = .ok d') :
    d.Grows d' ∧ d'.find? path.place = some .directory ∧
      ∀ p, p ≠ path.place → d'.find? p = d.find? p := by
  unfold makeDirectory at h
  split at h
  · exact absurd h (by simp)
  rename_i place hplace
  obtain rfl := locate_eq hplace
  split at h
  · rename_i hdir
    obtain rfl := Except.ok.inj h
    exact ⟨.refl d, hdir, fun _ _ => rfl⟩
  · exact absurd h (by simp)
  · rename_i hnone
    obtain rfl := Except.ok.inj h
    have hfree : d.find? path.place ≠ some .directory := by simp [hnone]
    have hself : (d.put path.place .directory).find? path.place = some .directory :=
      find?_put_self (ne_root hfree)
    refine ⟨fun p => ?_, hself, fun p hp => find?_put_ne hp⟩
    by_cases hp : p = path.place
    · rw [hp]
      exact Or.inr ⟨hnone, hself⟩
    · exact Or.inl (find?_put_ne hp)

theorem makeAll_ok {paths : List DiskPath} (h : paths.foldlM makeDirectory d = .ok d') :
    d.Grows d' ∧ (∀ p ∈ paths, d'.find? p.place = some .directory) ∧
      ∀ p, (∀ q ∈ paths, DiskPath.place q ≠ p) → d'.find? p = d.find? p := by
  induction paths generalizing d with
  | nil =>
    obtain rfl := Except.ok.inj h
    exact ⟨.refl d, by simp, fun _ _ => rfl⟩
  | cons path paths ih =>
    rw [List.foldlM_cons] at h
    cases hmake : d.makeDirectory path with
    | error e =>
      rw [hmake] at h
      exact absurd h (by simp [bind, Except.bind])
    | ok d₁ =>
      rw [hmake] at h
      obtain ⟨hgrows, hself, hothers⟩ := makeDirectory_ok hmake
      obtain ⟨hgrows', hdirs, hothers'⟩ := ih h
      refine ⟨hgrows.trans hgrows', List.forall_mem_cons.2 ⟨hgrows'.directory hself, hdirs⟩, ?_⟩
      intro p hp
      rw [List.forall_mem_cons] at hp
      rw [hothers' p hp.2, hothers p hp.1.symm]

theorem makeDirectories_ok (h : d.makeDirectories path = .ok d') : d'.Leads path := by
  intro p hp
  by_cases hroot : p = []
  · subst hroot
    rfl
  · exact (makeAll_ok h).2.1 p (mem_ancestry_iff.2 ⟨hp, hroot⟩)

/-- A file that was written is there, and nothing else has changed. -/
theorem write_ok (h : d.write path content = .ok d') :
    d.find? path.place ≠ some .directory ∧ d' = d.put path.place (.file content) := by
  unfold write at h
  split at h
  · exact absurd h (by simp)
  rename_i place hplace
  obtain rfl := locate_eq hplace
  split at h
  · exact absurd h (by simp)
  · exact absurd h (by simp)
  · split at h
    · exact absurd h (by simp)
    · rename_i hnodir
      exact ⟨hnodir, (Except.ok.inj h).symm⟩

/-- A file that was given another name is there under this name. -/
theorem rename_ok (hfile : d.find? path.place = some (.file content))
    (h : d.rename path target = .ok d') :
    d.find? target.place ≠ some .directory ∧
      d' = (d.erase path.place).put target.place (.file content) := by
  unfold rename at h
  split at h
  · rename_i source place hsource hplace
    obtain rfl := locate_eq hsource
    obtain rfl := locate_eq hplace
    rw [hfile] at h
    dsimp only at h
    split at h
    · exact absurd h (by simp)
    · rename_i hnodir
      exact ⟨hnodir, (Except.ok.inj h).symm⟩
  · exact absurd h (by simp)
  · exact absurd h (by simp)

end Disk

/-! ## Tables -/

namespace Table

variable {α : Type}

/-- A name that is new comes last. -/
theorem put_of_notMem {t : Table α} {name : String} (h : name ∉ t.entries.map (·.1)) (a : α) :
    t.put name a = ⟨t.entries ++ [(name, a)]⟩ := by
  have hkeep : t.entries.filter (·.1 != name) = t.entries := by
    refine List.filter_eq_self.2 fun e he => ?_
    have hne : e.1 ≠ name := fun heq => h (List.mem_map.2 ⟨e, he, heq⟩)
    simpa using hne
  unfold put erase
  rw [hkeep]

theorem foldl_put (t : Table α) (entries : List (String × α))
    (h : (t.entries ++ entries).map (·.1) |>.Nodup) :
    entries.foldl (fun t e => t.put e.1 e.2) t = ⟨t.entries ++ entries⟩ := by
  induction entries generalizing t with
  | nil => rw [List.append_nil, List.foldl_nil]
  | cons e entries ih =>
    have hnew : e.1 ∉ t.entries.map (·.1) := by
      rw [List.map_append, List.nodup_append] at h
      exact fun hmem => h.2.2 _ hmem _ List.mem_cons_self rfl
    rw [List.foldl_cons, put_of_notMem hnew, ih]
    · rw [List.append_assoc, List.singleton_append]
    · rwa [List.append_assoc, List.singleton_append]

/-- The entries of a table make up the table. -/
theorem Distinct.ofList_entries {t : Table α} (h : t.Distinct) : ofList t.entries = t := by
  have hfold := foldl_put {} t.entries h
  rw [List.nil_append] at hfold
  exact hfold

end Table

/-! ## Content -/

/-- The records of a table have stamps in 64 bits. -/
def Stamped (records : Table FileRecord) : Prop :=
  ∀ e ∈ records.entries, e.2.expiresAtMs ≤ maxStamp

theorem Stamped.filter {records : Table FileRecord} (h : Stamped records)
    (keep : String → FileRecord → Bool) : Stamped (records.filter keep) :=
  fun e he => h e (List.mem_filter.1 he).1

theorem Stamped.put {records : Table FileRecord} (h : Stamped records) (key : String)
    {r : FileRecord} (hr : r.expiresAtMs ≤ maxStamp) : Stamped (records.put key r) := by
  intro e he
  rcases List.mem_append.1 he with he | he
  · exact h e (List.mem_filter.1 he).1
  · obtain rfl := List.mem_singleton.1 he
    exact hr

namespace FileRecord

theorem ofJson?_toJson {r : FileRecord} (h : r.expiresAtMs ≤ maxStamp) :
    ofJson? r.toJson = some r := by
  have hfields : r.toJson.fields? ["value", "expiresAtMs"] =
      some [some (.ofString r.value), some (.ofNat r.expiresAtMs)] := by
    simp [toJson, Json.ofMembers, Json.fields?, Record.ofMembers?]
  have hstamp : (Json.ofNat r.expiresAtMs).intIn? 0 maxStamp = some (r.expiresAtMs : Int) := by
    simp [Json.ofNat, Json.intIn?, Json.int?, h]
  unfold ofJson?
  rw [hfields]
  simp [Json.ofString, Json.string?, hstamp]

theorem proper_toJson (r : FileRecord) : r.toJson.Proper := by
  refine .ofMembers fun m hm => ?_
  simp only [List.mem_cons, List.not_mem_nil, or_false] at hm
  rcases hm with rfl | rfl
  · exact .text _
  · exact .number fun digits h => absurd h (by simp)

end FileRecord

namespace FileCache

variable {records : Table FileRecord}

theorem recordsOfJson?_recordsToJson (hdistinct : records.Distinct) (hstamps : Stamped records) :
    recordsOfJson? (recordsToJson records) = some records := by
  unfold recordsToJson Json.ofMembers recordsOfJson?
  dsimp only
  rw [List.map_map]
  refine (congrArg (Option.map Table.ofList) (mapM_map_eq_some fun e he => ?_)).trans ?_
  · simp [FileRecord.ofJson?_toJson (hstamps e he)]
  · rw [Option.map_some, hdistinct.ofList_entries]

theorem proper_recordsToJson (records : Table FileRecord) : (recordsToJson records).Proper := by
  refine .ofMembers fun m hm => ?_
  obtain ⟨r, -, rfl⟩ := List.mem_map.1 hm
  exact r.2.proper_toJson

/-- A text that begins with a brace is not blank. -/
theorem isBlankText_writeLines (members : List (Option String × Json)) :
    Text.isBlankText (Json.writeLines 0 (.object members)) = false := by
  have hbrace : ∃ cs, (Json.writeLines 0 (.object members)).toList = '\x7b' :: cs := by
    rw [Json.writeLines]
    cases Json.writeMemberLines (0 + 1) members with
    | nil =>
      rw [Json.toList_encloseLines_nil]
      exact ⟨_, rfl⟩
    | cons item items =>
      rw [Json.toList_encloseLines _ _ _ (List.cons_ne_nil _ _)]
      exact ⟨_, rfl⟩
  obtain ⟨cs, hcs⟩ := hbrace
  have hblank : Text.isBlank '\x7b' = false := by decide
  unfold Text.isBlankText
  rw [hcs, List.all_cons, hblank, Bool.false_and]

/-- Loading a file that holds the content of some records. -/
theorem load_eq_ok {d : Disk} {path : DiskPath} (hread : d.read path = .ok (content records))
    (hdistinct : records.Distinct) (hstamps : Stamped records) : load d path = .ok records := by
  have hutf8 : String.fromUTF8? (content records) =
      some ((recordsToJson records).writeLines 0) := by
    unfold String.fromUTF8?
    exact dif_pos ((recordsToJson records).writeLines 0).isValidUTF8
  have hjson := Json.read?_writeLines (proper_recordsToJson records)
  have hblank : Text.isBlankText ((recordsToJson records).writeLines 0) = false :=
    isBlankText_writeLines _
  unfold load
  rw [hread]
  dsimp only
  rw [hutf8]
  dsimp only
  rw [if_neg (by simp [hblank]), hjson, Option.bind_some,
    recordsOfJson?_recordsToJson hdistinct hstamps]

/-- How far saving came, whether it failed, and the disk it leaves. Of a file that could not be
written to its end, anything may be there. -/
inductive SaveEnd (d : Disk) (path : DiskPath) (records : Table FileRecord) :
    Option SaveFault → Option DiskError → Disk → Prop where
  /-- The directory could not be made. -/
  | untouched (fault : Option SaveFault) (e : DiskError) : SaveEnd d path records fault (some e) d
  /-- The file beside the cache's own could not be written at all. -/
  | made (fault : Option SaveFault) (e : DiskError) {d₁ : Disk}
      (hmake : d.makeDirectories (Disk.parent path) = .ok d₁) :
      SaveEnd d path records fault (some e) d₁
  /-- The file beside the cache's own was written, in part or as a whole, but did not take its
  name. -/
  | written (fault : Option SaveFault) (e : DiskError) {d₁ d₂ : Disk} {bytes : ByteArray}
      (hmake : d.makeDirectories (Disk.parent path) = .ok d₁)
      (hwrite : d₁.write (temporary path) bytes = .ok d₂) :
      SaveEnd d path records fault (some e) d₂
  /-- The file beside the cache's own has taken its name. -/
  | renamed {d₁ d₂ d₃ : Disk} (hmake : d.makeDirectories (Disk.parent path) = .ok d₁)
      (hwrite : d₁.write (temporary path) (content records) = .ok d₂)
      (hrename : d₂.rename (temporary path) path = .ok d₃) :
      SaveEnd d path records none none d₃

theorem save_end {d d' : Disk} {path : DiskPath} {fault : Option SaveFault}
    {result : Option DiskError} (h : save d path records fault = (result, d')) :
    SaveEnd d path records fault result d' := by
  unfold save at h
  split at h
  · obtain ⟨rfl, rfl⟩ := Prod.mk.inj h
    exact .untouched _ _
  rename_i hdirectory
  split at h
  · obtain ⟨rfl, rfl⟩ := Prod.mk.inj h
    exact .untouched _ _
  rename_i hmake
  split at h
  · obtain ⟨rfl, rfl⟩ := Prod.mk.inj h
    exact .made _ _ hmake
  · split at h
    · obtain ⟨rfl, rfl⟩ := Prod.mk.inj h
      exact .made _ _ hmake
    · rename_i hwrite
      obtain ⟨rfl, rfl⟩ := Prod.mk.inj h
      exact .written _ _ hmake hwrite
  rename_i hunwritten hhalf
  split at h
  · obtain ⟨rfl, rfl⟩ := Prod.mk.inj h
    exact .made _ _ hmake
  rename_i hwrite
  split at h
  · obtain ⟨rfl, rfl⟩ := Prod.mk.inj h
    exact .written _ _ hmake hwrite
  rename_i hrenaming
  split at h
  · obtain ⟨rfl, rfl⟩ := Prod.mk.inj h
    exact .written _ _ hmake hwrite
  rename_i hrename
  obtain ⟨rfl, rfl⟩ := Prod.mk.inj h
  -- All faults have been dealt with.
  rcases fault with - | (- | (- | bytes) | -)
  · exact .renamed hmake hwrite hrename
  · exact absurd rfl hdirectory
  · exact absurd rfl hunwritten
  · exact absurd rfl (hhalf bytes)
  · exact absurd rfl hrenaming

/-- After records were saved, the file holds their content. -/
theorem read_of_save {d d' : Disk} {path : DiskPath} {fault : Option SaveFault}
    (h : save d path records fault = (none, d')) : d'.read path = .ok (content records) := by
  cases save_end h with
  | @renamed d₁ _ _ hmake hwrite hrename =>
    -- None of the directories down to the file is at the place of one of the two files.
    have hdir := Disk.makeDirectories_ok hmake
    obtain ⟨hfree, rfl⟩ := Disk.write_ok hwrite
    obtain ⟨hwritten, hnodir⟩ := Disk.find?_put_file hfree (content records)
    obtain ⟨hfree', rfl⟩ := Disk.rename_ok hwritten hrename
    have hdir' := (hdir.put hfree (.file (content records))).rename hnodir hfree'
      (.file (content records))
    exact Disk.read_eq_ok hdir'.locate (Disk.find?_put_self (Disk.ne_root hfree'))

/-- Loading brings back what was saved. -/
theorem load_of_save {d d' : Disk} {path : DiskPath} {fault : Option SaveFault}
    (hdistinct : records.Distinct) (hstamps : Stamped records)
    (h : save d path records fault = (none, d')) : load d' path = .ok records :=
  load_eq_ok (read_of_save h) hdistinct hstamps

end FileCache

end Rendezvous
