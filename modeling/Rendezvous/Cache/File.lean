import Rendezvous.Cache.Disk
import Rendezvous.Failure
import Rendezvous.Json.Reader
import Rendezvous.Json.Record
import Rendezvous.Json.Writer
import Rendezvous.Table
import Rendezvous.Text.Blank
import Rendezvous.Text.Pieces
import Rendezvous.Text.Quoted

/-!
# The cache in a file

Timed records that survive the controller: a JSON object with a record for each key. All of them are
held in memory and rewritten by every change, first into a file beside the cache's own, which then
takes its name, so that the cache's file is never half written. Records whose time is over are
dropped on the way.

A change that cannot be saved is reported, but stays in memory. Times are milliseconds in 64 bits.
-/

namespace Rendezvous

/-- A record in a file. -/
structure FileRecord where
  /-- The value. -/
  value : String
  /-- The first millisecond at which the record is gone. -/
  expiresAtMs : Nat
deriving DecidableEq, Repr, Inhabited

/-- The greatest number in 64 bits. -/
def maxStamp : Nat := 0xFFFFFFFFFFFFFFFF

namespace FileRecord

/-- Whether a record is there and holds a value. -/
def isLive (now : Nat) (r : FileRecord) : Bool :=
  now < r.expiresAtMs && !r.value.isEmpty

/-- Read a record. -/
def ofJson? (j : Json) : Option FileRecord :=
  match j.fields? ["value", "expiresAtMs"] with
  | some [some value, some stamp] => do
    return ⟨← value.string?, (← stamp.intIn? 0 maxStamp).toNat⟩
  | _ => none

/-- Write a record. -/
def toJson (r : FileRecord) : Json :=
  .ofMembers [("value", .ofString r.value), ("expiresAtMs", .ofNat r.expiresAtMs)]

/-- The stamp of a record that is stored now for a lifetime. The milliseconds of the lifetime are
cut to 64 bits; the stamp stays at the greatest one. -/
def stamp (now : Nat) (lifetime : Duration) : Nat :=
  min (now + lifetime.millis % (maxStamp + 1)) maxStamp

end FileRecord

/-- A cache and the file in which it is saved. -/
structure FileCache where
  /-- The file. -/
  path : DiskPath
  /-- The records. -/
  records : Table FileRecord := {}
deriving DecidableEq, Repr, Inhabited

/-- A step of saving that fails though nothing stands in its way. -/
inductive SaveFault where
  /-- The directory cannot be made. -/
  | directory
  /-- The file beside the cache's own cannot be written; some of it may be. -/
  | temporary (written : Option ByteArray)
  /-- The file beside the cache's own cannot take its name. -/
  | rename

namespace FileCache

/-! ## Content -/

/-- Read the records of a file. A later record of a key takes the place of an earlier one. -/
def recordsOfJson? : Json → Option (Table FileRecord)
  | .object members =>
    (members.mapM fun (m : Option String × Json) =>
      match m.1, FileRecord.ofJson? m.2 with
      | some key, some r => some (key, r)
      | _, _ => none).map Table.ofList
  | _ => none

/-- Write the records of a file. -/
def recordsToJson (records : Table FileRecord) : Json :=
  .ofMembers (records.entries.map fun e => (e.1, e.2.toJson))

/-- The content of a file. -/
def content (records : Table FileRecord) : ByteArray :=
  ((recordsToJson records).writeLines 0).toUTF8

/-! ## Loading -/

/-- A failure together with the file it is about. -/
def describe (path : DiskPath) (reason : String) : String :=
  Text.quoted ("/".intercalate path) ++ ": " ++ reason

/-- Load the records of a file. A file that is missing or blank has none. -/
def load (d : Disk) (path : DiskPath) : Except CacheError (Table FileRecord) :=
  match d.read path with
  | .error .notFound => .ok {}
  | .error e => .error (.unavailable (describe path e.text))
  | .ok bytes =>
    match String.fromUTF8? bytes with
    | none => .error (.unavailable (describe path "stream did not contain valid UTF-8"))
    | some text =>
      if Text.isBlankText text then .ok {}
      else
        match (Json.read? text).bind recordsOfJson? with
        | some records => .ok records
        | none => .error (.io (describe path "invalid content"))

/-- Open the cache in a file. -/
def open? (d : Disk) (path : DiskPath) : Except CacheError FileCache :=
  (load d path).map fun records => { path, records }

/-! ## Saving -/

/-- The name of a file without its last extension. A leading point begins no extension. -/
def stem (name : String) : String :=
  match Text.splitLast? ['.'] name.toList with
  | some ([], _) => name
  | some (before, _) => String.ofList before
  | none => name

/-- The file beside the cache's own that is written first. Where there is no file name to change, it is
the cache's own path. -/
def temporary (path : DiskPath) : DiskPath :=
  match path.fileName? with
  | some name => path.dropLast ++ [stem name ++ ".json.tmp"]
  | none => path

/-- Save records in a file. The disk is returned as it is after the step that failed, or after all
of them. -/
def save (d : Disk) (path : DiskPath) (records : Table FileRecord) (fault : Option SaveFault) :
    Option DiskError × Disk :=
  match fault with
  | some .directory => (some .failed, d)
  | _ =>
    match d.makeDirectories (Disk.parent path) with
    | .error e => (some e, d)
    | .ok d =>
      match fault with
      | some (.temporary none) => (some .failed, d)
      | some (.temporary (some bytes)) =>
        match d.write (temporary path) bytes with
        | .error e => (some e, d)
        | .ok d => (some .failed, d)
      | _ =>
        match d.write (temporary path) (content records) with
        | .error e => (some e, d)
        | .ok d =>
          match fault with
          | some .rename => (some .failed, d)
          | _ =>
            match d.rename (temporary path) path with
            | .error e => (some e, d)
            | .ok d => (none, d)

/-! ## Records -/

/-- The value that is known for a key. -/
def get? (c : FileCache) (now : Nat) (key : String) : Option String :=
  match c.records.get? key with
  | some r => if r.isLive now then some r.value else none
  | none => none

/-- Everything that is known. -/
def toList (c : FileCache) (now : Nat) : List (String × String) :=
  (c.records.entries.filter fun e => e.2.isLive now).map fun e => (e.1, e.2.value)

/-- The cache with a value for a key and without the records whose time is over. -/
def put (c : FileCache) (now : Nat) (key value : String) (lifetime : Duration) : FileCache :=
  { c with
    records := (c.records.filter fun _ r => now < r.expiresAtMs).put key
      ⟨value, FileRecord.stamp now lifetime⟩ }

/-- Store a value for a lifetime and save all records. -/
def set (c : FileCache) (d : Disk) (now : Nat) (key value : String) (lifetime : Duration)
    (fault : Option SaveFault := none) : Except CacheError Unit × FileCache × Disk :=
  let c := c.put now key value lifetime
  match save d c.path c.records fault with
  | (none, d) => (.ok (), c, d)
  | (some e, d) => (.error (.io (describe c.path e.text)), c, d)

end FileCache

end Rendezvous
