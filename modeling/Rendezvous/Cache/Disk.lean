/-!
# Disks

Files and directories below one root, as far as saving and loading a file needs them: reading a
file, making directories, writing a file, and giving a file another name. Each of these can be in
the way of another one, for instance when a directory has the name of a file.

A path is followed name by name, and `..` leads back to the directory above. There are no links from
one place to another.
-/

namespace Rendezvous

/-- A path from the root on. -/
abbrev DiskPath := List String

namespace DiskPath

/-- Where a name leads to from a place: into a directory, or back to the one above. -/
def enter (place : DiskPath) (name : String) : DiskPath :=
  if name = ".." then place.dropLast else place ++ [name]

/-- The place to which a path leads if all directories on it are there. -/
def place (path : DiskPath) : DiskPath := path.foldl enter []

/-- The name of the file to which a path leads. A path to the root and one that ends on the way back
have none. -/
def fileName? (path : DiskPath) : Option String :=
  match path.getLast? with
  | some name => if name = ".." then none else some name
  | none => none

end DiskPath

/-- What is at a place. -/
inductive DiskNode where
  /-- A file with its content. -/
  | file (content : ByteArray)
  /-- A directory. -/
  | directory

/-- Files and directories. The root is a directory and is not listed. -/
structure Disk where
  /-- What is at each place. -/
  nodes : List (DiskPath × DiskNode) := []
deriving Inhabited

/-- Why something could not be done on a disk. -/
inductive DiskError where
  /-- There is nothing of that name. -/
  | notFound
  /-- A file stands where a directory is needed. -/
  | notADirectory
  /-- A directory stands where a file is needed. -/
  | isADirectory
  /-- There is no more room, or the disk failed. -/
  | failed
deriving DecidableEq, Repr

namespace DiskError

/-- A short description. -/
def text : DiskError → String
  | .notFound => "no such file or directory"
  | .notADirectory => "not a directory"
  | .isADirectory => "is a directory"
  | .failed => "input/output error"

end DiskError

namespace Disk

/-- What is at a place. -/
def find? (d : Disk) (place : DiskPath) : Option DiskNode :=
  if place.isEmpty then some .directory
  else (d.nodes.find? (·.1 == place)).map (·.2)

/-- Put something at a place. -/
def put (d : Disk) (place : DiskPath) (node : DiskNode) : Disk :=
  ⟨d.nodes.filter (·.1 != place) ++ [(place, node)]⟩

/-- Remove what is at a place. -/
def erase (d : Disk) (place : DiskPath) : Disk :=
  ⟨d.nodes.filter (·.1 != place)⟩

/-- The directory of a path. -/
def parent (path : DiskPath) : DiskPath := path.dropLast

/-- All paths from the root down to a path, without the root. -/
def ancestry (path : DiskPath) : List DiskPath :=
  (List.range path.length).map fun i => path.take (i + 1)

/-- Follow names from a place. Nothing leads through a file, and nothing leads back from a directory
that is not there. -/
def follow (d : Disk) (place : DiskPath) : List String → Except DiskError DiskPath
  | [] => .ok place
  | name :: names =>
    match d.find? place with
    | some .directory => d.follow (place.enter name) names
    | some (.file _) => .error .notADirectory
    | none => if name = ".." then .error .notFound else d.follow (place.enter name) names

/-- The place to which a path leads. -/
def locate (d : Disk) (path : DiskPath) : Except DiskError DiskPath := d.follow [] path

/-- Read a file. -/
def read (d : Disk) (path : DiskPath) : Except DiskError ByteArray :=
  match d.locate path with
  | .error e => .error e
  | .ok place =>
    match d.find? place with
    | some (.file content) => .ok content
    | some .directory => .error .isADirectory
    | none => .error .notFound

/-- Make one directory, unless it exists. -/
def makeDirectory (d : Disk) (path : DiskPath) : Except DiskError Disk :=
  match d.locate path with
  | .error e => .error e
  | .ok place =>
    match d.find? place with
    | some .directory => .ok d
    | some (.file _) => .error .notADirectory
    | none => .ok (d.put place .directory)

/-- Make a directory and all directories above it. -/
def makeDirectories (d : Disk) (path : DiskPath) : Except DiskError Disk :=
  (ancestry path).foldlM makeDirectory d

/-- Write a file into a directory. -/
def write (d : Disk) (path : DiskPath) (content : ByteArray) : Except DiskError Disk :=
  match d.locate path with
  | .error e => .error e
  | .ok place =>
    match d.find? (parent place) with
    | none => .error .notFound
    | some (.file _) => .error .notADirectory
    | some .directory =>
      match d.find? place with
      | some .directory => .error .isADirectory
      | _ => .ok (d.put place (.file content))

/-- Give a file another name, in the place of any other file of that name. -/
def rename (d : Disk) (path target : DiskPath) : Except DiskError Disk :=
  match d.locate path, d.locate target with
  | .ok source, .ok place =>
    match d.find? source with
    | some (.file content) =>
      match d.find? place with
      | some .directory => .error .isADirectory
      | _ => .ok ((d.erase source).put place (.file content))
    | _ => .error .notFound
  | .error e, _ => .error e
  | _, .error e => .error e

/-- The names in a directory. -/
def names (d : Disk) (path : DiskPath) : List String :=
  d.nodes.filterMap fun n =>
    if n.1.length = path.length + 1 ∧ n.1.take path.length = path then n.1.getLast? else none

end Disk

end Rendezvous
