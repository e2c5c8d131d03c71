import ProjectClient.Files.Basic
import ProjectClient.Text.Split

/-! A disk in memory. Directories are found by walking a path name by name: an empty name and `.`
stay where they are and `..` goes up, but each of them needs a directory to stand in. -/
namespace ProjectClient

inductive DiskEntry where
  | file (bytes : List UInt8)
  | directory
deriving DecidableEq

/-- What is at each place. A place is given by the names on the way to it from the top, which is a
directory and not listed. -/
structure Disk where
  entries : List (List String × DiskEntry) := []
deriving DecidableEq

namespace Disk

def entry? (disk : Disk) (place : List String) : Option DiskEntry :=
  if place = [] then some .directory else disk.entries.lookup place

def erase (disk : Disk) (place : List String) : Disk :=
  { entries := disk.entries.filter (·.1 ≠ place) }

def insert (disk : Disk) (place : List String) (entry : DiskEntry) : Disk :=
  { entries := (place, entry) :: (disk.erase place).entries }

/-- Walks from a place. There need not be anything at the place where the walk ends. -/
def walk (disk : Disk) (place : List String) : List String → Except FileError (List String)
  | [] => .ok place
  | name :: rest =>
    match disk.entry? place with
    | some .directory =>
      if name = "" ∨ name = "." then disk.walk place rest
      else if name = ".." then disk.walk place.dropLast rest
      else disk.walk (place ++ [name]) rest
    | some (.file _) => .error .notADirectory
    | none => .error .notFound

def locate (disk : Disk) (path : String) : Except FileError (List String) :=
  disk.walk [] (Text.pieces '/' path)

def find? (disk : Disk) (path : String) : Option DiskEntry :=
  match disk.locate path with
  | .ok place => disk.entry? place
  | .error _ => none

def read (disk : Disk) (path : String) : Except FileError (List UInt8) := do
  match disk.entry? (← disk.locate path) with
  | some (.file bytes) => return bytes
  | some .directory => throw .isADirectory
  | none => throw .notFound

def create (disk : Disk) (path : String) : Except FileError Disk := do
  let place ← disk.locate path
  if disk.entry? place = some .directory then throw .isADirectory
  else return disk.insert place (.file [])

def write (disk : Disk) (path : String) (bytes : List UInt8) : Except FileError Disk := do
  let place ← disk.locate path
  match disk.entry? place with
  | some (.file _) => return disk.insert place (.file bytes)
  | some .directory => throw .isADirectory
  | none => throw .notFound

def remove (disk : Disk) (path : String) : Except FileError Disk := do
  let place ← disk.locate path
  match disk.entry? place with
  | some (.file _) => return disk.erase place
  | some .directory => throw .isADirectory
  | none => throw .notFound

/-- Only files are renamed, and a directory never gives way to one. -/
def rename (disk : Disk) (source target : String) : Except FileError Disk := do
  let bytes ← disk.read source
  let here ← disk.locate source
  let there ← disk.locate target
  if disk.entry? there = some .directory then throw .isADirectory
  else return (disk.erase here).insert there (.file bytes)

def IsDirectory (disk : Disk) (path : List String) : Prop :=
  (disk.walk [] path).toOption.bind disk.entry? = some .directory

instance (disk : Disk) (path : List String) : Decidable (disk.IsDirectory path) :=
  inferInstanceAs (Decidable (_ = _))

/-- Makes one directory in a directory that is there. Slashes at the end do not count. -/
def makeOne (disk : Disk) (path : List String) : Except FileError Disk := do
  let place ← disk.walk [] (path.reverse.dropWhile (· = "")).reverse
  if (disk.entry? place).isSome then throw .alreadyExists
  else return disk.insert place .directory

/-- The answer about a directory that is wanted: an error does not matter if there is one. -/
def wanted (disk : Disk) (path : List String) : Except FileError Disk → Except FileError Unit × Disk
  | .ok disk => (.ok (), disk)
  | .error e => (if disk.IsDirectory path then .ok () else .error e, disk)

/-- Makes a directory, and before it those above if they are missing: the names on the way to it
are given from the last to the first. -/
def makeAll (disk : Disk) (path : List String) : List String → Except FileError Unit × Disk
  | [] => disk.wanted path (disk.makeOne path)
  | _ :: above =>
    match disk.makeOne path with
    | .error .notFound =>
      match disk.makeAll above.reverse above with
      | (.ok (), disk) => disk.wanted path (disk.makeOne path)
      | failed => failed
    | made => disk.wanted path made

def makeDirectory (disk : Disk) (path : String) : Except FileError Unit × Disk :=
  let names := Text.pieces '/' path
  disk.makeAll names (names.filter fun name => name ≠ "" ∧ name ≠ ".").reverse

def list (disk : Disk) (path : String) : Except FileError (List String) := do
  let place ← disk.locate path
  match disk.entry? place with
  | some .directory =>
    return (disk.entries.filter fun (other, _) => other ≠ [] ∧ other.dropLast = place).filterMap
      (·.1.getLast?)
  | some (.file _) => throw .notADirectory
  | none => throw .notFound

def change (f : Disk → Except FileError Disk) : StateM Disk (Except FileError Unit) := fun disk =>
  match f disk with
  | .ok disk => (.ok (), disk)
  | .error e => (.error e, disk)

def files : FileSystem (StateM Disk) where
  isPresent path := fun disk => ((disk.find? path).isSome, disk)
  makeDirectory path := fun disk => disk.makeDirectory path
  read path := fun disk => (disk.read path, disk)
  create path := change (·.create path)
  write path bytes := change (·.write path bytes)
  sync _ := pure (.ok ())
  rename source target := change (·.rename source target)
  remove path := change (·.remove path)

end Disk

end ProjectClient
