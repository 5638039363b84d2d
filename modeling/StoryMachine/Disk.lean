import StoryMachine.Effect

/-!
# Files and directories

A disk is a list of places with what stands there. A path is followed name by
name: every name but the last has to be a directory, a point stands for the
directory itself and two points for the one above it. Names and paths have a
greatest length. Above the working directory nothing is known but directories.
-/

namespace StoryMachine

/-- What stands at a place. -/
inductive DiskEntry where
  | file (data : List UInt8)
  | directory
deriving DecidableEq, Repr

/-- Where a path leads: from the root or from the working directory, name by name. Two points stand
only in front, for the directories above the working directory. -/
structure Location where
  fromRoot : Bool
  names : List String
deriving DecidableEq, Repr

namespace Location

/-- The working directory, or the root. -/
def start (fromRoot : Bool) : Location :=
  { fromRoot, names := [] }

/-- The one way to write a location. -/
def path (location : Location) : String :=
  (if location.fromRoot then "/" else "") ++ "/".intercalate location.names

/-- The directory above; the root has none and stays. -/
def parent (location : Location) : Location :=
  if location.names.all (· == "..") && !location.fromRoot then
    { location with names := location.names ++ [".."] }
  else { location with names := location.names.dropLast }

/-- A name in the directory at a location. -/
def child (location : Location) (name : String) : Location :=
  { location with names := location.names ++ [name] }

/-- Goes on from a location by one name. -/
def go (location : Location) (name : String) : Location :=
  if name = "." then location
  else if name = ".." then location.parent
  else location.child name

/-- Whether a location is a directory whatever is on the disk. -/
def isOutside (location : Location) : Bool :=
  location.names.all (· == "..")

end Location

/-- The files and directories that there are, by their paths. -/
structure Disk where
  entries : List (String × DiskEntry) := []
deriving DecidableEq, Repr, Inhabited

namespace Disk

/-- The most bytes that a name may have. -/
def nameLimit : Nat := 255

/-- The number of bytes from which on a path is too long. -/
def pathLimit : Nat := 4096

/-- The names on a path. -/
def names (path : String) : List String :=
  (path.splitOn "/").filter (· != "")

/-- Where a path leads if every name in front of the last is a directory. -/
def locationOf (path : String) : Location :=
  (names path).foldl Location.go (.start (path.startsWith "/"))

/-- What stands at a location, if anything. -/
def entryAt? (disk : Disk) (location : Location) : Option DiskEntry :=
  if location.isOutside then some .directory
  else (disk.entries.find? (·.1 == location.path)).map Prod.snd

/-- Follows names from a directory. The errors are about the whole path. -/
def follow (disk : Disk) (path : String) (location : Location) :
    List String → Except SystemError (Location × Option DiskEntry)
  | [] => .ok (location, disk.entryAt? location)
  | name :: rest =>
      if nameLimit < name.utf8ByteSize then .error (.nameTooLong path)
      else
        let next := location.go name
        match disk.entryAt? next, rest with
        | entry, [] => .ok (next, entry)
        | some .directory, rest => disk.follow path next rest
        | some (.file _), _ :: _ => .error (.notDirectory path)
        | none, _ :: _ => .error (.noSuchFile path)

/-- Where a path leads, and what stands there. -/
def locate (disk : Disk) (path : String) : Except SystemError (Location × Option DiskEntry) :=
  if path = "" then .error (.noSuchFile path)
  else if pathLimit ≤ path.utf8ByteSize then .error (.nameTooLong path)
  else
    match disk.follow path (.start (path.startsWith "/")) (names path) with
    | .ok (location, some (.file data)) =>
        if path.endsWith "/" then .error (.notDirectory path)
        else .ok (location, some (.file data))
    | found => found

/-- What stands at a path, if anything. No path has a zero character in it. -/
def find? (disk : Disk) (path : String) : Option DiskEntry :=
  if path.contains (Char.ofNat 0) then none
  else
    match disk.locate path with
    | .ok (_, entry) => entry
    | .error _ => none

/-- Whether a path is a directory. -/
def isDirectory (disk : Disk) (path : String) : Bool :=
  disk.find? path = some .directory

/-- Refuses a path with a zero character in it. -/
def checkPath (path : String) : Result Unit :=
  if path.contains (Char.ofNat 0) then .refuse .valueOutOfRange else .ok ()

/-- The contents of a file. -/
def read (disk : Disk) (path : String) : Result (List UInt8) := do
  checkPath path
  match disk.locate path with
  | .ok (_, some (.file data)) => .ok data
  | .ok (_, some .directory) => .refuse (.system (.isDirectory path))
  | .ok (_, none) => .refuse (.system (.noSuchFile path))
  | .error error => .refuse (.system error)

/-- Where a file at a path would be written. A path that ends in a slash is no file. -/
def target (disk : Disk) (path : String) : Result Location := do
  checkPath path
  match disk.locate path with
  | .ok (location, some (.file _)) => .ok location
  | .ok (_, some .directory) => .refuse (.system (.isDirectory path))
  | .ok (location, none) =>
      if path.endsWith "/" then .refuse (.system (.isDirectory path)) else .ok location
  | .error error => .refuse (.system error)

/-- Why a file could not be written at a path. -/
def refusal? (disk : Disk) (path : String) : Option Breach :=
  match disk.target path with
  | .error (.breach breach) => some breach
  | _ => none

/-- Replaces the contents of the file at a location. -/
def putAt (disk : Disk) (location : Location) (data : List UInt8) : Disk :=
  { entries := disk.entries.filter (·.1 != location.path) ++ [(location.path, .file data)] }

/-- Writes a file. -/
def write (disk : Disk) (path : String) (data : List UInt8) : Result Disk := do
  return disk.putAt (← disk.target path) data

/-- Adds bytes to the end of a file; a file that cannot be written stays as it is. -/
def append (disk : Disk) (path : String) (data : List UInt8) : Disk :=
  match disk.target path with
  | .error _ => disk
  | .ok location =>
      match disk.entryAt? location with
      | some (.file old) => disk.putAt location (old ++ data)
      | _ => disk.putAt location data

end Disk

end StoryMachine
