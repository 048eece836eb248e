import Iconsmith.Files.View

/-!
# Files in memory

A `Disk` holds directories and files below a working directory. It can be read as a `FileView`, and
new files can be written to it.
-/

namespace Iconsmith

/-- Bytes are compared as the core library compares them, also where there is another way. -/
local instance (priority := high) bytesDecidableEq : DecidableEq ByteArray :=
  ByteArray.instDecidableEq

/-- What is at a place of a disk. -/
inductive DiskEntry where
  | directory
  | file (bytes : ByteArray)
  deriving DecidableEq

/-- The directories and files below the working directory, by the names that lead to them. -/
structure Disk where
  entries : List (List String × DiskEntry)

namespace Disk

/-- A disk without files. -/
def empty : Disk := ⟨[]⟩

/-- What is at a place. The working directory is always there. -/
def lookup? (d : Disk) (place : List String) : Option DiskEntry :=
  if place.isEmpty then some .directory else d.entries.lookup place

/-- Puts something at a place, instead of what is there. -/
def put (d : Disk) (place : List String) (e : DiskEntry) : Disk :=
  ⟨(place, e) :: d.entries.filter (·.1 != place)⟩

/-- Takes one step from a directory. -/
def step (d : Disk) (place : List String) (piece : String) : Except FileFault (List String) :=
  match d.lookup? place with
  | none => .error .notFound
  | some .directory =>
    if piece = "" || piece = "." then .ok place
    else if piece = ".." then .ok place.dropLast
    else .ok (place ++ [piece])
  | some _ => .error .notDirectory

/-- The place that a location leads to, at which there need not be anything. -/
def resolve (d : Disk) (location : String) : Except FileFault (List String) :=
  if location = "" || location.startsWith "/" then .error .notFound
  else (Location.pieces location).foldlM d.step []

/-- Whether there is a directory at a location. -/
def isDirectory (d : Disk) (location : String) : Bool :=
  match d.resolve location with
  | .ok place => d.lookup? place == some .directory
  | .error _ => false

/-- The names inside the directory at a place. -/
def namesIn (d : Disk) (place : List String) : List String :=
  d.entries.filterMap fun e => if e.1.dropLast = place then e.1.getLast? else none

/-- The names inside a directory. -/
def list (d : Disk) (location : String) : Except FileFault (List String) := do
  let place ← d.resolve location
  match d.lookup? place with
  | none => .error .notFound
  | some .directory => .ok (d.namesIn place)
  | some _ => .error .notDirectory

/-- The bytes of a file. -/
def read (d : Disk) (location : String) : Except FileFault ByteArray := do
  let place ← d.resolve location
  match d.lookup? place with
  | none => .error .notFound
  | some .directory => .error .isDirectory
  | some (.file bytes) => .ok bytes

/-- What can be read of a disk. -/
def view (d : Disk) : FileView where
  isDirectory := d.isDirectory
  entries := d.list
  bytes := d.read

/-! ### Writing -/

/-- Takes the steps of a location, where directories that are missing are made. Making a directory
in the place of a file fails, and so does a step from a file. -/
def makeSteps (d : Disk) (place : List String) : List String → Disk × Except FileFault Unit
  | [] => (d, .ok ())
  | piece :: pieces =>
    match d.step place piece with
    | .error e => (d, .error e)
    | .ok next =>
      match d.lookup? next with
      | none => makeSteps (d.put next .directory) next pieces
      | some .directory => makeSteps d next pieces
      | some _ => (d, .error (if pieces.isEmpty then .alreadyExists else .notDirectory))

/-- Makes the directory at a location, and those that lead to it. -/
def makeDirectories (d : Disk) (location : String) : Disk × Except FileFault Unit :=
  if location = "" then (d, .ok ())
  else if location.startsWith "/" then (d, .error .notFound)
  else d.makeSteps [] (Location.pieces location)

/-- Writes a file into a directory that is there. -/
def write (d : Disk) (location text : String) : Disk × Except FileFault Unit :=
  match d.resolve location with
  | .error e => (d, .error e)
  | .ok place =>
    match d.lookup? place with
    | some .directory => (d, .error .isDirectory)
    | _ => (d.put place (.file text.toUTF8), .ok ())

/-- The files below a directory, by the names that lead from there to them. -/
def filesBelow (d : Disk) (place : List String) : List (List String × DiskEntry) :=
  d.entries.filterMap fun e =>
    if place.isPrefixOf e.1 && e.2 != .directory then some (e.1.drop place.length, e.2) else none

end Disk

end Iconsmith
