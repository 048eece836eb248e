import Iconsmith.Files.View

/-!
# Snapshots

A `Snapshot` keeps what was found at some locations, so that it can be read again as a `FileView`.
Nothing was found at any other location.
-/

namespace Iconsmith

/-- What was found at some locations. -/
structure Snapshot where
  /-- The directories, with the names inside them. -/
  directories : List (String × Except FileFault (List String)) := []
  files : List (String × Except FileFault ByteArray) := []

namespace Snapshot

/-- Adds what was found in a directory. -/
def addDirectory (s : Snapshot) (location : String) (names : Except FileFault (List String)) :
    Snapshot :=
  { s with directories := (location, names) :: s.directories }

/-- Adds what was found in a file. -/
def addFile (s : Snapshot) (location : String) (bytes : Except FileFault ByteArray) : Snapshot :=
  { s with files := (location, bytes) :: s.files }

/-- What can be read of a snapshot. -/
def view (s : Snapshot) : FileView where
  isDirectory location := (s.directories.lookup location).isSome
  entries location := (s.directories.lookup location).getD (.error .notFound)
  bytes location := (s.files.lookup location).getD
    (.error (if (s.directories.lookup location).isSome then .isDirectory else .notFound))

/-- The texts in the files that were found. -/
def texts (s : Snapshot) : List String :=
  s.files.filterMap fun (location, _) => (s.view.text location).toOption

end Snapshot

end Iconsmith
