import Iconsmith.Files.Location

/-!
# Views of files

A run only reads the files that are there when it begins. What it can find out about them is a
`FileView`: which locations are directories, what they hold, and the bytes of files. To work, it also
needs a directory of its own for scratch files.
-/

namespace Iconsmith

/-- Why a file or directory cannot be used. -/
inductive FileFault where
  | notFound
  | isDirectory
  | notDirectory
  | alreadyExists
  /-- The content is not text. -/
  | invalidData
  | other (text : String)
  deriving DecidableEq, Repr

/-- What a run finds out about files before it writes any. -/
structure FileView where
  isDirectory : String → Bool
  /-- The names inside a directory, in any order. -/
  entries : String → Except FileFault (List String)
  bytes : String → Except FileFault ByteArray
  /-- What went wrong with the entries that are left out while a directory is listed. -/
  lost : String → List FileFault := fun _ => []
  /-- Whether there is a scratch directory, or else where it should be and what is wrong. -/
  scratch : Except (String × FileFault) Unit := .ok ()

/-- The text in a file. -/
def FileView.text (v : FileView) (location : String) : Except FileFault String := do
  match String.fromUTF8? (← v.bytes location) with
  | some text => .ok text
  | none => .error .invalidData

/-- Everything that goes wrong while a directory is listed. -/
def FileView.faults (v : FileView) (dir : String) : List FileFault :=
  match v.entries dir with
  | .error fault => [fault]
  | .ok _ => v.lost dir

theorem FileView.faults_of_entries {v : FileView} {dir : String} {names : List String}
    (h : v.entries dir = .ok names) : v.faults dir = v.lost dir := by
  rw [faults, h]

end Iconsmith
