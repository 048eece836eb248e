import Iconsmith.Batch.Failure
import Iconsmith.Files.Disk

/-!
# Storing files in memory

How the output of a run is written to a `Disk`: the directories that lead to a file are made first,
and either step can fail.
-/

namespace Iconsmith.Disk

/-- A fault of a location as a failure. -/
def failing (location : String) : Except FileFault Unit → Except Failure Unit
  | .ok () => .ok ()
  | .error fault => .error (.filesystem location fault)

/-- Writes a file and makes the directories that lead to it. -/
def save (location text : String) : StateM Disk (Except Failure Unit) := fun d =>
  let directory := Location.parent location
  match d.makeDirectories directory with
  | (d, .error fault) => (failing directory (.error fault), d)
  | (d, .ok ()) =>
    let (d, result) := d.write location text
    (failing location result, d)

end Iconsmith.Disk
