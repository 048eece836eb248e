import Iconsmith.CommandLine.Run
import Iconsmith.Files.Snapshot

/-!
# The program

Looks at the files that a command line names, runs it, and writes what it gives. Files are only
written after all of them were read.
-/

namespace Iconsmith.Program

/-- What went wrong with a file, by the error of the system. -/
def faultOf : IO.Error → FileFault
  | .noFileOrDirectory .. => .notFound
  | .alreadyExists .. => .alreadyExists
  | .inappropriateType _ code _ =>
    if code = 20 then .notDirectory else .isDirectory
  | e => .other (toString e)

/-- The result of an action, or what went wrong. -/
def attempt {α : Type} (action : IO α) : IO (Except FileFault α) := do
  match ← action.toBaseIO with
  | .ok x => return .ok x
  | .error e => return .error (faultOf e)

/-- The names inside a directory, or nothing if there is no directory at the location. -/
def readNames? (location : String) : IO (Option (Except FileFault (List String))) := do
  let entry : IO.FS.DirEntry := ⟨".", location⟩
  if ← entry.path.isDir then
    return some (← attempt do return (← entry.path.readDir).toList.map (·.fileName))
  else return none

/-- Adds what is found at a location and down to a number of levels below it. -/
def look : Nat → Snapshot → String → IO Snapshot
  | 0, s, _ => return s
  | depth + 1, s, location => do
    match ← readNames? location with
    | none => return s.addFile location (← attempt (IO.FS.readBinFile location))
    | some names =>
      let inside := (names.toOption.getD []).map (Location.join location)
      inside.foldlM (look depth) (s.addDirectory location names)

/-- Looks at all files that a run may read. Documents may embed further files. -/
def lookAll (a : CommandLine.Arguments) : IO Snapshot := do
  let s ← a.config.toList.foldlM (look 1) {}
  match a.options s.view with
  | .error _ => return s
  | .ok options =>
    let s ← options.colorResources.toList.foldlM (look 1) s
    let s ← a.inputs.foldlM (look (Batch.Workshop.maxDepth + 2)) s
    if options.inputFormat = .svg then (s.texts.flatMap Svg.linkedFiles).foldlM (look 1) s
    else return s

/-- Looks at all files that a command line may read. -/
def lookFor (words : List String) : IO Snapshot :=
  match CommandLine.Request.ofWords? words with
  | some (.run a) => lookAll a
  | _ => return {}

/-- Writes a file and makes the directories that lead to it. -/
def save (location text : String) : IO (Except Failure Unit) := do
  let directory := Location.parent location
  let made ← if directory = "" then pure (.ok ()) else attempt (IO.FS.createDirAll directory)
  match made with
  | .error fault => return .error (.filesystem directory fault)
  | .ok () =>
    let written ← attempt (IO.FS.writeFile location text)
    return written.mapError (Failure.filesystem location)

end Iconsmith.Program

/-- Runs a command line. -/
def main (words : List String) : IO UInt32 := do
  let files ← Iconsmith.Program.lookFor words
  let outcome ← Iconsmith.CommandLine.run Iconsmith.Program.save files.view words
  IO.print outcome.printed
  outcome.notices.forM fun line => IO.eprintln line
  return UInt32.ofNat outcome.status
