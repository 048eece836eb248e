import Iconsmith.Batch.Run
import Iconsmith.CommandLine.Arguments
import Iconsmith.Svg.Linked

/-!
# Running a command line

A run writes its files, or prints them one after the other. What was logged is shown beside that. A
run in which files fail has still run; only a failure of the run itself is told by the exit status.
-/

namespace Iconsmith.CommandLine

/-- What there is to see of a command line that was run. -/
structure Outcome where
  /-- The exit status. -/
  status : Nat
  /-- The text that was printed. -/
  printed : String
  /-- The lines that were printed beside it. -/
  notices : List String
  deriving DecidableEq, Repr

/-! ### The program -/

/-- The name and the version of the program. -/
def versionText : String := "vecgen 0.1.0\n"

/-- How the program is used. -/
def usage : String := "Usage: vecgen [OPTIONS] <INPUT>..."

/-- What a switch does. -/
def Switch.explanation : Switch → String
  | accessor => "Name of the root group"
  | package => "Base package of generated Compose sources"
  | backend => "[possible values: compose, swiftui]"
  | inputFormat => "Input file type [possible values: svg, xml]"
  | noPreview => "Do not generate preview scaffolding"
  | config => "JSON options file; flags override its values"
  | colors => "Android color resources used to resolve \x60@color/\x60 references"
  | output => "Write generated files here instead of printing them"
  | verbose => "Log per-file progress"
  | quiet => "Only log errors"
  | help => "Print help"
  | version => "Print version"

/-- How a switch is written. -/
def Switch.form (s : Switch) : String :=
  let letter := match s.letter? with
    | some c => String.ofList ['-', c, ',', ' ']
    | none => "    "
  let value := match s.valueName? with
    | some name => " <" ++ name ++ ">"
    | none => ""
  letter ++ "--" ++ s.long ++ value

/-- The line that explains a switch. -/
def Switch.helpLine (s : Switch) : String :=
  let width := ((Switch.all.map (·.form.length)).max?).getD 0
  let gap := String.ofList (List.replicate (width - s.form.length) ' ')
  "  " ++ s.form ++ gap ++ "  " ++ s.explanation

/-- The explanation of the program. -/
def helpText : String :=
  String.join ((["Generate Compose and SwiftUI source code from SVG and vector drawable files", "",
    usage, "", "Arguments:", "  <INPUT>...  A directory to walk, or one or more files", "",
    "Options:"] ++ Switch.all.map Switch.helpLine).map (· ++ "\n"))

/-! ### Runs -/

/-- The printed form of an icon. -/
def artifactText (a : Batch.Artifact) : String :=
  "// ===== " ++ a.group ++ "." ++ a.name ++ " (" ++ a.source.location ++ ") =====\n"
    ++ a.source.text

/-- The printed form of all icons, with an empty line between them. -/
def artifactsText (artifacts : List Batch.Artifact) : String :=
  "\n".intercalate (artifacts.map artifactText)

/-- A record of the program itself. -/
def record (level : Log.Level) (text : String) : Log.Record :=
  ⟨level, .program, text⟩

/-- The record that files failed, if any did. -/
def summary (r : Batch.Report) : List Log.Record :=
  let failed := r.failures.length
  if failed = 0 then []
  else [record .warning s!"{failed} of {failed + r.artifacts.length} files failed"]

namespace Arguments

/-- What a run reads: a directory if that is the only input, and otherwise a list of files. -/
def input (a : Arguments) (files : FileView) : Batch.Input :=
  match a.inputs with
  | [location] => if files.isDirectory location then .directory location else .files [location]
  | locations => .files locations

/-- What there is to see of records at the level of some arguments. -/
def outcome (a : Arguments) (status : Nat) (printed : String) (records : List Log.Record) :
    Outcome :=
  ⟨status, printed, (Log.upTo a.level records).map Log.Record.line⟩

/-- What there is to see of a run that could not begin. -/
def failed (a : Arguments) (e : Failure) : Outcome :=
  a.outcome 1 "" [record .error e.message]

/-- What there is to see of a run, by its log and its report. -/
def finished (a : Arguments) (log : List Log.Record) (r : Batch.Report) : Outcome :=
  match a.output with
  | none => a.outcome 0 (artifactsText r.artifacts) (log ++ summary r)
  | some _ =>
    a.outcome 0 "" (log ++ r.written.map (fun location => record .info ("wrote " ++ location))
      ++ summary r)

/-- Runs what some arguments ask for, with a way to make drawables of SVG files. -/
def run {m : Type → Type} [Monad m] (write : String → String → m (Except Failure Unit))
    (normalize : FileView → String → Batch.Normalized) (files : FileView) (a : Arguments) :
    m Outcome := do
  match a.options files with
  | .error e => return a.failed e
  | .ok options =>
    match ← Batch.run write normalize files options a.output (a.input files) with
    | (_, .error e) => return a.failed e
    | (log, .ok report) => return a.finished log report

end Arguments

/-- What there is to see of a command line that asks for nothing that can be done. -/
def misused : Outcome :=
  ⟨2, "", ["error: the arguments were not understood", "", usage, "",
    "For more information, try '--help'."]⟩

/-- Runs a command line, with a way to make drawables of SVG files. -/
def runWith {m : Type → Type} [Monad m] (write : String → String → m (Except Failure Unit))
    (normalize : FileView → String → Batch.Normalized) (files : FileView) (words : List String) :
    m Outcome :=
  match Request.ofWords? words with
  | none => return misused
  | some .help => return ⟨0, helpText, []⟩
  | some .version => return ⟨0, versionText, []⟩
  | some (.run a) => a.run write normalize files

/-- Runs a command line as the program does. -/
def run {m : Type → Type} [Monad m] (write : String → String → m (Except Failure Unit)) :
    FileView → List String → m Outcome :=
  runWith write Svg.normalize

end Iconsmith.CommandLine
