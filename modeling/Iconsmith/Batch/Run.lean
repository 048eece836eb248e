import Iconsmith.Batch.Generate

/-!
# Runs

A run checks its options, reads the colors, generates the icons of its input, and writes them where
it is told to. `prepare` and `generate` only read files; `store` writes, through an action that it
is given, and no failure there changes what was generated.
-/

namespace Iconsmith.Batch

/-- What a run reads. -/
inductive Input where
  | directory (root : String)
  | files (locations : List String)
  deriving DecidableEq, Repr

/-- Everything that a run made. -/
structure Report where
  /-- The icons, in the order in which they were generated. -/
  artifacts : List Artifact
  /-- The failures; none of them ended the run. -/
  failures : List Failure
  root : Tree
  /-- The locations of the files that were written. -/
  written : List String

namespace Report

/-- The number of failures of a class. -/
def countOf (r : Report) (c : FailureClass) : Nat :=
  r.failures.countP (·.kind = c)

/-- The first icon with a given symbol. -/
def artifact? (r : Report) (name : String) : Option Artifact :=
  r.artifacts.find? (·.name = name)

end Report

/-! ### Preparation -/

/-- Accepts the inputs of which something can be read. -/
def checkInput (files : FileView) : Input → Except Failure Unit
  | .directory root =>
    if files.isDirectory root then .ok () else .error (.invalidInput root "not a directory")
  | .files _ => .ok ()

/-- Accepts the views with a directory for scratch files. -/
def checkScratch (files : FileView) : Except Failure Unit :=
  files.scratch.mapError fun (location, fault) => .filesystem location fault

/-- The colors of a run, and how many they are if they come from a file. -/
def loadColors (files : FileView) : Option String → Except Failure (Color.Table × List String)
  | none => .ok (.empty, [])
  | some location =>
    match files.text location with
    | .error fault => .error (.filesystem location fault)
    | .ok text =>
      match Color.Table.ofResources text with
      | .ok t => .ok (t, [s!"loaded {t.size} color resources"])
      | .error fault => .error (.configuration (s!"color resources {location}: " ++ fault.message))

/-- What a run works with, and the notices about it. -/
def prepare (options : Options) (files : FileView) (normalize : FileView → String → Normalized)
    (input : Input) : Except Failure (Workshop × List Log.Record) := do
  options.validate
  checkInput files input
  checkScratch files
  let (colors, notices) ← loadColors files options.colorResources
  return ({ options, files, colors, normalize }, notices.map (⟨.debug, .resources, ·⟩))

/-! ### Generation -/

namespace Workshop

variable (w : Workshop)

/-- What a run is about to do. -/
def startNotice : Input → String
  | .directory root => s!"generating {w.backend.name} sources from directory {root}"
  | .files locations => s!"generating {w.backend.name} sources from {locations.length} files"

/-- Generates the icons of an input, in a scratch directory that is empty at first. -/
def generate (input : Input) : Production Tree := do
  .note .info .batch (w.startNotice input)
  match input with
  | .directory root => (w.directory maxDepth root w.options.rootGroup).alone
  | .files locations => (w.fileList locations w.options.rootGroup).alone

/-- Generates the accessor of a group. -/
def accessor (t : Tree) : Production (List Source.File) :=
  match w.backend.accessor w.options.settings t.members with
  | .ok f => return [f]
  | .error e => do
    .fail (.emit (Location.ofNames t.group.directory) e.message)
    return []

/-- Generates the accessors of several groups. -/
def accessors : List Tree → Production (List Source.File)
  | [] => return []
  | t :: ts => do
    let first ← w.accessor t
    let rest ← accessors ts
    return first ++ rest

end Workshop

/-! ### Output -/

/-- Writes files below a directory, and gives the locations of those for which `write` succeeds. -/
def store {m : Type → Type} [Monad m] (write : String → String → m (Except Failure Unit))
    (out : String) : List Source.File → m (Production (List String))
  | [] => return pure []
  | f :: fs => do
    let target := Location.join out f.location
    let result ← write target f.text
    let rest ← store write out fs
    return do
      let done ← Production.accept result
      let others ← rest
      return (done.map fun _ => target).toList ++ others

/-- Writes the icons of a production and the accessors of its groups. -/
def output {m : Type → Type} [Monad m] (write : String → String → m (Except Failure Unit))
    (w : Workshop) (out : String) (p : Production Tree) : m (Production (List String)) := do
  let accessors := w.accessors p.value.walk
  let stored ← store write out (p.artifacts.map (·.source) ++ accessors.value)
  return do
    let _ ← accessors
    stored

/-- What a run has done. -/
def endNotice (artifacts : List Artifact) (failures : List Failure) : String :=
  s!"{artifacts.length} generated, {failures.length} failed"

/-- The report of a production, with the log. -/
def report (p : Production (Tree × List String)) : List Log.Record × Report :=
  (p.records ++ [⟨.info, .batch, endNotice p.artifacts p.failures⟩],
   { artifacts := p.artifacts, failures := p.failures, root := p.value.1, written := p.value.2 })

/-- A whole run: generates the icons of an input and writes them if there is a directory for
output. Gives the log and the report, or the failure that kept the run from beginning. -/
def run {m : Type → Type} [Monad m] (write : String → String → m (Except Failure Unit))
    (normalize : FileView → String → Normalized) (files : FileView) (options : Options)
    (out : Option String) (input : Input) : m (List Log.Record × Except Failure Report) := do
  match prepare options files normalize input with
  | .error e => return ([], .error e)
  | .ok (w, notices) =>
    let generated := w.generate input
    let written ←
      match out with
      | none => pure (pure [])
      | some dir => output write w dir generated
    let (log, r) := report do
      let tree ← generated
      let locations ← written
      return (tree, locations)
    return (notices ++ log, .ok r)

end Iconsmith.Batch
