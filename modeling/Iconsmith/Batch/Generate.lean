import Iconsmith.Batch.Production
import Iconsmith.Batch.Tree
import Iconsmith.Color.Resources
import Iconsmith.Drawable.Reader
import Iconsmith.Naming.Siblings
import Iconsmith.Options.Basic
import Iconsmith.Source.Emission

/-!
# Generating icons

Every file gives one icon or one failure. A failure is kept and the run goes on. The files of a
directory are the icons of one group, and the directories inside it are the groups below; the files
of a list are all icons of the root group. The drawables that files are made into are kept in the
scratch directory of the run, under names that do not tell the directories of the files.
-/

namespace Iconsmith.Batch

/-- What there is to say about a file that was made a drawable. -/
structure Normalized where
  notices : List Log.Record
  drawable : Except Failure String

/-- What a run works with. -/
structure Workshop where
  options : Options
  files : FileView
  colors : Color.Table
  /-- Makes a drawable of the file at a location. -/
  normalize : FileView → String → Normalized

namespace Workshop

variable (w : Workshop)

/-- The framework for which sources are generated. -/
def backend : Source.Backend := w.options.backend

/-! ### Files -/

/-- The name in the scratch directory for the drawable that a file is made into. Files in different
directories can share it. -/
def scratchName (file : String) : String :=
  (Location.stem? file).getD "drawable" ++ ".xml"

/-- Makes a drawable of a file, keeps it in the scratch directory, and gives its name there. -/
def normalized (file : String) : Work (Option String) := do
  let n := w.normalize w.files file
  Production.log n.notices
  let some text ← Production.accept n.drawable | return none
  let name := scratchName file
  let result ← Work.write name text
  Production.accept ((result.mapError (Failure.filesystem name)).map fun _ => name)

/-- The text of the drawable that a file holds or is made into. -/
def drawableText (file : String) : Work (Option String) :=
  match w.options.inputFormat with
  | .drawable => Production.accept ((w.files.text file).mapError (Failure.filesystem file))
  | .svg => do
    let some name ← w.normalized file | return none
    let result ← Work.text name
    Production.accept (result.mapError (Failure.filesystem name))

/-- The notice of a graphic that was read. -/
def readNotice (fileName : String) (g : Graphic Float) : String :=
  s!"{fileName}: {g.pathCount} paths in a " ++ Decimal.Style.plain.text g.viewport.x ++ "x"
    ++ Decimal.Style.plain.text g.viewport.y ++ " viewport"

/-- The graphic that the text of a file holds. -/
def parse (file fileName identifier text : String) : Production (Option (Graphic Float)) := do
  .note .debug .drawables s!"parsing {fileName} as {identifier}"
  let reading := Drawable.read w.colors text
  .notes .warning .drawables (reading.notices.map (·.message))
  let graphic ← .accept (reading.result.mapError (Failure.ofDrawable file))
  if let some g := graphic then .note .debug .drawables (readNotice fileName g)
  return graphic

/-- The graphic that a file holds. -/
def load (file fileName identifier : String) : Work (Option (Graphic Float)) := do
  let some text ← w.drawableText file | return none
  w.parse file fileName identifier text

/-- The notice that a name was given another form. -/
def renameNotices (requested given : String) : List String :=
  if given = requested then [] else [s!"renamed duplicate '{requested}' to '{given}'"]

/-- The notice of an icon that was generated. -/
def iconNotice (file symbol : String) : String :=
  file ++ " -> " ++ symbol

/-- Generates the source of a graphic, under a symbol of its own, and gives the symbol if that
succeeds. The symbol is taken in either case. -/
def emit (group : Group) (names : Naming.Allocator) (file identifier : String)
    (g : Graphic Float) : Production (Option String × Naming.Allocator) := do
  let (symbol, names) := names.allocate identifier
  .notes .debug .names (renameNotices identifier symbol)
  match w.backend.icon w.options.settings group symbol g with
  | .error e =>
    .fail (.emit file e.message)
    return (none, names)
  | .ok source =>
    .notes .debug .shapes (w.backend.iconNotices w.options.settings symbol g)
    .note .debug .batch (iconNotice file symbol)
    .artifact {
      name := symbol
      group := group.qualifiedName
      source := source
      preview := if w.options.inputFormat = .svg then some file else none }
    return (some symbol, names)

/-- Generates the icon of a file, and gives its symbol if that succeeds. -/
def icon (group : Group) (names : Naming.Allocator) (file : String) :
    Work (Option String × Naming.Allocator) := do
  if !w.options.inputFormat.accepts file then
    Production.fail (.inputFormat file ((Location.extension? file).getD ""))
    return (none, names)
  let fileName := (Location.fileName? file).getD ""
  let identifier := w.backend.identifier fileName
  match ← w.load file fileName identifier with
  | none => return (none, names)
  | some g => w.emit group names file identifier g

/-- Generates the icons of a list of files. -/
def icons (group : Group) (names : Naming.Allocator) :
    List String → Work (List (String × String) × Naming.Allocator)
  | [] => return ([], names)
  | file :: files => do
    let (symbol, names) ← w.icon group names file
    let (rest, names) ← icons group names files
    return ((symbol.map (file, ·)).toList ++ rest, names)

/-- The names that are taken in a group from the start: that of the group itself. -/
def ownNames (group : Group) : Naming.Allocator :=
  (Naming.Allocator.empty.allocate group.name).2

/-! ### Directories -/

/-- The number of levels below the root that are visited. -/
def maxDepth : Nat := 10

/-- Whether a file or directory takes part in a run. -/
def isVisible (name : String) : Bool :=
  !name.startsWith "."

/-- Ascending order of texts. -/
def sorted (names : List String) : List String :=
  names.mergeSort (fun a b => decide (a ≤ b))

/-- Generates the icons of the directories inside a directory. `visit` generates those of one
directory, for the group that it becomes. A directory without icons leaves no group behind. -/
def subdirectories (visit : String → Group → Work Tree) (group : Group)
    (siblings : Naming.Siblings) : List String → Work (List Tree)
  | [] => return []
  | dir :: dirs => do
    let identifier := w.backend.identifier ((Location.fileName? dir).getD "")
    let (tried, siblings) := siblings.nameChild identifier
    Production.notes .debug .names (tried.flatMap (renameNotices identifier))
    let tree ← visit dir (group.child (tried.getLast?.getD identifier))
    if tree.isEmpty then Production.note .debug .batch s!"no icons under {dir}"
    let rest ← subdirectories visit group siblings dirs
    return if tree.isEmpty then rest else tree :: rest

/-- The notice that a directory is not visited. -/
def depthNotice (dir : String) : String :=
  s!"skipping {dir}: deeper than {maxDepth} levels"

/-- Generates the icons of the files in a directory, and then those of the directories inside it
with `descend`. -/
def visitWith (descend : Group → Naming.Siblings → List String → Work (List Tree))
    (dir : String) (group : Group) : Work Tree := do
  Production.fails ((w.files.faults dir).map (.filesystem dir))
  match w.files.entries dir with
  | .error _ => return .node group [] []
  | .ok names =>
    let inside := (sorted (names.filter isVisible)).map (Location.join dir)
    let files := inside.filter (!w.files.isDirectory ·)
    let dirs := inside.filter (w.files.isDirectory ·)
    let (icons, names) ← w.icons group (ownNames group) files
    let children ← descend group ⟨names, []⟩ dirs
    return .node group icons children

/-- Generates the icons of a directory, down to a number of levels below it. -/
def directory : Nat → String → Group → Work Tree
  | 0 => w.visitWith fun _ _ dirs => do
    Production.notes .warning .batch (dirs.map depthNotice)
    return []
  | n + 1 => w.visitWith (w.subdirectories (directory n))

/-! ### Lists of files -/

/-- The locations of a list, without those that name the same parts as an earlier one. -/
def distinct : List String → List String
  | [] => []
  | a :: rest => a :: (distinct rest).filter (!Location.same a ·)

/-- Generates the icons of a list of files. -/
def fileList (files : List String) (group : Group) : Work Tree := do
  let unique := distinct files
  if unique.length < files.length then
    Production.note .debug .batch s!"ignoring {files.length - unique.length} duplicate inputs"
  let (icons, _) ← w.icons group (ownNames group) unique
  return .node group icons []

end Workshop

end Iconsmith.Batch
