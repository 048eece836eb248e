import Iconsmith.CommandLine.Switch
import Iconsmith.Log
import Iconsmith.Options.Reader

/-!
# Arguments

What a command line asks for: a run, or to be told about the program. Whatever is wrong with it,
nothing is done then. The arguments of a run have a say over the options in a file.
-/

namespace Iconsmith.CommandLine

/-- The arguments of a run. -/
structure Arguments where
  /-- A directory, or files. -/
  inputs : List String := []
  accessor : Option String := none
  package : Option String := none
  backend : Option Source.Backend := none
  inputFormat : Option InputFormat := none
  noPreview : Bool := false
  /-- The file with the options that are not arguments. -/
  config : Option String := none
  /-- The file that names colors. -/
  colors : Option String := none
  /-- The directory to write to. -/
  output : Option String := none
  verbose : Bool := false
  quiet : Bool := false
  deriving DecidableEq, Repr

/-- What a command line asks for. -/
inductive Request where
  | run (a : Arguments)
  | help
  | version
  deriving DecidableEq, Repr

/-! ### Values -/

/-- The frameworks by their names on a command line. -/
def backends : List (String × Source.Backend) :=
  [("compose", .declarativeUi), ("swiftui", .nativeShape)]

/-- The formats by their names on a command line. -/
def inputFormats : List (String × InputFormat) :=
  [("svg", .svg), ("xml", .drawable)]

/-- A location is not empty. -/
def location? (text : String) : Option String :=
  if text = "" then none else some text

/-- Sets what is not set yet. -/
def setOnce? {α : Type} (field : Option α) (value : Option α) : Option (Option α) :=
  match field with
  | none => value.map some
  | some _ => none

/-- Raises a flag that is not raised yet. -/
def raiseOnce? (field : Bool) : Option Bool :=
  if field then none else some true

namespace Arguments

/-- Adds an input. -/
def addInput? (a : Arguments) (word : String) : Option Arguments :=
  (location? word).map fun location => { a with inputs := a.inputs ++ [location] }

/-- Gives a switch its value, which no switch gets twice. -/
def setValue? (a : Arguments) (s : Switch) (text : String) : Option Arguments :=
  match s with
  | .accessor => (setOnce? a.accessor (some text)).map fun x => { a with accessor := x }
  | .package => (setOnce? a.package (some text)).map fun x => { a with package := x }
  | .backend => (setOnce? a.backend (backends.lookup text)).map fun x => { a with backend := x }
  | .inputFormat =>
    (setOnce? a.inputFormat (inputFormats.lookup text)).map fun x => { a with inputFormat := x }
  | .config => (setOnce? a.config (location? text)).map fun x => { a with config := x }
  | .colors => (setOnce? a.colors (location? text)).map fun x => { a with colors := x }
  | .output => (setOnce? a.output (location? text)).map fun x => { a with output := x }
  | .noPreview | .verbose | .quiet | .help | .version => none

/-- Raises the flag of a switch, which is not done twice. -/
def raise? (a : Arguments) (s : Switch) : Option Arguments :=
  match s with
  | .noPreview => (raiseOnce? a.noPreview).map fun x => { a with noPreview := x }
  | .verbose => (raiseOnce? a.verbose).map fun x => { a with verbose := x }
  | .quiet => (raiseOnce? a.quiet).map fun x => { a with quiet := x }
  | _ => none

/-- Takes in what a word says. -/
def take? (a : Arguments) : Given → Option Arguments
  | .input word => a.addInput? word
  | .flag s => a.raise? s
  | .value s text => a.setValue? s text
  | .fault => none

/-- Whether arguments are complete and do not contradict each other. -/
def isComplete (a : Arguments) : Bool :=
  !a.inputs.isEmpty && !(a.verbose && a.quiet)

end Arguments

namespace Request

/-- What is asked for after some arguments. To be told about the program goes before all that
comes later. -/
def after? (a : Arguments) : List Given → Option Request
  | [] => if a.isComplete then some (.run a) else none
  | .flag .help :: _ => some .help
  | .flag .version :: _ => some .version
  | g :: gs => do after? (← a.take? g) gs

/-- What a command line asks for, if there is nothing wrong with it. -/
def ofWords? (words : List String) : Option Request :=
  after? {} (readWords words)

end Request

/-! ### Runs -/

namespace Arguments

/-- The options of a run, where the arguments go before those in a file. -/
def options (a : Arguments) (files : FileView) : Except Failure Options := do
  let base ← match a.config with
    | some location => Options.load files location
    | none => pure {}
  return {
    package := a.package.getD base.package
    accessor := a.accessor.getD base.accessor
    allAssets := base.allAssets
    preview := base.preview && !a.noPreview
    backend := a.backend.getD base.backend
    inputFormat := a.inputFormat.getD base.inputFormat
    colorResources := a.colors.or base.colorResources }

/-- The level down to which records are shown. -/
def level (a : Arguments) : Log.Level :=
  if a.verbose then .debug else if a.quiet then .error else .warning

end Arguments

end Iconsmith.CommandLine
