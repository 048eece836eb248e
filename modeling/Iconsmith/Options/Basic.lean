import Iconsmith.Batch.Failure
import Iconsmith.Source.Basic

/-!
# Options

What can be chosen about a run. Options are checked before any file is read, so that every name
built from them can be declared.
-/

namespace Iconsmith

/-- The formats of input files. -/
inductive InputFormat where
  | svg
  | drawable
  deriving DecidableEq, Repr

namespace InputFormat

/-- The extension of files of a format. -/
def fileExtension : InputFormat → String
  | svg => "svg"
  | drawable => "xml"

/-- Whether a file has the extension of a format, in letters of either case. -/
def accepts (f : InputFormat) (location : String) : Bool :=
  match Location.extension? location with
  | some e => e.toList.map Char.toLower = f.fileExtension.toList
  | none => false

/-- The name of a format in options. -/
def name : InputFormat → String
  | svg => "svg"
  | drawable => "drawable_xml"

/-- The format with a given name in options. -/
def ofName? : String → Option InputFormat
  | "svg" => some svg
  | "drawable_xml" | "xml" => some drawable
  | _ => none

end InputFormat

namespace Source.Backend

/-- The name of a framework in options. -/
def optionName : Backend → String
  | declarativeUi => "declarative_ui"
  | nativeShape => "native_shape"

/-- The framework with a given name in options. -/
def ofOptionName? : String → Option Backend
  | "declarative_ui" | "compose" => some declarativeUi
  | "native_shape" | "swiftui" => some nativeShape
  | _ => none

end Source.Backend

/-- The options of a run. -/
structure Options where
  /-- The package of generated sources, for frameworks with packages. -/
  package : String := "com.example.icons"
  /-- The name of the root group. -/
  accessor : String := "Icons"
  /-- The name of the accessor of all icons of a group. -/
  allAssets : String := "AllAssets"
  preview : Bool := true
  backend : Source.Backend := .declarativeUi
  inputFormat : InputFormat := .svg
  /-- The file that names colors. -/
  colorResources : Option String := none
  deriving DecidableEq, Repr

namespace Options

/-- The settings of the generated text. -/
def settings (o : Options) : Source.Settings where
  preview := o.preview
  allAssets := o.allAssets

/-- The root group of a run. -/
def rootGroup (o : Options) : Group :=
  Group.ofRoot o.package o.accessor

/-- Whether a package is made of identifiers with points between them. -/
def isPackage (name : String) : Bool :=
  (name.toList.splitOn '.').all fun s => Naming.isIdentifier (String.ofList s)

/-- Whether a name is made of letters, digits and low lines. -/
def isWord (name : String) : Bool :=
  !name.isEmpty && name.toList.all fun c => Naming.isAlphanumeric c || c = '_'

/-- Accepts options from which names can be built. -/
def validate (o : Options) : Except Failure Unit :=
  if !Naming.isIdentifier o.accessor then
    .error (.configuration s!"invalid accessor name '{o.accessor}'")
  else if o.backend = .declarativeUi && !isPackage o.package then
    .error (.configuration s!"invalid package name '{o.package}'")
  else if !isWord o.allAssets then
    .error (.configuration s!"invalid accessor property name '{o.allAssets}'")
  else .ok ()

end Options

end Iconsmith
