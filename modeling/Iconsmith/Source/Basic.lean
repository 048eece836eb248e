import Iconsmith.Decimal.Style
import Iconsmith.Files.Location
import Iconsmith.Naming.Group

/-!
# Generated sources

What is generated is a file of source text for each icon, and an accessor file for each group. It
is written for one of two frameworks, each with a language and names of its own.
-/

namespace Iconsmith.Source

/-- A framework for which sources are generated. -/
inductive Backend where
  /-- Icons are properties that build an `ImageVector`. -/
  | declarativeUi
  /-- Icons are structures that conform to `Shape`. -/
  | nativeShape
  deriving DecidableEq, Repr

namespace Backend

/-- The name of a framework. -/
def name : Backend → String
  | declarativeUi => "Compose"
  | nativeShape => "SwiftUI"

/-- The language in which sources are written. -/
def language : Backend → String
  | declarativeUi => "Kotlin"
  | nativeShape => "Swift"

/-- The extension of the generated files. -/
def fileExtension : Backend → String
  | declarativeUi => "kt"
  | nativeShape => "swift"

/-- The names that the generated sources themselves refer to. -/
def reserved : Backend → List String
  | declarativeUi =>
    ["ImageVector", "Builder", "Color", "SolidColor", "Brush", "Offset", "Preview", "Composable",
     "AllAssets"]
  | nativeShape =>
    ["Self", "Type", "Protocol", "Any", "Path", "Shape", "Color", "CGRect", "CGPoint", "View"]

/-- The identifier for the name of a file or directory. -/
def identifier (b : Backend) (raw : String) : String :=
  Naming.identifier b.reserved raw

/-- The name of a generated file. -/
def fileNameOf (b : Backend) (stem : String) : String :=
  stem ++ "." ++ b.fileExtension

end Backend

/-- What can be chosen about the generated text. -/
structure Settings where
  /-- Whether each icon comes with a preview. -/
  preview : Bool
  /-- The name of the accessor of all icons of a group. -/
  allAssets : String
  deriving DecidableEq, Repr

/-- What a group declares. -/
structure Members where
  group : Group
  /-- The icons directly in the group. -/
  icons : List String
  /-- The groups directly below. -/
  children : List String
  deriving DecidableEq, Repr

/-- A generated file: the names that lead to it, and its text. -/
structure File where
  names : List String
  text : String
  deriving DecidableEq, Repr

/-- Where a generated file belongs, below the directory of all output. -/
def File.location (f : File) : String :=
  Location.ofNames f.names

/-! ### Errors -/

/-- The numbers of a graphic, by what they are for. -/
inductive Quantity where
  | width
  | height
  | viewport
  | groupTransform
  | pathData
  | fillAlpha
  | strokeAlpha
  | strokeMiter
  | strokeWidth
  | gradientStop
  | linearGradient
  | radialGradient
  deriving DecidableEq, Repr

/-- What a number is called. -/
def Quantity.name : Quantity → String
  | width => "width"
  | height => "height"
  | viewport => "viewport"
  | groupTransform => "group transform"
  | pathData => "path data"
  | fillAlpha => "fill alpha"
  | strokeAlpha => "stroke alpha"
  | strokeMiter => "stroke miter"
  | strokeWidth => "stroke width"
  | gradientStop => "gradient stop"
  | linearGradient => "linear gradient"
  | radialGradient => "radial gradient"

/-- Why no source can be generated. -/
inductive Error where
  /-- The symbol is no identifier of the language. -/
  | invalidSymbol (symbol language : String)
  /-- A number that no source text can express. -/
  | nonFinite (value : Float) (quantity : Quantity)

/-- The message of an error. -/
def Error.message : Error → String
  | invalidSymbol symbol language => s!"'{symbol}' is not a valid {language} identifier"
  | nonFinite value quantity =>
    "non-finite value " ++ Decimal.Style.plain.text value ++ " in " ++ quantity.name

/-- Accepts the symbols that can be declared. -/
def checkSymbol (b : Backend) (symbol : String) : Except Error Unit :=
  if Naming.isIdentifier symbol then .ok () else .error (.invalidSymbol symbol b.language)

end Iconsmith.Source
