import Iconsmith.Color.Basic
import Iconsmith.Decimal.Style
import Iconsmith.PathData.Reader
import Iconsmith.Xml.Fault

/-!
# Errors of drawables

Why a document is no drawable. An error is either in the document itself or in a reference to a
resource that the document cannot hold.
-/

namespace Iconsmith.Drawable

/-- What is wrong with a gradient. -/
inductive GradientFault where
  | fewStops (found : Nat)
  | offsetOutside (offset : Float)
  | radiusNotPositive (radius : Float)

/-- Features that a graphic cannot have. -/
inductive Feature where
  | gradientStroke
  | sweepGradient
  deriving DecidableEq

/-- Why a document is no drawable. -/
inductive Error where
  | document (fault : Xml.Fault)
  /-- The text of an attribute is no number. -/
  | number (name text : String)
  /-- The text of an attribute is not among those it may have. -/
  | value (name text : String)
  | color (text : String)
  | viewport (size : Point Float)
  | pathData (e : PathData.Error)
  | gradient (fault : GradientFault)
  | unsupported (feature : Feature)
  | reference (e : ReferenceError)

/-- The message of a gradient fault. -/
def GradientFault.message : GradientFault → String
  | fewStops found => s!"needs at least 2 color stops, found {found}"
  | offsetOutside offset =>
    "stop offset " ++ Decimal.Style.plain.text offset ++ " is outside [0, 1]"
  | radiusNotPositive radius => "radius must be positive, got " ++ Decimal.Style.plain.text radius

/-- What a feature is called. -/
def Feature.name : Feature → String
  | gradientStroke => "gradient strokes"
  | sweepGradient => "sweep gradients"

namespace Error

/-- The message of an error. -/
def message : Error → String
  | document fault => fault.message
  | number name text => s!"invalid number '{text}' for attribute '{name}'"
  | value name text => s!"invalid value '{text}' for attribute 'android:{name}'"
  | color text => (Color.Error.malformed text).message
  | viewport size =>
    "viewport must be positive, got " ++ Decimal.Style.plain.text size.x ++ "x"
      ++ Decimal.Style.plain.text size.y
  | pathData e => e.message
  | gradient fault => "invalid gradient: " ++ fault.message
  | unsupported feature => "unsupported feature: " ++ feature.name
  | reference e => e.message

/-- An error of a color as an error of the drawable that uses it. -/
def ofColor : Color.Error → Error
  | .malformed text => color text
  | .reference e => reference e

end Error

end Iconsmith.Drawable
