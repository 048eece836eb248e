import Iconsmith.Shape.Preview
import Iconsmith.Source.Finite

/-!
# Icons as shapes

An icon is a structure that draws its outline. Paint is left to the code that uses the shape.
-/

namespace Iconsmith.Shape

/-- The structure of an icon. -/
def declaration (symbol : String) (g : Graphic Float) : List String :=
  Source.block ("struct " ++ symbol ++ ": Shape")
    (Source.block "func path(in rect: CGRect) -> Path"
      (["var path = Path()", "let width = rect.size.width", "let height = rect.size.height"]
        ++ statements g ++ ["return path"]))

/-- The lines of an icon. -/
def iconLines (settings : Source.Settings) (symbol : String) (g : Graphic Float) : List String :=
  ["import SwiftUI", ""] ++ declaration symbol g
    ++ (if settings.preview then "" :: preview symbol g else []) ++ [""]

/-- The source of an icon. -/
def icon (settings : Source.Settings) (group : Group) (symbol : String) (g : Graphic Float) :
    Except Source.Error Source.File := do
  Source.checkSymbol .nativeShape symbol
  Source.checkFinite g
  return {
    names := group.directory ++ [Source.Backend.nativeShape.fileNameOf symbol]
    text := Source.textOf (iconLines settings symbol g) }

/-- What there is to say about an icon: whether its preview is unstyled. -/
def iconNotices (settings : Source.Settings) (symbol : String) (g : Graphic Float) : List String :=
  if settings.preview && (sharedFill? g.paths).isNone then [unstyledNotice symbol] else []

end Iconsmith.Shape
