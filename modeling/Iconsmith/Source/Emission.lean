import Iconsmith.ImageVector.Accessor
import Iconsmith.Shape.Accessor
import Iconsmith.Shape.Icon

/-!
# Generating sources

The sources of icons and groups, for either framework.
-/

namespace Iconsmith.Source.Backend

/-- The source of an icon. -/
def icon (b : Backend) (settings : Settings) (group : Group) (symbol : String) (g : Graphic Float) :
    Except Error File :=
  match b with
  | declarativeUi => ImageVector.icon settings group symbol g
  | nativeShape => Shape.icon settings group symbol g

/-- The source of the accessor of a group. -/
def accessor (b : Backend) (settings : Settings) (m : Members) : Except Error File :=
  match b with
  | declarativeUi => ImageVector.accessor settings m
  | nativeShape => Shape.accessor settings m

/-- What there is to say about an icon. -/
def iconNotices (b : Backend) (settings : Settings) (symbol : String) (g : Graphic Float) :
    List String :=
  match b with
  | declarativeUi => []
  | nativeShape => Shape.iconNotices settings symbol g

end Iconsmith.Source.Backend
