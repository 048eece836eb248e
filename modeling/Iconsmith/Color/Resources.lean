import Iconsmith.Color.Basic
import Iconsmith.Xml.Fault

/-!
# Color resources

An application names its colors in a document of resources, as `<color name="accent">#F00</color>`
directly below the root. Other resources mean nothing here.
-/

namespace Iconsmith.Color.Table

/-- The name and the value of a color element. The value is the text at its start. -/
def entry (n : Xml.Node) : Except Xml.Fault (String × String) :=
  match n.attribute? none "name" with
  | some name => .ok (name, Text.trimString (n.leadingText?.getD ""))
  | none => .error (.missingAttribute "color" "name")

/-- The table of the colors in a document of resources. -/
def ofResources (text : String) : Except Xml.Fault Table := do
  let root ← Xml.Document.readRoot "resources" text
  let entries ← (root.elements.filter (·.localName = "color")).mapM entry
  return ofList entries

end Iconsmith.Color.Table
