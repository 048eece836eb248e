import Iconsmith.ImageVector.Builder
import Iconsmith.Source.Finite

/-!
# Icons as image vectors

An icon is an extension property of the object of its group. It is built when it is first asked for
and kept in a variable.
-/

namespace Iconsmith.ImageVector

/-- The import of the type of all icons. -/
def typeName : String := vectorName "ImageVector"

/-- The variable that keeps the icon of a symbol. -/
def backingName (symbol : String) : String :=
  "_" ++ Naming.uncapitalize symbol

/-- A getter that gives the value of a variable and first sets it if it has none. -/
def cachedGetter (backing : String) (assignment : List String) : List String :=
  Source.block "get()"
    (Source.block ("if (" ++ backing ++ " != null)") ["return " ++ backing ++ "!!"]
      ++ assignment ++ ["return " ++ backing ++ "!!"])

/-- The arguments of the builder of an icon. -/
def builderArguments (symbol : String) (g : Graphic Float) : List String :=
  ["name = " ++ stringLiteral symbol ++ ",",
   "defaultWidth = " ++ doubleLiteral g.width.toDp ++ ".dp,",
   "defaultHeight = " ++ doubleLiteral g.height.toDp ++ ".dp,",
   "viewportWidth = " ++ floatLiteral g.viewport.x ++ ",",
   "viewportHeight = " ++ floatLiteral g.viewport.y ++ ","]

/-- The statement that builds an icon. -/
def assignment (symbol : String) (g : Graphic Float) (content : List String) : List String :=
  (backingName symbol ++ " = ImageVector.Builder(")
    :: Source.indent (builderArguments symbol g)
    ++ [").apply \x7b"] ++ Source.indent content ++ ["\x7d.build()"]

/-- The property of an icon of an object, and the variable behind it. -/
def property (receiver symbol : String) (g : Graphic Float) (content : List String) : List String :=
  ("public val " ++ receiver ++ "." ++ symbol ++ ": ImageVector")
    :: Source.indent (cachedGetter (backingName symbol) (assignment symbol g content))
    ++ ["", "private var " ++ backingName symbol ++ ": ImageVector? = null"]

/-- The names that a preview needs imported. -/
def previewImports : List String :=
  ["androidx.compose.foundation.Image",
   "androidx.compose.foundation.layout.Box",
   "androidx.compose.foundation.layout.padding",
   "androidx.compose.runtime.Composable",
   "androidx.compose.ui.Modifier",
   "androidx.compose.ui.tooling.preview.Preview"]

/-- The preview of an icon. -/
def previewDraft (receiver symbol : String) : Draft where
  lines :=
    ["", "@Preview", "@Composable"]
      ++ Source.block ("private fun " ++ symbol ++ "Preview()")
        (Source.block "Box(modifier = Modifier.padding(12.dp))"
          ["Image(imageVector = " ++ receiver ++ "." ++ symbol ++ ", contentDescription = \"\")"])
  imports := previewImports

/-- The import of the object of a group, which the empty package does not need. -/
def receiverImports (group : Group) : List String :=
  if group.groupPackage.isEmpty then [] else [qualified group.groupPackage group.name]

/-- The code of an icon. -/
def iconDraft (settings : Source.Settings) (group : Group) (symbol : String) (g : Graphic Float) :
    Draft :=
  let content := nodesDraft g.nodes
  let declaration : Draft :=
    { lines := property group.name symbol g content.lines
      imports := [typeName, "androidx.compose.ui.unit.dp"] ++ receiverImports group
        ++ content.imports }
  let preview := if settings.preview then previewDraft group.name symbol else .empty
  declaration ++ preview ++ ⟨[""], []⟩

/-- The file of code of an icon. -/
def iconFile (settings : Source.Settings) (group : Group) (symbol : String) (g : Graphic Float) :
    CodeFile :=
  .ofDraft group.iconsPackage (iconDraft settings group symbol g)

/-- The source of an icon. -/
def icon (settings : Source.Settings) (group : Group) (symbol : String) (g : Graphic Float) :
    Except Source.Error Source.File := do
  Source.checkSymbol .declarativeUi symbol
  Source.checkFinite g
  return {
    names := packageDirectories group.iconsPackage
      ++ [Source.Backend.declarativeUi.fileNameOf symbol]
    text := (iconFile settings group symbol g).text }

end Iconsmith.ImageVector
