import Iconsmith.ImageVector.Icon

/-!
# Accessors of image vectors

A group is an object. The object of a group below another one is also a property of that one, and
each object has a property that lists all icons of its group and the groups below.
-/

namespace Iconsmith.ImageVector

/-- The imports of an accessor: the object above, the icons and the objects below. -/
def accessorImports (allAssets : String) (m : Source.Members) : List String :=
  let package := m.group.iconsPackage
  typeName
    :: (m.group.parent?.map fun p => qualified p.groupPackage p.name).toList
    ++ m.icons.map (qualified package)
    ++ m.children.map (qualified package)
    ++ (if m.children.isEmpty then [] else [qualified package allAssets])

/-- The property by which the object above gives this one. -/
def parentProperty (group : Group) : List String :=
  match group.parent? with
  | some p =>
    ["public val " ++ p.name ++ "." ++ group.name ++ ": " ++ group.name,
     "    get() = " ++ group.name, ""]
  | none => []

/-- The expression for the list of all icons: those of the groups below, and then those of the
group itself. -/
def assetsExpression (allAssets : String) (m : Source.Members) : String :=
  let own := m.icons.map fun icon => m.group.name ++ "." ++ icon
  let parts := m.children.map (fun child => child ++ "." ++ allAssets)
    ++ (if own.isEmpty then [] else ["listOf(" ++ Source.commaList own ++ ")"])
  if parts.isEmpty then "emptyList()" else " + ".intercalate parts

/-- The code of an accessor. -/
def accessorDraft (allAssets : String) (m : Source.Members) : Draft where
  lines :=
    let name := m.group.name
    let backing := "__" ++ allAssets
    ["public object " ++ name, ""]
      ++ parentProperty m.group
      ++ ["private var " ++ backing ++ ": List<ImageVector>? = null", "",
          "public val " ++ name ++ "." ++ allAssets ++ ": List<ImageVector>"]
      ++ Source.indent (cachedGetter backing [backing ++ " = " ++ assetsExpression allAssets m])
      ++ [""]
  imports := accessorImports allAssets m

/-- The file of code of an accessor. -/
def accessorFile (allAssets : String) (m : Source.Members) : CodeFile :=
  .ofDraft m.group.groupPackage (accessorDraft allAssets m)

/-- The source of an accessor. -/
def accessor (settings : Source.Settings) (m : Source.Members) :
    Except Source.Error Source.File := do
  Source.checkSymbol .declarativeUi m.group.name
  Source.checkSymbol .declarativeUi settings.allAssets
  return {
    names := packageDirectories m.group.groupPackage
      ++ [Source.Backend.declarativeUi.fileNameOf m.group.name]
    text := (accessorFile settings.allAssets m).text }

end Iconsmith.ImageVector
