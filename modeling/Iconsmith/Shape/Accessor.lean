import Iconsmith.Source.Basic
import Iconsmith.Source.Code

/-!
# Accessors of shapes

A group is an enumeration without cases. It is declared inside that of the group above, and has a
member for each icon and one that lists all icons of the group and the groups below.
-/

namespace Iconsmith.Shape

/-- The words that can name a member only between backquotes. -/
def keywords : List String :=
  ["as", "break", "case", "catch", "class", "continue", "default", "defer", "do", "else", "enum",
   "extension", "fallthrough", "false", "for", "func", "guard", "if", "import", "in", "init",
   "inout", "internal", "is", "let", "nil", "operator", "private", "protocol", "public", "repeat",
   "return", "self", "static", "struct", "subscript", "super", "switch", "throw", "throws", "true",
   "try", "var", "where", "while"]

/-- The name of a member. -/
def memberName (name : String) : String :=
  let member := Naming.uncapitalize name
  if keywords.contains member then "\x60" ++ member ++ "\x60" else member

/-- The members for the icons of a group, with an empty line after them. -/
def iconMembers (icons : List String) : List String :=
  if icons.isEmpty then []
  else icons.map (fun icon => "static let " ++ memberName icon ++ " = " ++ icon ++ "()") ++ [""]

/-- The expression for the list of all icons: those of the group itself, and then those of the
groups below. -/
def assetsExpression (allAssets : String) (m : Source.Members) : String :=
  let own := m.icons.map memberName
  let parts := (if own.isEmpty then [] else ["[" ++ Source.commaList own ++ "]"])
    ++ m.children.map fun child => child ++ "." ++ memberName allAssets
  if parts.isEmpty then "[]" else " + ".intercalate parts

/-- The members of a group. -/
def members (allAssets : String) (m : Source.Members) : List String :=
  iconMembers m.icons
    ++ Source.block ("static var " ++ memberName allAssets ++ ": [any Shape]")
      [assetsExpression allAssets m]

/-- The enumeration of a group. -/
def enumeration (allAssets : String) (m : Source.Members) : List String :=
  Source.block ("enum " ++ m.group.name) (members allAssets m)

/-- The enumeration of a group, inside that of the group above. -/
def accessorLines (allAssets : String) (m : Source.Members) : List String :=
  let lines :=
    match m.group.parent? with
    | some p => Source.block ("extension " ++ ".".intercalate p.names) (enumeration allAssets m)
    | none => enumeration allAssets m
  ["import SwiftUI", ""] ++ lines ++ [""]

/-- The source of an accessor. -/
def accessor (settings : Source.Settings) (m : Source.Members) :
    Except Source.Error Source.File := do
  Source.checkSymbol .nativeShape m.group.name
  return {
    names := m.group.directory
      ++ [Source.Backend.nativeShape.fileNameOf (m.group.name ++ "+" ++ settings.allAssets)]
    text := Source.textOf (accessorLines settings.allAssets m) }

end Iconsmith.Shape
