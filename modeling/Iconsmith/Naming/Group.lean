import Iconsmith.Naming.Identifier

/-!
# Groups

Icons are declared in groups, which nest like the directories they come from. A group is known by
the base package and the names from the root down to it. Its package, its directory and its
qualified name are three renderings of that list of names.
-/

namespace Iconsmith

/-- The place of a group in the hierarchy. -/
structure Group where
  basePackage : String
  /-- The name of the root group. -/
  root : String
  /-- The names below the root, down to this group. -/
  below : List String
  deriving DecidableEq, Repr

namespace Group

/-- The root group with a given name. -/
def ofRoot (basePackage name : String) : Group where
  basePackage := basePackage
  root := name
  below := []

/-- A group directly below this one. -/
def child (g : Group) (name : String) : Group :=
  { g with below := g.below ++ [name] }

/-- The names from the root down to this group. -/
def names (g : Group) : List String :=
  g.root :: g.below

/-- The name of the group itself. -/
def name (g : Group) : String :=
  g.below.getLast?.getD g.root

/-- Whether this is the root group. -/
def isRoot (g : Group) : Bool :=
  g.below.isEmpty

/-- The group directly above this one. -/
def parent? (g : Group) : Option Group :=
  if g.isRoot then none else some { g with below := g.below.dropLast }

/-- The name for people: the root by its name, and the rest by package segments. -/
def qualifiedName (g : Group) : String :=
  ".".intercalate (g.root :: g.below.map Naming.packageSegment)

/-- A package followed by a segment, or the segment alone in the empty package. -/
def joinPackage (package segment : String) : String :=
  if package.isEmpty then segment else package ++ "." ++ segment

/-- The package below the base package that a list of names leads to. -/
def packageOf (basePackage : String) (names : List String) : String :=
  names.foldl (fun package name => joinPackage package (Naming.packageSegment name)) basePackage

/-- The package that declares the group. -/
def groupPackage (g : Group) : String :=
  packageOf g.basePackage g.names.dropLast

/-- The package that declares the icons of the group. -/
def iconsPackage (g : Group) : String :=
  packageOf g.basePackage g.names

/-- The directories that lead to the group, one for each name. -/
def directory (g : Group) : List String :=
  g.names.map Naming.packageSegment

end Group

end Iconsmith
