import Iconsmith.Source.Basic

/-!
# Trees of groups

The groups of a run form a tree. Each holds the icons generated for its own files, by the location
of the file, and the groups below it.
-/

namespace Iconsmith.Batch

/-- A group with its icons and the groups below. -/
inductive Tree where
  | node (group : Group) (icons : List (String × String)) (children : List Tree)
  deriving Repr

namespace Tree

/-- The group at the root of a tree. -/
def group : Tree → Group
  | node g _ _ => g

/-- The icons directly in the group, as file and symbol. -/
def icons : Tree → List (String × String)
  | node _ icons _ => icons

/-- The trees of the groups directly below. -/
def children : Tree → List Tree
  | node _ _ children => children

mutual

/-- The number of icons in a tree. -/
def iconCount : Tree → Nat
  | node _ icons children => icons.length + iconCountOf children

/-- The number of icons in a list of trees. -/
def iconCountOf : List Tree → Nat
  | [] => 0
  | t :: ts => t.iconCount + iconCountOf ts

end

/-- Whether there is no icon in a tree. -/
def isEmpty (t : Tree) : Bool :=
  t.iconCount == 0

mutual

/-- The groups of a tree with their content, each before those below it. -/
def walk : Tree → List Tree
  | node g icons children => node g icons children :: walkAll children

/-- The groups of a list of trees. -/
def walkAll : List Tree → List Tree
  | [] => []
  | t :: ts => t.walk ++ walkAll ts

end

/-- The symbol of a file among the icons of one group. -/
def symbolIn? (icons : List (String × String)) (location : String) : Option String :=
  (icons.find? fun icon => Location.same icon.1 location).map (·.2)

mutual

/-- The symbol that was generated for a file. -/
def symbolFor? (location : String) : Tree → Option String
  | node _ icons children => (symbolIn? icons location).or (symbolAmong? location children)

/-- The symbol that was generated for a file in one of several trees. -/
def symbolAmong? (location : String) : List Tree → Option String
  | [] => none
  | t :: ts => (t.symbolFor? location).or (symbolAmong? location ts)

end

/-- What the group at the root declares. -/
def members (t : Tree) : Source.Members where
  group := t.group
  icons := t.icons.map (·.2)
  children := t.children.map (·.group.name)

end Tree

end Iconsmith.Batch
