import Iconsmith.Naming.Allocator

/-!
# Names of sibling groups

A group below another one needs a name that no member of that group has, and a package segment that
no sibling has. Segments are in lower case, so names that differ can still share one; then the next
name is tried.
-/

namespace Iconsmith.Naming

/-- The names of the members of a group, and the package segments of the groups below it. -/
structure Siblings where
  names : Allocator
  segments : List String
  deriving Repr

namespace Siblings

/-- Tries one name after the other, at most `n + 1`, until one has a segment of its own. The names
tried are given in order, and the last one is taken. -/
def tryNames (s : Siblings) (identifier : String) : Nat → List String × Siblings
  | 0 =>
    let (name, names) := s.names.allocate identifier
    ([name], ⟨names, packageSegment name :: s.segments⟩)
  | n + 1 =>
    let (name, names) := s.names.allocate identifier
    if s.segments.contains (packageSegment name) then
      let (rest, s) := tryNames { s with names := names } identifier n
      (name :: rest, s)
    else ([name], ⟨names, packageSegment name :: s.segments⟩)

/-- The names that are tried for a group below, and the names taken afterwards. The segments of the
names tried are distinct, so with one name more than there are segments one of them is new. -/
def nameChild (s : Siblings) (identifier : String) : List String × Siblings :=
  s.tryNames identifier s.segments.length

end Siblings

end Iconsmith.Naming
