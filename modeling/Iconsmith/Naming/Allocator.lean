import Iconsmith.Naming.Identifier

/-!
# Distinct names

An `Allocator` hands out distinct names within one group. The first request for a name gets it
unchanged, and a later one gets the least number from `2` on that makes a new name.
-/

namespace Iconsmith.Naming

/-- The names that are taken. -/
structure Allocator where
  taken : List String
  deriving Repr

namespace Allocator

/-- No name is taken. -/
def empty : Allocator := ⟨[]⟩

/-- Whether a name is taken. -/
def contains (a : Allocator) (name : String) : Bool :=
  a.taken.contains name

/-- A name with a number after it. -/
def numbered (name : String) (k : Nat) : String :=
  name ++ toString k

/-- The least number from `2` on that makes a name that is not taken. Among one number more than
names are taken, one must be free. -/
def freeNumber (a : Allocator) (name : String) : Nat :=
  let numbers := (List.range (a.taken.length + 1)).map (· + 2)
  (numbers.find? fun k => !a.contains (numbered name k)).getD 2

/-- The name that a request gets, and the names taken afterwards. -/
def allocate (a : Allocator) (name : String) : String × Allocator :=
  let given := if a.contains name then numbered name (a.freeNumber name) else name
  (given, ⟨given :: a.taken⟩)

/-- The answers to a list of requests, in order. -/
def allocateAll (a : Allocator) : List String → List String × Allocator
  | [] => ([], a)
  | name :: names =>
    let (given, a) := a.allocate name
    let (rest, a) := a.allocateAll names
    (given :: rest, a)

end Allocator

end Iconsmith.Naming
