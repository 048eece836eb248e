/-!
# Prefix codes

Compressed data are a sequence of bits in which frequent symbols are written shorter. A `Code` is
the tree of these writings, and it follows from their lengths alone: shorter ones come first, and
those of one length in the order of their symbols.
-/

namespace Iconsmith.Deflate

/-- A sequence of bits. -/
abbrev Bits := List Bool

/-- The bits of some bytes, of each byte the least significant one first. -/
def bitsOf (bytes : List UInt8) : Bits :=
  bytes.flatMap fun b => (List.range 8).map b.toNat.testBit

/-- The number that the next bits give, the least significant one first. -/
def readNumber? : Nat → Bits → Option (Nat × Bits)
  | 0, s => some (0, s)
  | _, [] => none
  | n + 1, b :: s => do
    let (high, s) ← readNumber? n s
    return (2 * high + b.toNat, s)

/-- The symbols that sequences of bits lead to. -/
inductive Code where
  /-- No symbol. -/
  | nothing
  | symbol (n : Nat)
  /-- What a bit that is not set leads to, and what one that is set does. -/
  | fork (unset set : Code)
  deriving Repr

namespace Code

/-- The greatest length with which a symbol may be written. -/
def maxLength : Nat := 15

/-- The tree below a place at some depth, for symbols with their lengths in ascending order, and the
symbols for which there is no place in it. -/
def grow : Nat → Nat → List (Nat × Nat) → Code × List (Nat × Nat)
  | _, _, [] => (.nothing, [])
  | room, depth, (length, n) :: rest =>
    if length = depth then (.symbol n, rest)
    else
      match room with
      | 0 => (.nothing, (length, n) :: rest)
      | room + 1 =>
        let (unset, rest) := grow room (depth + 1) ((length, n) :: rest)
        let (set, rest) := grow room (depth + 1) rest
        (.fork unset set, rest)

/-- How much of all sequences of the greatest length the writings of some lengths take up. -/
def taken (lengths : List Nat) : Nat :=
  lengths.foldr (fun length sum => (1 <<< (maxLength - length)) + sum) 0

/-- The code for symbols by the lengths of their writings, of which those of length zero are not
written. No sequence of bits is without a meaning, unless there is at most one symbol. -/
def ofLengths? (lengths : List Nat) : Option Code :=
  let used := lengths.zipIdx.filter fun (length, _) => length ≠ 0
  let ordered := used.mergeSort fun a b => a.1 ≤ b.1
  let sum := taken (used.map (·.1))
  if sum = 1 <<< maxLength || used.length ≤ 1 then some (grow maxLength 0 ordered).1 else none

/-- Reads a symbol. -/
def read? : Code → Bits → Option (Nat × Bits)
  | nothing, _ => none
  | symbol n, s => some (n, s)
  | fork _ _, [] => none
  | fork unset set, b :: s => if b then set.read? s else unset.read? s

end Code

end Iconsmith.Deflate
