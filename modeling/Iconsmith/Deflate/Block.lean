import Iconsmith.Deflate.Code

/-!
# Compressed blocks

Compressed data come in blocks. A block is stored as it is, or its bytes are written in a code,
where a symbol may also stand for bytes that came before.
-/

namespace Iconsmith.Deflate

/-! ### Repetitions -/

/-- The least value of a range, and the number of bits that say which value of it is meant. -/
structure Range where
  base : Nat
  extra : Nat

/-- Ranges that follow one another from `base` on, by the numbers of their bits. -/
def rangesFrom (base : Nat) : List Nat → List Range
  | [] => []
  | extra :: rest => ⟨base, extra⟩ :: rangesFrom (base + 2 ^ extra) rest

/-- A list in which every element of another one comes several times in a row. -/
def spread (times : Nat) (xs : List Nat) : List Nat :=
  xs.flatMap (List.replicate times ·)

/-- The lengths of repetitions. -/
def lengths : List Range :=
  (rangesFrom 3 (List.replicate 8 0 ++ spread 4 [1, 2, 3, 4, 5])) ++ [⟨258, 0⟩]

/-- How far back repeated bytes begin. -/
def distances : List Range :=
  rangesFrom 1 ([0, 0] ++ spread 2 (List.range 14))

/-- Reads a value of one of some ranges. -/
def readValue? (ranges : List Range) (n : Nat) (s : Bits) : Option (Nat × Bits) := do
  let range ← ranges[n]?
  let (k, s) ← readNumber? range.extra s
  return (range.base + k, s)

/-- Repeats bytes from a distance back. -/
def repeatBack (distance : Nat) : Nat → Array UInt8 → Array UInt8
  | 0, out => out
  | n + 1, out => repeatBack distance n (out.push (out.getD (out.size - distance) 0))

/-! ### Codes of a block -/

/-- The codes of bytes and lengths, and of distances. -/
structure Codes where
  main : Code
  distance : Code

/-- The codes of blocks that bring none of their own. -/
def Codes.fixed? : Option Codes := do
  let main := List.replicate 144 8 ++ List.replicate 112 9 ++ List.replicate 24 7
    ++ List.replicate 8 8
  return ⟨← Code.ofLengths? main, ← Code.ofLengths? (List.replicate 32 5)⟩

/-- The order in which the lengths for the code of lengths are given. -/
def order : List Nat :=
  [16, 17, 18, 0, 8, 7, 9, 6, 10, 5, 11, 4, 12, 3, 13, 2, 14, 1, 15]

/-- Reads several numbers of three bits. -/
def readTriples? : Nat → Bits → Option (List Nat × Bits)
  | 0, s => some ([], s)
  | n + 1, s => do
    let (k, s) ← readNumber? 3 s
    let (ks, s) ← readTriples? n s
    return (k :: ks, s)

/-- The lengths to which a symbol adds those before it, and how often it adds which one. -/
def readRun? (before : Array Nat) (n : Nat) (s : Bits) : Option (Nat × Nat × Bits) := do
  match n with
  | 16 =>
    let last ← before.back?
    let (k, s) ← readNumber? 2 s
    return (last, k + 3, s)
  | 17 =>
    let (k, s) ← readNumber? 3 s
    return (0, k + 3, s)
  | 18 =>
    let (k, s) ← readNumber? 7 s
    return (0, k + 11, s)
  | n => return (n, 1, s)

/-- Reads lengths of writings until there are `count` of them, in at most `fuel` steps. -/
def readLengths? (code : Code) (count : Nat) : Nat → Array Nat → Bits →
    Option (List Nat × Bits)
  | 0, _, _ => none
  | fuel + 1, before, s =>
    if before.size = count then some (before.toList, s)
    else if count < before.size then none
    else do
      let (n, s) ← code.read? s
      let (length, times, s) ← readRun? before n s
      readLengths? code count fuel (before ++ Array.replicate times length) s

/-- Reads the codes of a block. -/
def Codes.read? (s : Bits) : Option (Codes × Bits) := do
  let (main, s) ← readNumber? 5 s
  let (distance, s) ← readNumber? 5 s
  let (given, s) ← readNumber? 4 s
  let main := main + 257
  let distance := distance + 1
  if 286 < main || 30 < distance then none
  let (triples, s) ← readTriples? (given + 4) s
  let ofSymbol := (List.range 19).map fun n => ((order.zip triples).lookup n).getD 0
  let code ← Code.ofLengths? ofSymbol
  let count := main + distance
  let (all, s) ← readLengths? code count (count + 1) #[] s
  return (⟨← Code.ofLengths? (all.take main), ← Code.ofLengths? (all.drop main)⟩, s)

/-! ### Blocks -/

/-- Reads symbols up to the end of a block, in at most `fuel` steps. -/
def Codes.expand? (c : Codes) : Nat → Array UInt8 → Bits → Option (Array UInt8 × Bits)
  | 0, _, _ => none
  | fuel + 1, out, s => do
    let (n, s) ← c.main.read? s
    if n < 256 then c.expand? fuel (out.push (UInt8.ofNat n)) s
    else if n = 256 then return (out, s)
    else
      let (length, s) ← readValue? lengths (n - 257) s
      let (d, s) ← c.distance.read? s
      let (distance, s) ← readValue? distances d s
      if out.size < distance then none
      else c.expand? fuel (repeatBack distance length out) s

/-- Reads several bytes. -/
def readBytes? : Nat → Array UInt8 → Bits → Option (Array UInt8 × Bits)
  | 0, out, s => some (out, s)
  | n + 1, out, s => do
    let (b, s) ← readNumber? 8 s
    readBytes? n (out.push (UInt8.ofNat b)) s

/-- Reads a block that is stored as it is. It begins at a whole byte and gives its length twice. -/
def readStored? (out : Array UInt8) (s : Bits) : Option (Array UInt8 × Bits) := do
  let (length, s) ← readNumber? 16 (s.drop (s.length % 8))
  let (complement, s) ← readNumber? 16 s
  if length + complement = 65535 then readBytes? length out s else none

/-- Reads the inside of a block of one of the kinds. -/
def readInside? (kind : Nat) (out : Array UInt8) (s : Bits) : Option (Array UInt8 × Bits) := do
  match kind with
  | 0 => readStored? out s
  | 1 => (← Codes.fixed?).expand? (s.length + 1) out s
  | 2 =>
    let (codes, s) ← Codes.read? s
    codes.expand? (s.length + 1) out s
  | _ => none

/-- Reads blocks up to the last one, in at most `fuel` steps. -/
def readBlocks? : Nat → Array UInt8 → Bits → Option (Array UInt8 × Bits)
  | 0, _, _ => none
  | fuel + 1, out, s => do
    let (isLast, s) ← readNumber? 1 s
    let (kind, s) ← readNumber? 2 s
    let (out, s) ← readInside? kind out s
    if isLast = 1 then return (out, s) else readBlocks? fuel out s

/-- What some bytes hold in compressed form, and the number of bytes that are left behind it. -/
def expand? (bytes : List UInt8) : Option (List UInt8 × Nat) := do
  let s := bitsOf bytes
  let (out, rest) ← readBlocks? (s.length + 1) #[] s
  return (out.toList, rest.length / 8)

end Iconsmith.Deflate
