import Iconsmith.Deflate.Block

/-!
# Compressed files

A compressed file has a head, which says nothing about what is in it, the compressed data, and at
the end a check sum of the data and their length.
-/

namespace Iconsmith.Deflate.Gzip

/-! ### Check sums -/

/-- The check sum after one more bit. -/
def shiftBit (sum : UInt32) : UInt32 :=
  if sum % 2 = 1 then sum / 2 ^^^ 0xEDB88320 else sum / 2

/-- The check sum after one more byte. -/
def addByte (sum : UInt32) (b : UInt8) : UInt32 :=
  (List.range 8).foldl (fun sum _ => shiftBit sum) (sum ^^^ b.toUInt32)

/-- The check sum of some bytes. -/
def checkSum (bytes : List UInt8) : Nat :=
  (bytes.foldl addByte 0xFFFFFFFF ^^^ 0xFFFFFFFF).toNat

/-- The number whose least significant byte comes first. -/
def numberOf (bytes : List UInt8) : Nat :=
  bytes.foldr (fun b n => 256 * n + b.toNat) 0

/-! ### The head -/

/-- Skips some bytes, all of which must be there. -/
def skip? (n : Nat) (s : List UInt8) : Option (List UInt8) :=
  if s.length < n then none else some (s.drop n)

/-- Skips a field of a head that has a length. -/
def skipField? (s : List UInt8) : Option (List UInt8) := do
  let r ← skip? 2 s
  skip? (numberOf (s.take 2)) r

/-- Skips a text of a head, which a zero ends. -/
def skipText? (s : List UInt8) : Option (List UInt8) :=
  match s.dropWhile (· ≠ 0) with
  | [] => none
  | _ :: r => some r

/-- Skips the check sum of a head, where `whole` is what the head begins. -/
def skipSum? (whole s : List UInt8) : Option (List UInt8) := do
  let head := whole.take (whole.length - s.length)
  let r ← skip? 2 s
  if numberOf (s.take 2) = checkSum head % 65536 then return r else none

/-- Skips a part of a head if a bit of its flags is set. -/
def skipIf? (flags : UInt8) (bit : Nat) (skip? : List UInt8 → Option (List UInt8))
    (s : List UInt8) : Option (List UInt8) :=
  if flags.toNat.testBit bit then skip? s else some s

/-- The signature of compressed files. -/
def signature : List UInt8 := [0x1F, 0x8B]

/-- Skips the head of a compressed file. -/
def skipHead? (s : List UInt8) : Option (List UInt8) :=
  match s with
  | 0x1F :: 0x8B :: 8 :: flags :: r => do
    if 32 ≤ flags then none
    let r ← skip? 6 r
    let r ← skipIf? flags 2 skipField? r
    let r ← skipIf? flags 3 skipText? r
    let r ← skipIf? flags 4 skipText? r
    skipIf? flags 1 (skipSum? s) r
  | _ => none

/-! ### Files -/

/-- What a compressed file holds. Something may follow the file. -/
def expand? (s : List UInt8) : Option (List UInt8) := do
  let body ← skipHead? s
  let (data, left) ← Deflate.expand? body
  let trailer := body.drop (body.length - left)
  let _ ← skip? 8 trailer
  let sum := numberOf (trailer.take 4)
  let length := numberOf ((trailer.drop 4).take 4)
  if sum = checkSum data && length = data.length % 0x100000000 then return data else none

end Iconsmith.Deflate.Gzip
