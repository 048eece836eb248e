import Iconsmith.Decimal.Basic
import Iconsmith.Text.Blank

/-!
# Sizes of pictures

A picture made of pixels begins with a signature of its format, and its width and height are written
at a place that the format fixes. Nothing else of a picture is looked at.
-/

namespace Iconsmith.Raster

/-- The number of pixels across and down. -/
structure Dimensions where
  width : Nat
  height : Nat
  deriving DecidableEq, Repr

namespace Dimensions

/-- The same size with the sides exchanged. -/
def turned (d : Dimensions) : Dimensions := ⟨d.height, d.width⟩

/-- The number of pixels. -/
def area (d : Dimensions) : Nat := d.width * d.height

/-! ### Numbers -/

/-- Some bytes from a place on, all of which must be there. -/
def slice? (s : List UInt8) (start count : Nat) : Option (List UInt8) :=
  let bytes := (s.drop start).take count
  if bytes.length = count then some bytes else none

/-- The number whose most significant byte comes first. -/
def bigEndian (bytes : List UInt8) : Nat :=
  bytes.foldl (fun n b => 256 * n + b.toNat) 0

/-- The number whose least significant byte comes first. -/
def littleEndian (bytes : List UInt8) : Nat :=
  bigEndian bytes.reverse

/-- The size given by two numbers from a place on, each of which takes `count` bytes. -/
def pair? (number : List UInt8 → Nat) (start count : Nat) (s : List UInt8) :
    Option Dimensions := do
  return ⟨number (← slice? s start count), number (← slice? s (start + count) count)⟩

/-! ### Formats that need more than a look -/

/-- Whether a marker of a JPEG picture begins a frame. -/
def isFrame (marker : UInt8) : Bool :=
  0xC0 ≤ marker && marker ≤ 0xCF && marker ≠ 0xC4 && marker ≠ 0xC8 && marker ≠ 0xCC

/-- The number of pictures inside the picture that a marker is part of, behind that marker. -/
def depthBehind? (depth : Nat) (marker : UInt8) : Option Nat :=
  if marker = 0xD8 then some (depth + 1)
  else if marker = 0xD9 then if depth = 0 then none else some (depth - 1)
  else some depth

/-- The size in the first frame of a JPEG picture that is not part of a picture inside it, where the
segments before it begin here. -/
def ofSegments? (depth : Nat) (s : List UInt8) : Option Dimensions :=
  match _hs : s with
  | 0xFF :: marker :: high :: low :: r =>
    if isFrame marker && depth = 0 then (pair? bigEndian 1 2 r).map turned
    else
      match depthBehind? depth marker, bigEndian [high, low] with
      | none, _ | _, 0 | _, 1 => none
      | some depth, n + 2 => ofSegments? depth (r.drop n)
  | _ => none
termination_by s.length
decreasing_by
  simp only [List.length_drop, List.length_cons]
  omega

/-- The size in the header of a WebP picture, of which there are three variants. -/
def ofWebp? (s : List UInt8) : Option Dimensions := do
  match ← slice? s 15 1 with
  | [0x58] => (pair? littleEndian 24 3 s).map fun d => ⟨d.width + 1, d.height + 1⟩
  | [0x4C] =>
    let bits := littleEndian (← slice? s 21 4)
    return ⟨bits % 0x4000 + 1, bits / 0x4000 % 0x4000 + 1⟩
  | [0x20] => pair? littleEndian 26 2 s
  | _ => none

/-- The number in an entry of a TIFF directory, which takes two or four bytes or is something
else. -/
def entryValue? (number : List UInt8 → Nat) (kind : Nat) (bytes : List UInt8) :
    Option (Option Nat) :=
  if kind = 3 || kind = 8 then some (some (number (bytes.take 2)))
  else if [4, 9, 11, 13].contains kind then some (some (number bytes))
  else if [1, 2, 5, 6, 7, 10, 12].contains kind then some none
  else none

/-- The size in the entries of a TIFF directory, of which `width?` and `height?` were found so
far. -/
def ofEntries? (number : List UInt8 → Nat) (width? height? : Option Nat) :
    Nat → List UInt8 → Option Dimensions
  | 0, _ => none
  | count + 1, s => do
    let tag := number (← slice? s 0 2)
    let value? ← entryValue? number (number (← slice? s 2 2)) (← slice? s 8 4)
    let width? := if tag = 0x100 then value? else width?
    let height? := if tag = 0x101 then value? else height?
    match width?, height? with
    | some w, some h => return ⟨w, h⟩
    | _, _ => ofEntries? number width? height? count (s.drop 12)

/-- The size in the first directory of a TIFF picture. -/
def ofTiff? (s : List UInt8) : Option Dimensions := do
  let number := if s.take 1 == [0x49] then littleEndian else bigEndian
  let place := number (← slice? s 4 4)
  if place = 0 then none
  let count := number (← slice? s place 2)
  ofEntries? number none none count (s.drop (place + 2))

/-- The sizes in the entries of an ICO picture, as many as are there. -/
def icons (count : Nat) (s : List UInt8) : List Dimensions :=
  let side (b : UInt8) : Nat := if b = 0 then 256 else b.toNat
  match count, s with
  | count + 1, w :: h :: r => ⟨side w, side h⟩ :: icons count (r.drop 14)
  | _, _ => []

/-- The size that the first two words of a line give. -/
def ofLine? (line : List Char) : Option Dimensions :=
  let isInside (c : Char) : Bool := !Text.isLayout c
  let first := line.takeWhile isInside
  let second := ((line.dropWhile isInside).dropWhile Text.isLayout).takeWhile isInside
  if !first.isEmpty && !second.isEmpty && (first ++ second).all Char.isDigit then
    some ⟨Decimal.ofDigits first, Decimal.ofDigits second⟩
  else none

/-- The size in the first line of a PNM picture that is neither empty nor a remark. -/
def ofPnm? (s : List UInt8) : Option Dimensions :=
  let text := (s.drop 2).map fun b => Char.ofNat b.toNat
  let lines := (text.splitOn '\n').map (·.dropWhile Text.isLayout)
  (lines.find? fun line => !line.isEmpty && line.head? ≠ some '#').bind ofLine?

/-- The greater of two sizes; of two with the same number of pixels it is the second. -/
def greater (d e : Dimensions) : Dimensions :=
  if e.area < d.area then d else e

/-- The greatest size in an ICO picture. -/
def ofIco? (s : List UInt8) : Option Dimensions := do
  match icons (littleEndian (← slice? s 4 2)) (s.drop 6) with
  | [] => none
  | d :: ds => return ds.foldl greater d

end Dimensions

/-! ### Formats -/

/-- The formats of pictures whose size can be told. -/
inductive Format where
  | jpeg
  | png
  | gif
  | tiff
  | webp
  | bmp
  | psd
  | ico
  | aseprite
  | ktx
  | pnm
  | qoi
  | vtf
  | farbfeld
  | dds
  deriving DecidableEq, Repr

namespace Format

/-- All formats. -/
def all : List Format :=
  [jpeg, png, gif, tiff, webp, bmp, psd, ico, aseprite, ktx, pnm, qoi, vtf, farbfeld, dds]

/-- The bytes of a text in ASCII. -/
def ascii (text : String) : List UInt8 :=
  text.toList.map fun c => UInt8.ofNat c.toNat

/-- The bytes by which pictures are known to have a format, each with its place. Any row of them is
enough. -/
def signatures : Format → List (List (Nat × List UInt8))
  | jpeg => [[(0, [0xFF, 0xD8, 0xFF])]]
  | png => [[(0, 0x89 :: ascii "PNG")]]
  | gif => [[(0, ascii "GIF8")]]
  | tiff => [[(0, ascii "II*\x00")], [(0, ascii "MM\x00*")]]
  | webp => [[(0, ascii "RIFF"), (8, ascii "WEBP")]]
  | bmp => [[(0, ascii "BM")]]
  | psd => [[(0, ascii "8BPS")]]
  | ico => [[(0, [0, 0, 1, 0])]]
  | aseprite => [[(4, [0xE0, 0xA5])]]
  | ktx => [[(0, 0xAB :: ascii "KTX 20" ++ 0xBB :: ascii "\r\n\x1a\n")]]
  | pnm => (List.range 6).flatMap fun n =>
    [[(0, ascii s!"P{n + 1} ")], [(0, ascii s!"P{n + 1}\n")]]
  | qoi => [[(0, ascii "qoif")]]
  | vtf => [[(0, ascii "VTF\x00")]]
  | farbfeld => [[(0, ascii "farbfeld")]]
  | dds => [[(0, ascii "DDS ")]]

/-- Whether some bytes have one of the signatures of a format. -/
def isFormatOf (f : Format) (s : List UInt8) : Bool :=
  f.signatures.any fun row => row.all fun (place, bytes) =>
    (s.drop place).take bytes.length == bytes

/-- The format of a picture. No picture has less than twelve bytes. -/
def ofBytes? (s : List UInt8) : Option Format :=
  if s.length < 12 then none else all.find? (·.isFormatOf s)

/-- The size of a picture in a format. -/
def size? (f : Format) (s : List UInt8) : Option Dimensions :=
  match f with
  | jpeg => Dimensions.ofSegments? 0 (s.drop 2)
  | png => Dimensions.pair? Dimensions.bigEndian 16 4 s
  | gif => Dimensions.pair? Dimensions.littleEndian 6 2 s
  | tiff => Dimensions.ofTiff? s
  | webp => Dimensions.ofWebp? s
  | bmp => Dimensions.pair? Dimensions.littleEndian 18 4 s
  | psd => (Dimensions.pair? Dimensions.bigEndian 14 4 s).map Dimensions.turned
  | ico => Dimensions.ofIco? s
  | aseprite => Dimensions.pair? Dimensions.littleEndian 8 2 s
  | ktx => Dimensions.pair? Dimensions.littleEndian 20 4 s
  | pnm => Dimensions.ofPnm? s
  | qoi => Dimensions.pair? Dimensions.bigEndian 4 4 s
  | vtf => Dimensions.pair? Dimensions.littleEndian 16 2 s
  | farbfeld => Dimensions.pair? Dimensions.bigEndian 8 4 s
  | dds => (Dimensions.pair? Dimensions.littleEndian 12 4 s).map Dimensions.turned

end Format

end Iconsmith.Raster
