import Iconsmith.Svg.Bounds

/-!
# Fitting rectangles

How a rectangle is put into another one that may have other proportions. Either each side is
stretched, or the rectangle keeps its proportions: it is made as large as possible inside the other
one, or as small as possible around it, and put where an alignment says.
-/

namespace Iconsmith.Svg

/-- Where something is put in the room along a side. -/
inductive Alignment where
  | start
  | middle
  | finish
  deriving DecidableEq, Repr

/-- The place of something in a given room that begins at `x`. -/
def Alignment.place (x room : Float32) : Alignment → Float32
  | start => x
  | middle => x + room / 2
  | finish => x + room

/-- How a rectangle is fitted into another one. -/
structure Fitting where
  /-- The alignments across and down. Without them the sides are stretched. -/
  alignment : Option (Alignment × Alignment)
  /-- Whether the rectangle covers the other one. -/
  covers : Bool
  deriving DecidableEq, Repr

namespace Fitting

/-- Inside the other rectangle and in the middle of it. -/
def default : Fitting := ⟨some (.middle, .middle), false⟩

/-! ### Reading -/

/-- The alignments that a word names. -/
def alignmentOf? : String → Option (Option (Alignment × Alignment))
  | "none" => some none
  | "xMinYMin" => some (some (.start, .start))
  | "xMidYMin" => some (some (.middle, .start))
  | "xMaxYMin" => some (some (.finish, .start))
  | "xMinYMid" => some (some (.start, .middle))
  | "xMidYMid" => some (some (.middle, .middle))
  | "xMaxYMid" => some (some (.finish, .middle))
  | "xMinYMax" => some (some (.start, .finish))
  | "xMidYMax" => some (some (.middle, .finish))
  | "xMaxYMax" => some (some (.finish, .finish))
  | _ => none

/-- The fitting that a text gives. A leading `defer` means nothing here. -/
def ofText? (text : String) : Option Fitting := do
  let s := text.toList.dropWhile Text.isLayout
  let s ← match Text.dropLeading? "defer".toList s with
    | some (' ' :: r) => some (r.dropWhile Text.isLayout)
    | some _ => none
    | none => some s
  let alignment ← alignmentOf? (String.ofList (s.takeWhile isNameChar))
  let s := (s.dropWhile isNameChar).dropWhile Text.isLayout
  match String.ofList (s.takeWhile isNameChar) with
  | "" | "meet" => return ⟨alignment, false⟩
  | "slice" => return ⟨alignment, true⟩
  | _ => none

/-! ### Maps -/

variable (f : Fitting)

/-- The corner at which something is put that leaves the given room. -/
def corner (low room : Point Float32) : Point Float32 :=
  match f.alignment with
  | none => low
  | some (across, down) => ⟨across.place low.x room.x, down.place low.y room.y⟩

/-- By how much each side of a rectangle grows when it becomes as large as `size`. -/
def growth (box : Bounds) (size : Point Float32) : Point Float32 :=
  let x := size.x / box.size.x
  let y := size.y / box.size.y
  match f.alignment with
  | none => ⟨x, y⟩
  | some _ =>
    let k := if f.covers then Bounds.greater x y else Bounds.lesser x y
    ⟨k, k⟩

/-- The map that fits a rectangle into one of the given size at the origin. -/
def map (box : Bounds) (size : Point Float32) : Affine Float32 :=
  let k := f.growth box size
  { xAxis := ⟨k.x, 0⟩
    yAxis := ⟨0, k.y⟩
    origin := f.corner ⟨-box.low.x * k.x, -box.low.y * k.y⟩
      ⟨size.x - box.size.x * k.x, size.y - box.size.y * k.y⟩ }

/-- The size that a rectangle has when it is fitted into one of size `room`. -/
def fittedSize (size room : Point Float32) : Point Float32 :=
  match f.alignment with
  | none => room
  | some _ =>
    let width := room.y * size.x / size.y
    if if f.covers then width ≤ room.x else room.x ≤ width then
      ⟨room.x, room.x * size.y / size.x⟩
    else ⟨width, room.y⟩

/-- The rectangle that something of a given size becomes when it is fitted into another one. -/
def rectangle (size : Point Float32) (room : Bounds) : Bounds :=
  let fitted := f.fittedSize size room.size
  let low := f.corner room.low (room.size - fitted)
  ⟨low, fitted + low⟩

end Fitting

end Iconsmith.Svg
