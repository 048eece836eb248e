import Iconsmith.Decimal.Numeral
import Iconsmith.Plane.Affine
import Iconsmith.Plane.Precision
import Iconsmith.Text.Blank

/-!
# Numbers and measures

The numbers in an SVG document are finite. In a list they are kept apart by layout, or by a comma
after a number. A `Measure` is a number with a unit; percentages refer to the size of the view.
-/

namespace Iconsmith.Svg

/-- Whether what follows a mantissa begins with an `e` that is neither the mark of an exponent nor
the start of a unit. -/
def hasLooseExponent : List Char → Bool
  | [] => false
  | c :: s =>
    (c = 'e' || c = 'E') && s.head? ≠ some 'm' && s.head? ≠ some 'x'
      && (Numeral.readExponent (c :: s)).2 == c :: s

/-- The number at the start of a text. Layout may come before it. -/
def readNumber? (s : List Char) : Option (Float × List Char) := do
  let s := s.dropWhile Text.isLayout
  let (_, _, tail) ← Numeral.readMantissa? (Numeral.readSign s).2
  let (n, r) ← Numeral.read? s
  if hasLooseExponent tail || !n.toFloat.isFinite then none else some (n.toFloat, r)

/-- What comes after a number of a list: layout and at most one comma. -/
def afterItem (s : List Char) : List Char :=
  match s.dropWhile Text.isLayout with
  | ',' :: r => r
  | r => r

/-- The number at the start of a list, and the rest of the list. -/
def readItem? (s : List Char) : Option (Float × List Char) := do
  let (x, r) ← readNumber? s
  return (x, afterItem r)

/-- The first numbers of a list, as many as asked for. -/
def readItems? : Nat → List Char → Option (List Float × List Char)
  | 0, s => some ([], s)
  | n + 1, s => do
    let (x, r) ← readItem? s
    let (xs, r) ← readItems? n r
    return (x :: xs, r)

/-! ### Items take up room -/

theorem length_readNumber?_lt {s r : List Char} {x : Float} (h : readNumber? s = some (x, r)) :
    r.length < s.length := by
  simp only [readNumber?, Option.bind_eq_bind, Option.bind_eq_some_iff, Prod.exists] at h
  obtain ⟨_, _, _, -, n, t, hn, ht⟩ := h
  have h₁ := Numeral.length_read?_lt hn
  have h₂ := (List.dropWhile_sublist Text.isLayout (l := s)).length_le
  split at ht
  · contradiction
  · simp only [Option.some.injEq, Prod.mk.injEq] at ht
    obtain ⟨-, rfl⟩ := ht
    omega

theorem length_afterItem_le (s : List Char) : (afterItem s).length ≤ s.length := by
  have h := (List.dropWhile_sublist Text.isLayout (l := s)).length_le
  unfold afterItem
  split
  · rename_i r heq
    rw [heq] at h
    simp only [List.length_cons] at h
    omega
  · exact h

theorem length_readItem?_lt {s r : List Char} {x : Float} (h : readItem? s = some (x, r)) :
    r.length < s.length := by
  simp only [readItem?, Option.bind_eq_bind, Option.bind_eq_some_iff, Option.pure_def,
    Option.some.injEq, Prod.mk.injEq, Prod.exists] at h
  obtain ⟨y, t, hy, -, rfl⟩ := h
  exact Nat.lt_of_le_of_lt (length_afterItem_le t) (length_readNumber?_lt hy)

/-! ### Values of attributes -/

/-- The characters of which names of functions and colors are made. -/
def isNameChar (c : Char) : Bool :=
  c.isAlphanum || c = '-' || c = '_'

/-- The number that is all of a text. -/
def numberOf? (text : String) : Option Float :=
  match readNumber? text.toList with
  | some (x, r) => if r.all Text.isLayout then some x else none
  | none => none

/-- The units of measures. -/
inductive MeasureUnit where
  /-- The unit of coordinates, which has no name. -/
  | user
  /-- The unit of coordinates, by name. -/
  | px
  /-- The size of letters. -/
  | em
  /-- Half the size of letters. -/
  | ex
  | inch
  | cm
  | mm
  | pt
  | pc
  | percent
  deriving DecidableEq, Repr

/-- The unit at the start of a text, and the rest. -/
def MeasureUnit.read : List Char → MeasureUnit × List Char
  | '%' :: s => (percent, s)
  | 'p' :: 'x' :: s => (px, s)
  | 'e' :: 'm' :: s => (em, s)
  | 'e' :: 'x' :: s => (ex, s)
  | 'i' :: 'n' :: s => (inch, s)
  | 'c' :: 'm' :: s => (cm, s)
  | 'm' :: 'm' :: s => (mm, s)
  | 'p' :: 't' :: s => (pt, s)
  | 'p' :: 'c' :: s => (pc, s)
  | s => (user, s)

/-- A number with a unit. -/
structure Measure where
  amount : Float
  unit : MeasureUnit
  deriving Repr

namespace Measure

/-- A measure in the unit of coordinates. -/
def user (amount : Float) : Measure := ⟨amount, .user⟩

/-- A measure in hundredths of the view. -/
def percent (amount : Float) : Measure := ⟨amount, .percent⟩

/-- The measure at the start of a text, and the rest. -/
def read? (s : List Char) : Option (Measure × List Char) := do
  let (amount, r) ← readNumber? s
  let (unit, r) := MeasureUnit.read r
  return (⟨amount, unit⟩, r)

/-- The measure that is all of a text. Layout may come before it, but nothing after it. -/
def ofText? (text : String) : Option Measure :=
  match read? text.toList with
  | some (m, []) => some m
  | _ => none

/-- The size of letters. -/
def letterSize : Float32 := 12

/-- The number of units of coordinates to the inch. -/
def perInch : Float32 := 96

/-- A measure in the unit of coordinates, where `whole` is what a hundred percent are. -/
def resolve (m : Measure) (whole : Float32) : Float32 :=
  let n := Single.ofDouble m.amount
  match m.unit with
  | .user | .px => n
  | .em => n * letterSize
  | .ex => n * letterSize / 2
  | .inch => n * perInch
  | .cm => n * perInch / 2.54
  | .mm => n * perInch / 25.4
  | .pt => n * perInch / 72
  | .pc => n * perInch / 6
  | .percent => whole * n / 100

end Measure

/-- A number no less than zero and no greater than one that is nearest to a given one. Without a
nearest one it is zero. -/
def clamped (x : Float32) : Float32 :=
  if !x.isFinite || x ≤ 0 then 0 else if 1 < x then 1 else x

/-- The opacity that a text gives, as a number or in percent. -/
def opacityOf? (text : String) : Option Float32 := do
  let m ← Measure.ofText? text
  match m.unit with
  | .user => some (clamped (Single.ofDouble m.amount))
  | .percent => some (clamped (Single.ofDouble m.amount / 100))
  | _ => none

/-- Whether a measured size is one that something can have. -/
def isExtent (x : Float32) : Bool :=
  decide (0 < x) && x.isFinite

end Iconsmith.Svg
