import Iconsmith.Svg.Measure

/-!
# Placements

Where something is drawn is written as a list of steps such as `translate(2 3) scale(2)`, of which
the last one is applied first. Steps are multiplied in double precision; the product, and what is
made of it further on, has single precision.
-/

namespace Iconsmith.Svg.Placement

/-- The numbers between parentheses, and what follows the comma after them. -/
def readArguments? (s : List Char) : Option (List Float × List Char) :=
  match s.dropWhile Text.isLayout with
  | ')' :: r => some ([], afterItem r)
  | _ =>
    match _h : readItem? s with
    | none => none
    | some (x, r) => do
      let (xs, r) ← readArguments? r
      return (x :: xs, r)
termination_by s.length
decreasing_by
  exact length_readItem?_lt _h

/-- The maps of a step, by its name and its numbers. Angles are in degrees. A turn about a point
is three maps. -/
def step? : String → List Float → Option (List (Affine Float))
  | "matrix", [a, b, c, d, e, f] => some [⟨⟨a, b⟩, ⟨c, d⟩, ⟨e, f⟩⟩]
  | "translate", [x] => some [Affine.shift ⟨x, 0⟩]
  | "translate", [x, y] => some [Affine.shift ⟨x, y⟩]
  | "scale", [k] => some [Affine.stretch ⟨k, k⟩]
  | "scale", [x, y] => some [Affine.stretch ⟨x, y⟩]
  | "rotate", [a] => some [Affine.turn (Scalar.radians a)]
  | "rotate", [a, x, y] =>
    some [Affine.shift ⟨x, y⟩, Affine.turn (Scalar.radians a), Affine.shift ⟨-x, -y⟩]
  | "skewX", [a] => some [⟨⟨1, 0⟩, ⟨Float.tan (Scalar.radians a), 1⟩, ⟨0, 0⟩⟩]
  | "skewY", [a] => some [⟨⟨1, Float.tan (Scalar.radians a)⟩, ⟨0, 1⟩, ⟨0, 0⟩⟩]
  | _, _ => none

/-- The maps of the first step of a text, and the rest. -/
def readStep? (s : List Char) : Option (List (Affine Float) × List Char) := do
  let name := s.takeWhile isNameChar
  match (s.dropWhile isNameChar).dropWhile Text.isLayout with
  | '(' :: r => do
    let (arguments, r) ← readArguments? r
    return (← step? (String.ofList name) arguments, r)
  | _ => none

theorem length_readArguments?_le {s r : List Char} {xs : List Float}
    (h : readArguments? s = some (xs, r)) : r.length ≤ s.length := by
  induction hn : s.length using Nat.strongRecOn generalizing s xs r with
  | ind n ih =>
    have hs := (List.dropWhile_sublist Text.isLayout (l := s)).length_le
    rw [readArguments?] at h
    split at h
    · rename_i t ht
      simp only [Option.some.injEq, Prod.mk.injEq] at h
      obtain ⟨-, rfl⟩ := h
      have h₁ := length_afterItem_le t
      rw [ht] at hs
      simp only [List.length_cons] at hs
      omega
    · split at h
      · contradiction
      · rename_i x t ht
        have h₁ := length_readItem?_lt ht
        simp only [Option.bind_eq_bind, Option.bind_eq_some_iff, Option.pure_def,
          Option.some.injEq, Prod.mk.injEq, Prod.exists] at h
        obtain ⟨ys, u, hys, -, rfl⟩ := h
        have := ih t.length (by omega) hys rfl
        omega

theorem length_readStep?_lt {s r : List Char} {ms : List (Affine Float)}
    (h : readStep? s = some (ms, r)) : r.length < s.length := by
  have h₁ := (List.dropWhile_sublist isNameChar (l := s)).length_le
  have h₂ := (List.dropWhile_sublist Text.isLayout (l := s.dropWhile isNameChar)).length_le
  simp only [readStep?] at h
  split at h
  · rename_i t ht
    simp only [Option.bind_eq_bind, Option.bind_eq_some_iff, Option.pure_def, Option.some.injEq,
      Prod.mk.injEq, Prod.exists] at h
    obtain ⟨xs, u, hu, _, -, -, rfl⟩ := h
    have h₃ := length_readArguments?_le hu
    rw [ht] at h₂
    simp only [List.length_cons] at h₂
    omega
  · contradiction

/-- The maps of a list of steps. -/
def readSteps? (s : List Char) : Option (List (Affine Float)) :=
  match _hs : s.dropWhile Text.isLayout with
  | [] => some []
  | c :: t =>
    match _h : readStep? (c :: t) with
    | none => none
    | some (ms, r) => do
      let more ← readSteps? r
      return ms ++ more
termination_by s.length
decreasing_by
  have h₁ := length_readStep?_lt _h
  have h₂ := (List.dropWhile_sublist Text.isLayout (l := s)).length_le
  rw [_hs] at h₂
  omega

/-- The map that a text gives. -/
def ofText? (text : String) : Option (Affine Float32) :=
  (readSteps? text.toList).map fun steps =>
    (steps.foldl (· * ·) Affine.identity).map Single.ofDouble

/-! ### Single precision -/

/-- The coefficients of a map. -/
def coefficients (m : Affine Float32) : List Float32 :=
  [m.xAxis.x, m.xAxis.y, m.yAxis.x, m.yAxis.y, m.origin.x, m.origin.y]

/-- The distance from one to the next number of single precision. -/
def epsilon : Float32 := 1.1920929e-7

/-- Whether a map squeezes nothing to a line. -/
def isUsable (m : Affine Float32) : Bool :=
  (coefficients m).all Float32.isFinite
    && decide (epsilon < Float32.sqrt (m.xAxis.x * m.xAxis.x + m.yAxis.x * m.yAxis.x))
    && decide (epsilon < Float32.sqrt (m.xAxis.y * m.xAxis.y + m.yAxis.y * m.yAxis.y))

/-- Whether a map turns or slants the axes. -/
def isSkewed (m : Affine Float32) : Bool :=
  m.xAxis.y != 0 || m.yAxis.x != 0

/-- The sum of two products, which is rounded once. -/
def sumOfProducts (a b c d : Float32) : Float32 :=
  Single.ofDouble
    (Single.toDouble a * Single.toDouble b + Single.toDouble c * Single.toDouble d)

/-- The image of a vector, each coordinate rounded once. -/
def applyVector (m : Affine Float32) (v : Point Float32) : Point Float32 :=
  ⟨sumOfProducts m.xAxis.x v.x m.yAxis.x v.y, sumOfProducts m.xAxis.y v.x m.yAxis.y v.y⟩

/-- The map that first applies `b` and then `a`. -/
def compose (a b : Affine Float32) : Affine Float32 :=
  if a == Affine.identity then b
  else if b == Affine.identity then a
  else if !isSkewed a && !isSkewed b then
    { xAxis := ⟨a.xAxis.x * b.xAxis.x, 0⟩
      yAxis := ⟨0, a.yAxis.y * b.yAxis.y⟩
      origin :=
        ⟨a.xAxis.x * b.origin.x + a.origin.x,
         a.yAxis.y * b.origin.y + a.origin.y⟩ }
  else
    { xAxis := applyVector a b.xAxis
      yAxis := applyVector a b.yAxis
      origin := applyVector a b.origin + a.origin }

end Iconsmith.Svg.Placement
