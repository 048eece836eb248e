import Iconsmith.Decimal.Shortest

/-!
# Number text

A double is written with the fewest digits that read back to it. How these digits are laid out is
a `Style`: `plain` for path data and markup, `literal` for generated source.
-/

namespace Iconsmith.Decimal

/-- How a number is laid out. -/
structure Style where
  /-- Whether a number whose leading digit stands for `10 ^ e` is written without an exponent. -/
  positional : Int → Bool
  /-- Whether a whole number ends in `.0`. -/
  wholePoint : Bool

namespace Style

/-- Never an exponent, and no point in a whole number. -/
def plain : Style where
  positional _ := true
  wholePoint := false

/-- Always a point or an exponent, with an exponent below `0.0001` and from `10 ^ 16` on. -/
def literal : Style where
  positional e := decide (-4 ≤ e) && decide (e < 16)
  wholePoint := true

/-- Digits `ds` times `10 ^ e`, with the point in its place. -/
def layPositional (s : Style) (ds : List Char) (e : Int) : List Char :=
  if 0 ≤ e then
    ds ++ List.replicate e.toNat '0' ++ (if s.wholePoint then ['.', '0'] else [])
  else
    let places := (-e).toNat
    if places < ds.length then
      ds.take (ds.length - places) ++ '.' :: ds.drop (ds.length - places)
    else
      '0' :: '.' :: (List.replicate (places - ds.length) '0' ++ ds)

/-- Digits `ds` times `10 ^ e`, with the point after the first digit. -/
def layScientific (ds : List Char) (e : Int) : List Char :=
  let fraction := if ds.length ≤ 1 then [] else '.' :: ds.drop 1
  ds.take 1 ++ fraction ++ 'e' :: (toString (e + ds.length - 1)).toList

/-- The text of a decimal. -/
def layOut (s : Style) (d : Decimal) : List Char :=
  let ds := Nat.toDigits 10 d.digits
  if s.positional (d.exponent + ds.length - 1) then s.layPositional ds d.exponent
  else layScientific ds d.exponent

/-- The text of a double, signed also when it is zero. -/
def chars (s : Style) (x : Float) : List Char :=
  if x.isNaN then ['N', 'a', 'N']
  else
    let sign := if x.toBits.toNat < 0x8000000000000000 then [] else ['-']
    sign ++ if x.isFinite then s.layOut (shortest x.abs) else ['i', 'n', 'f']

/-- The text of a double, as a string. -/
def text (s : Style) (x : Float) : String :=
  String.ofList (s.chars x)

/-- The text of a double whose zero carries no sign. -/
def unsignedZero (s : Style) (x : Float) : String :=
  s.text (if x == 0 then 0 else x)

end Style

end Iconsmith.Decimal
