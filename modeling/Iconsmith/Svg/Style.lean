import Iconsmith.Svg.Contour
import Iconsmith.Svg.Gradient
import Iconsmith.Svg.Picture

/-!
# Styles

What a shape is painted with is a color, or a gradient or pattern that is defined elsewhere in the
document, with a color to fall back on. Opacities multiply.
-/

namespace Iconsmith.Svg

/-! ### Values -/

/-- A paint that needs no other element. -/
inductive PlainPaint where
  | absent
  | tint (t : Tint)
  /-- The value of the attribute `color`. -/
  | current

/-- What a paint attribute says. -/
inductive PaintValue where
  | plain (p : PlainPaint)
  /-- A paint that is defined elsewhere, and what to use where it is not. -/
  | server (id : String) (otherwise : PlainPaint)

/-- The plain paint that a text gives. -/
def PlainPaint.ofText? (text : String) : Option PlainPaint :=
  match text with
  | "none" => some .absent
  | "currentColor" => some .current
  | _ => (Tint.ofText? text).map .tint

/-- The identifier in a reference `url(#id)`, and what comes after it. Between quotes an identifier
may hold spaces and parentheses. -/
def readReference? (s : List Char) : Option (String × List Char) := do
  let r ← Text.dropLeading? "url(".toList s
  let r := r.dropWhile Text.isLayout
  let quote := (r.take 1).filter fun c => c = '\'' || c = '"'
  let r ← Text.dropLeading? ['#'] ((r.drop quote.length).dropWhile Text.isLayout)
  let isInside (c : Char) : Bool :=
    if quote.isEmpty then c ≠ ' ' && c ≠ ')' else !quote.contains c
  let id := r.takeWhile isInside
  let id := if quote.isEmpty then id else (id.reverse.dropWhile Text.isBlank).reverse
  let r ← Text.dropLeading? quote (r.dropWhile isInside)
  let r ← Text.dropLeading? [')'] (r.dropWhile Text.isLayout)
  if id.isEmpty || id.contains '\'' || id.contains '"' then none else some (String.ofList id, r)

/-- The paint value that a text gives. Values that refer to the surroundings of a shape have nothing
to refer to. -/
def PaintValue.ofText? (text : String) : Option PaintValue :=
  let s := Text.trim text.toList
  match String.ofList s with
  | "inherit" | "context-fill" | "context-stroke" => some (.plain .absent)
  | trimmed =>
    match Text.dropLeading? "url(".toList s with
    | none => (PlainPaint.ofText? trimmed).map .plain
    | some _ => do
      let (id, r) ← readReference? s
      match r.dropWhile Text.isLayout with
      | [] => return .server id .absent
      | r => return .server id (← PlainPaint.ofText? (String.ofList r))

/-! ### Paint servers -/

/-- The document around a shape. -/
structure Setting where
  root : Xml.Node
  /-- The size to which percentages refer. -/
  view : Point Float32
  pictures : PictureSizes

/-- The outline that an element draws, tidied up. It has at least two segments and is finite. -/
def contour? (s : Setting) (n : Xml.Node) : Option (List (Segment Float32)) :=
  let outline :=
    if n.localName = "path" then ((attribute? n "d").map Contour.ofPathData).getD []
    else if n.localName = "rect" then
      let size : Point Float32 :=
        ⟨measure n "width" s.view.x (.user 0), measure n "height" s.view.y (.user 0)⟩
      let low : Point Float32 :=
        ⟨measure n "x" s.view.x (.user 0), measure n "y" s.view.y (.user 0)⟩
      if isExtent size.x && isExtent size.y then Contour.rectangle low (size + low) else []
    else []
  if 2 ≤ outline.length && (Bounds.ofControls? outline).isSome then some outline else none

/-- The picture that an element embeds. -/
def picture? (s : Setting) (n : Xml.Node) : Option Picture :=
  if n.localName = "image" then Picture.ofElement? s.pictures s.view n else none

/-- Whether an element groups others. -/
def isGroup (n : Xml.Node) : Bool :=
  n.localName = "g" || n.localName = "a" || n.localName = "svg"

/-- Whether an element counts as something drawn even if nothing of it can be seen. -/
def leavesTrace (n : Xml.Node) : Bool :=
  n.localName = "g" || n.localName = "a"
    || (["image", "path", "rect", "svg", "text"].contains n.localName
      && placement n "transform" != Affine.identity)

mutual

/-- Whether an element draws anything. -/
def draws (s : Setting) : Xml.Node → Bool
  | n@(.element _ _ children) =>
    isSvgElement n && isShown n
      && (leavesTrace n || (contour? s n).isSome || (picture? s n).isSome
        || (isGroup n && drawsAny s children))
  | _ => false

/-- Whether any of some nodes draws anything. -/
def drawsAny (s : Setting) : List Xml.Node → Bool
  | [] => false
  | n :: ns => draws s n || drawsAny s ns

end

/-- A pattern, which needs a size and something to draw. -/
def pattern? (s : Setting) (n : Xml.Node) : Option Server :=
  let units := Units.ofAttribute n "patternUnits" .box
  let low := units.point s.view n "x" "y" (.user 0) (.user 0)
  let size := units.point s.view n "width" "height" (.user 0) (.user 0)
  if drawsAny s n.children && Bounds.isProper ⟨low, size + low⟩ then
    some ⟨units, Units.ofAttribute n "patternContentUnits" .shape, 1, fun _ => .pattern⟩
  else none

/-- Whether an element defines a paint. -/
def isServer (n : Xml.Node) : Bool :=
  ["linearGradient", "radialGradient", "pattern"].contains n.localName

/-- The paint that an element defines. -/
def server? (s : Setting) (n : Xml.Node) (around : Chain) : Option Server :=
  match n.localName with
  | "linearGradient" => Gradient.linear? s.view n around
  | "radialGradient" => Gradient.radial? s.view n around
  | "pattern" => pattern? s n
  | _ => none

/-! ### Paints of shapes -/

/-- A paint with an opacity. It may come to nothing. -/
abbrev Coat := Option Paint × Float32

/-- The paint of a plain value. -/
def PlainPaint.coat? (c : Chain) : PlainPaint → Option Coat
  | absent => none
  | tint t => some (some (.color t.color), t.opacity)
  | current =>
    let t := inherited c "color" Tint.ofText? Tint.black
    some (some (.color t.color), t.opacity)

/-- The paint of a value. An element that defines no paint paints nothing, but where there is no
element or its paint cannot be used, there may be something to fall back on. -/
def PaintValue.coat? (s : Setting) (c : Chain) (e : Extent) : PaintValue → Option Coat
  | plain p => p.coat? c
  | server id otherwise =>
    match withId? s.root id with
    | none => otherwise.coat? c
    | some (n, around) =>
      if isServer n then
        let own? := do
          let v ← server? s n around
          return (← v.paintFor? e, v.opacity)
        own?.or (otherwise.coat? c)
      else none

/-- The paint in an attribute, or that of a default where the attribute is not there, or where it
cannot be read. -/
def coat? (s : Setting) (c : Chain) (e : Extent) (name : String) (default : PlainPaint) :
    Option Coat :=
  let c := holder c name
  (inherited c name PaintValue.ofText? (.plain default)).coat? s c e

/-- How the interior of an element is painted, which may come to nothing. -/
def interior? (s : Setting) (c : Chain) (e : Extent) : Option (Option Interior) := do
  let (paint?, opacity) ← coat? s c e "fill" (.tint Tint.black)
  return paint?.map fun paint => {
    paint := paint
    opacity := Single.toDouble (clamped (opacity * inherited c "fill-opacity" opacityOf? 1))
    rule := inherited c "fill-rule" ruleOf? .nonZero }
where
  /-- The rule that a text names. -/
  ruleOf? : String → Option FillRule
    | "nonzero" => some .nonZero
    | "evenodd" => some .evenOdd
    | _ => none

/-- The join that a text names. A clipped miter is drawn like any other. -/
def joinOf? (text : String) : Option LineJoin :=
  if text = "miter-clip" then some .miter else LineJoin.ofName? text

/-- The line along an element, which may come to nothing. It has a width. -/
def stroke? (s : Setting) (c : Chain) (e : Extent) : Option (Option Stroke) := do
  let (paint?, opacity) ← coat? s c e "stroke" .absent
  let width := (inherited c "stroke-width" Measure.ofText? (.user 1)).resolve (diagonal s.view)
  if !isExtent width then none
  let miter := Single.ofDouble (inherited c "stroke-miterlimit" numberOf? 4)
  return paint?.map fun paint => {
    paint := paint
    opacity := Single.toDouble (clamped (opacity * inherited c "stroke-opacity" opacityOf? 1))
    width := Single.toDouble width
    cap := inherited c "stroke-linecap" LineCap.ofName? .butt
    join := inherited c "stroke-linejoin" joinOf? .miter
    miter := Single.toDouble (if miter < 1 then 1 else miter) }

end Iconsmith.Svg
