import Iconsmith.Graphic.Basic
import Iconsmith.Source.Basic

/-!
# Finite graphics

Source text can only express finite numbers. `checkFinite` goes through a graphic from the top and
stops at the first number that is infinite or undefined.
-/

namespace Iconsmith.Source

/-- Accepts finite numbers. -/
def checkNumber (quantity : Quantity) (x : Float) : Except Error Unit :=
  if x.isFinite then .ok () else .error (.nonFinite x quantity)

/-- Accepts lists of finite numbers. -/
def checkNumbers (quantity : Quantity) (xs : List Float) : Except Error Unit :=
  xs.forM (checkNumber quantity)

/-- Accepts fills of finite numbers. -/
def checkFill (f : Fill Float) : Except Error Unit := do
  checkNumbers .gradientStop (f.stops.map (·.offset))
  match f with
  | .solid _ => return
  | .linear _ start finish =>
    checkNumbers .linearGradient [start.x, start.y, finish.x, finish.y]
  | .radial _ center radius => checkNumbers .radialGradient [center.x, center.y, radius]

/-- Accepts paths of finite numbers. -/
def checkPath (p : Path Float) : Except Error Unit := do
  checkNumbers .pathData (p.commands.flatMap Command.numbers)
  checkNumber .fillAlpha p.fillAlpha
  checkNumber .strokeAlpha p.strokeAlpha
  checkNumber .strokeMiter p.miter
  p.strokeWidth.forM fun w => checkNumber .strokeWidth w.value
  p.fill.forM checkFill

mutual

/-- Accepts nodes of finite numbers. -/
def checkNode : Node Float → Except Error Unit
  | .group _ transform children => do
    checkNumbers .groupTransform transform.numbers
    checkNodes children
  | .path p => checkPath p

/-- Accepts lists of nodes of finite numbers. -/
def checkNodes : List (Node Float) → Except Error Unit
  | [] => return
  | n :: ns => do
    checkNode n
    checkNodes ns

end

/-- Accepts graphics of finite numbers. -/
def checkFinite (g : Graphic Float) : Except Error Unit := do
  checkNumber .width g.width.value
  checkNumber .height g.height.value
  checkNumbers .viewport [g.viewport.x, g.viewport.y]
  checkNodes g.nodes

end Iconsmith.Source
