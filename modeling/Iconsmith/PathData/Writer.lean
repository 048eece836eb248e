import Iconsmith.Decimal.Style
import Iconsmith.Graphic.Command

/-!
# Writing path data

A command is written as its letter and its operands with spaces between them, so that `M0 0L10 10Z`
needs no space before a letter.
-/

namespace Iconsmith

/-- The text of an operand. -/
def Operand.text : Operand Float → String
  | .number x => Decimal.Style.plain.unsignedZero x
  | .flag on => if on then "1" else "0"

/-- The text of a command. -/
def Command.text (c : Command Float) : String :=
  String.singleton c.letter ++ " ".intercalate (c.operands.map Operand.text)

/-- The path data of a list of commands. -/
def PathData.write (cs : List (Command Float)) : String :=
  String.join (cs.map Command.text)

end Iconsmith
