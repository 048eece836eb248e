/-!
# Laying out code

Code is laid out in lines, where what is inside a block is indented by four spaces.
-/

namespace Iconsmith.Source

/-- Indents all lines that are not empty. -/
def indent (lines : List String) : List String :=
  lines.map fun l => if l.isEmpty then l else "    " ++ l

/-- Lines between braces, the first of which follows a head. -/
def block (head : String) (inside : List String) : List String :=
  (head ++ " \x7b") :: indent inside ++ ["\x7d"]

/-- The lines as a text, with line feeds between them. -/
def textOf (lines : List String) : String :=
  "\n".intercalate lines

/-- The parts of a list of expressions or names, with commas between them. -/
def commaList (parts : List String) : String :=
  ", ".intercalate parts

theorem indent_append (xs ys : List String) : indent (xs ++ ys) = indent xs ++ indent ys :=
  List.map_append

theorem length_indent (xs : List String) : (indent xs).length = xs.length :=
  List.length_map ..

end Iconsmith.Source
