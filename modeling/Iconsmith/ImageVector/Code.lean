import Iconsmith.Decimal.Style
import Iconsmith.Source.Code

/-!
# Code with imports

Code for an `ImageVector` names types and functions that must be imported. A `Phrase` is an
expression and a `Draft` a list of lines, each with the imports that it needs; a `CodeFile` is a
whole file, whose imports are put in order.
-/

namespace Iconsmith.ImageVector

/-- An expression with the names that it needs imported. -/
structure Phrase where
  text : String
  imports : List String
  deriving DecidableEq, Repr

/-- Lines of code with the names that they need imported. -/
structure Draft where
  lines : List String
  imports : List String
  deriving DecidableEq, Repr

namespace Draft

/-- No code. -/
def empty : Draft := ⟨[], []⟩

instance : Append Draft := ⟨fun a b => ⟨a.lines ++ b.lines, a.imports ++ b.imports⟩⟩

/-- Puts code between braces behind a head, which needs imports of its own. -/
def block (head : Phrase) (inside : Draft) : Draft :=
  ⟨Source.block head.text inside.lines, head.imports ++ inside.imports⟩

theorem empty_append (d : Draft) : empty ++ d = d := rfl

theorem append_empty (d : Draft) : d ++ empty = d := by
  change Draft.mk (d.lines ++ []) (d.imports ++ []) = d
  simp

theorem append_assoc (a b c : Draft) : a ++ b ++ c = a ++ (b ++ c) := by
  change Draft.mk (a.lines ++ b.lines ++ c.lines) (a.imports ++ b.imports ++ c.imports)
    = Draft.mk (a.lines ++ (b.lines ++ c.lines)) (a.imports ++ (b.imports ++ c.imports))
  simp

end Draft

/-! ### Files -/

/-- Puts a name into an ascending list of names, unless it is there. -/
def insertName (name : String) : List String → List String
  | [] => [name]
  | n :: ns =>
    if name < n then name :: n :: ns
    else if name = n then n :: ns
    else n :: insertName name ns

/-- The names of a list, ascending and without repetition. -/
def sortNames (names : List String) : List String :=
  names.foldr insertName []

/-- A file of code. -/
structure CodeFile where
  /-- The package, which may be the empty one. -/
  package : String
  /-- The imported names, ascending and without repetition. -/
  imports : List String
  body : List String
  deriving DecidableEq, Repr

namespace CodeFile

/-- The file of a draft. -/
def ofDraft (package : String) (d : Draft) : CodeFile where
  package := package
  imports := sortNames d.imports
  body := d.lines

/-- The lines of a file. The package and the imports are each followed by an empty line. -/
def lines (f : CodeFile) : List String :=
  (if f.package.isEmpty then [] else ["package " ++ f.package, ""])
    ++ f.imports.map ("import " ++ ·)
    ++ (if f.imports.isEmpty then [] else [""])
    ++ f.body

/-- The text of a file. -/
def text (f : CodeFile) : String :=
  Source.textOf f.lines

end CodeFile

/-- A name in a package. -/
def qualified (package name : String) : String :=
  if package.isEmpty then name else package ++ "." ++ name

/-- The directories of a package. -/
def packageDirectories (package : String) : List String :=
  ((package.toList.splitOn '.').map String.ofList).filter (!·.isEmpty)

/-! ### Literals -/

/-- The characters of a text as they stand between quotes. A dollar sign would begin a template. -/
def escape : List Char → List Char
  | [] => []
  | '\\' :: s => '\\' :: '\\' :: escape s
  | '"' :: s => '\\' :: '"' :: escape s
  | '$' :: s => '\\' :: '$' :: escape s
  | '\n' :: s => '\\' :: 'n' :: escape s
  | c :: s => c :: escape s

/-- A text as a literal. -/
def stringLiteral (s : String) : String :=
  "\"" ++ String.ofList (escape s.toList) ++ "\""

/-- A number as a literal of double precision. -/
def doubleLiteral (x : Float) : String :=
  Decimal.Style.literal.unsignedZero x

/-- A number as a literal of single precision. -/
def floatLiteral (x : Float) : String :=
  doubleLiteral x ++ "f"

end Iconsmith.ImageVector
