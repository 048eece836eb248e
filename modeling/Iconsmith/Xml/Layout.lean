import Iconsmith.Xml.Reference

/-!
# Laying out markup

An element is laid out on lines of its own, with what is inside it indented by four spaces between
the start tag and the end tag.
-/

namespace Iconsmith.Xml

/-- A setting of a tag: a name, and a value as it stands between the quotes. -/
abbrev Setting := String × String

/-- An element to be laid out. -/
inductive Layout where
  /-- An element of a single tag. -/
  | leaf (tag : String) (settings : List Setting)
  /-- An element with a start tag and an end tag. -/
  | branch (tag : String) (settings : List Setting) (inside : List Layout)
  deriving Repr

/-- A setting with a space before it. -/
def Setting.text (s : Setting) : String :=
  " " ++ s.1 ++ "=\"" ++ s.2 ++ "\""

/-- A value in which no character ends the quotes or begins markup. -/
def escaped (value : String) : String :=
  String.ofList (escape value.toList)

namespace Layout

/-- The spaces before a line at some depth. -/
def indentation (depth : Nat) : String :=
  String.ofList (List.replicate (4 * depth) ' ')

/-- A tag up to its closing bracket. -/
def opening (depth : Nat) (tag : String) (settings : List Setting) : String :=
  indentation depth ++ "<" ++ tag ++ String.join (settings.map Setting.text)

mutual

/-- The lines of an element at some depth. -/
def lines (depth : Nat) : Layout → List String
  | leaf tag settings => [opening depth tag settings ++ "/>"]
  | branch tag settings inside =>
    (opening depth tag settings ++ ">") :: linesOf (depth + 1) inside
      ++ [indentation depth ++ "</" ++ tag ++ ">"]

/-- The lines of a list of elements at some depth. -/
def linesOf (depth : Nat) : List Layout → List String
  | [] => []
  | e :: es => lines depth e ++ linesOf depth es

end

end Layout

end Iconsmith.Xml
