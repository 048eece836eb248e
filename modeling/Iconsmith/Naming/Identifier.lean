import Iconsmith.Text.Blank

/-!
# Identifiers

Files and directories may have any name; what is generated from them needs an identifier. An
identifier is made of the words of a file name, each with a capital letter at its start, and a
package segment of the characters of a group name, in lower case.
-/

namespace Iconsmith.Naming

/-- A letter or a digit of ASCII. -/
def isAlphanumeric (c : Char) : Bool :=
  c.isAlpha || c.isDigit

/-- Whether a name can be declared: a letter or a low line, then letters, digits and low lines. -/
def isIdentifier (name : String) : Bool :=
  match name.toList with
  | c :: s => (c.isAlpha || c = '_') && s.all fun d => isAlphanumeric d || d = '_'
  | [] => false

/-! ### From file names -/

/-- The part of a path after the last separator of either kind. -/
def fileName (s : List Char) : List Char :=
  (s.reverse.takeWhile fun c => c ≠ '/' && c ≠ '\\').reverse

/-- Drops the last point and what follows it, if that is an extension of letters and digits behind
a nonempty name. -/
def stem (s : List Char) : List Char :=
  let extension := (s.reverse.takeWhile (· ≠ '.')).reverse
  match s.reverse.dropWhile (· ≠ '.') with
  | _ :: name =>
    if name.isEmpty || extension.isEmpty || !extension.all isAlphanumeric then s else name.reverse
  | [] => s

/-- Cuts a text into words: the runs of letters and digits, cut again before a capital letter that
follows a small one. `word` holds the characters of the word begun, the last one first. -/
def wordsFrom (word : List Char) : List Char → List (List Char)
  | [] => if word.isEmpty then [] else [word.reverse]
  | c :: s =>
    let done := if word.isEmpty then [] else [word.reverse]
    if !isAlphanumeric c then done ++ wordsFrom [] s
    else
      match word with
      | d :: _ =>
        if d.isLower && c.isUpper then done ++ wordsFrom [c] s else wordsFrom (c :: word) s
      | [] => wordsFrom [c] s

/-- The words of a text. -/
def words (s : List Char) : List (List Char) :=
  wordsFrom [] s

/-- A word with a capital letter at its start and small ones after it. -/
def capitalize : List Char → List Char
  | [] => []
  | c :: s => c.toUpper :: s.map Char.toLower

/-- The identifier when a name holds no letter and no digit. -/
def unnamed : String := "_Unnamed"

/-- The identifier made of the words of a file name. A low line goes before a digit at its start
and before a reserved word. -/
def identifier (reserved : List String) (raw : String) : String :=
  let name := String.ofList ((words (stem (fileName (Text.trim raw.toList)))).flatMap capitalize)
  match name.toList with
  | [] => unnamed
  | c :: _ => if c.isDigit || reserved.contains name then "_" ++ name else name

/-! ### From group names -/

/-- The words that cannot be part of a package name. -/
def packageKeywords : List String :=
  ["as", "break", "class", "continue", "do", "else", "false", "for", "fun", "if", "in",
   "interface", "is", "null", "object", "package", "return", "super", "this", "throw", "true",
   "try", "typealias", "typeof", "val", "var", "when", "while"]

/-- The package and directory name of a group. -/
def packageSegment (name : String) : String :=
  let kept := (name.toList.filter fun c => isAlphanumeric c || c = '_').map Char.toLower
  let segment := String.ofList kept
  match kept with
  | [] => "_unnamed"
  | c :: _ => if c.isDigit || packageKeywords.contains segment then "_" ++ segment else segment

/-! ### Other spellings -/

/-- The name with a small letter at its start. -/
def uncapitalize (name : String) : String :=
  match name.toList with
  | [] => ""
  | c :: s => String.ofList (c.toLower :: s)

end Iconsmith.Naming
