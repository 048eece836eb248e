import Iconsmith.Text.Blank
import Iconsmith.Xml.Reference

/-!
# Links

A link such as `data:image/png;base64,iVBORw0=` holds what it points to: the kind of the data comes
before the comma, the data after it. Percent signs escape single bytes, and the data may moreover
be written in base 64. Any other link is the location of a file.
-/

namespace Iconsmith.Raster

/-- Data and their kind. -/
structure Resource where
  kind : String
  bytes : List UInt8
  deriving Repr

/-- Where a link leads to. -/
inductive Link where
  /-- To what the link holds, if that can be read. -/
  | held (target : Option Resource)
  | file (location : String)
  deriving Repr

namespace Resource

/-- Whether a character in a link counts for nothing. -/
def isIdle (c : Char) : Bool :=
  c = '\t' || c = '\n' || c = '\r'

/-! ### Escaped bytes -/

/-- The bytes of a text in which `%` with two hexadecimal digits is a byte and `#` begins what does
not count. -/
def unescape : List Char → List UInt8
  | [] => []
  | '#' :: _ => []
  | '%' :: high :: low :: s =>
    match Xml.hexDigit? high, Xml.hexDigit? low with
    | some h, some l => UInt8.ofNat (16 * h + l) :: unescape s
    | _, _ => 0x25 :: unescape (high :: low :: s)
  | c :: s => if isIdle c then unescape s else (String.singleton c).toUTF8.toList ++ unescape s

/-! ### Base 64 -/

/-- The six bits for which a digit stands. -/
def sixBits? (b : UInt8) : Option Nat :=
  let c := Char.ofNat b.toNat
  if c.isUpper then some (c.toNat - 'A'.toNat)
  else if c.isLower then some (c.toNat - 'a'.toNat + 26)
  else if c.isDigit then some (c.toNat - '0'.toNat + 52)
  else if c = '+' then some 62
  else if c = '/' then some 63
  else none

/-- The whole bytes in a sequence of six bits each. -/
def packed : List Nat → List UInt8
  | a :: b :: c :: d :: s =>
    [UInt8.ofNat (4 * a + b / 16), UInt8.ofNat (16 * (b % 16) + c / 4),
      UInt8.ofNat (64 * (c % 4) + d)] ++ packed s
  | [a, b, c] => [UInt8.ofNat (4 * a + b / 16), UInt8.ofNat (16 * (b % 16) + c / 4)]
  | [a, b] => [UInt8.ofNat (4 * a + b / 16)]
  | _ => []

/-- Whether a byte is blank, so that it may stand anywhere between digits. -/
def isBlank (b : UInt8) : Bool :=
  b = 0x20 || b = 0x09 || b = 0x0A || b = 0x0C || b = 0x0D

/-- The bytes written in base 64. Equals signs may fill up the last group of four digits. -/
def ofBase64? (s : List UInt8) : Option (List UInt8) := do
  let s := s.filter (!isBlank ·)
  let digits := s.takeWhile (· ≠ 0x3D)
  let filling := s.dropWhile (· ≠ 0x3D)
  let values ← digits.mapM sixBits?
  if !filling.all (· = 0x3D) then none
  match values.length % 4, filling.length with
  | 0, 0 | 2, 0 | 2, 2 | 3, 0 | 3, 1 => return packed values
  | _, _ => none

/-! ### Kinds -/

/-- The characters of which both parts of a kind are made. Those beyond ASCII are escaped first. -/
def isKindChar (c : Char) : Bool :=
  c.isAlphanum || "!#$%&'*+-.^_`|~".toList.contains c || 0x7F ≤ c.toNat || c.toNat < 0x20

/-- The kind that a text in lower case gives. What cannot be read is plain text. -/
def kindOf (s : List Char) : String :=
  let s := s.takeWhile (· ≠ ';')
  let major := (s.takeWhile (· ≠ '/')).dropWhile Text.isLayout
  let minor := (((s.dropWhile (· ≠ '/')).drop 1).reverse.dropWhile Text.isLayout).reverse
  if major.isEmpty || minor.isEmpty || !(major ++ minor).all isKindChar then "text/plain"
  else String.ofList (major ++ '/' :: minor)

/-- Drops layout at both ends of a text. -/
def trimLayout (s : List Char) : List Char :=
  ((s.dropWhile Text.isLayout).reverse.dropWhile Text.isLayout).reverse

/-- The kind of data before the mark of base 64, if a text ends in that mark. -/
def beforeMark? (s : List Char) : Option (List Char) := do
  let r ← Text.dropLeading? "46esab".toList s.reverse
  match r.dropWhile (· = ' ') with
  | ';' :: kind => return kind.reverse
  | _ => none

/-! ### Parts -/

/-- The resource with a head and a body, if the body can be read. -/
def ofParts? (head body : List Char) : Option Resource :=
  let head := trimLayout ((head.filter (!isIdle ·)).map Char.toLower)
  match beforeMark? head with
  | some kind => (ofBase64? (unescape body)).map fun bytes => ⟨kindOf kind, bytes⟩
  | none => some ⟨kindOf head, unescape body⟩

end Resource

namespace Link

/-- Drops a word in lower case from the start of a text, where characters that count for nothing may
stand in it. -/
def dropWord? : List Char → List Char → Option (List Char)
  | [], s => some s
  | c :: word, s =>
    match s.dropWhile Resource.isIdle with
    | d :: r => if d.toLower = c then dropWord? word r else none
    | [] => none

/-- The head and the body of a link that holds its target. -/
def parts? (link : String) : Option (List Char × List Char) := do
  let s ← dropWord? "data:".toList (link.toList.dropWhile (· ≤ ' '))
  let s := (s.reverse.dropWhile (· ≤ ' ')).reverse
  match s.dropWhile fun c => c ≠ ',' && c ≠ '#' with
  | ',' :: body => return (s.takeWhile fun c => c ≠ ',' && c ≠ '#', body)
  | _ => none

/-- Where the link in a text leads to. -/
def ofText (link : String) : Link :=
  match parts? link with
  | some (head, body) => .held (Resource.ofParts? head body)
  | none => .file link

end Link

end Iconsmith.Raster
