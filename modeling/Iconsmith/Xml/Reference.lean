import Iconsmith.Xml.Character

/-!
# References

Inside text and values a character may be written as a reference: `&amp;` and four more by name,
any character by its number. `escape` writes the four characters that an attribute value cannot
hold as they are, and `expand?` reads references back.
-/

namespace Iconsmith.Xml

/-- Writes ampersands, angle brackets and quotes as references. -/
def escape : List Char → List Char
  | [] => []
  | '&' :: s => "&amp;".toList ++ escape s
  | '<' :: s => "&lt;".toList ++ escape s
  | '>' :: s => "&gt;".toList ++ escape s
  | '"' :: s => "&quot;".toList ++ escape s
  | c :: s => c :: escape s

/-- The value of a hexadecimal digit. -/
def hexDigit? (c : Char) : Option Nat :=
  if c.isDigit then some (c.toNat - '0'.toNat)
  else if 'a' ≤ c && c ≤ 'f' then some (c.toNat - 'a'.toNat + 10)
  else if 'A' ≤ c && c ≤ 'F' then some (c.toNat - 'A'.toNat + 10)
  else none

/-- The number written by digits of a base; there must be at least one. -/
def readDigits? (base : Nat) (digits : List Char) : Option Nat :=
  if digits.isEmpty then none
  else digits.foldlM (fun n c => do
    let d ← hexDigit? c
    if d < base then some (base * n + d) else none) 0

/-- The character with a number below `2 ^ 32`. Numbers of no character stand for U+FFFD. -/
def charOfNumber? (n : Nat) : Option Char :=
  if 0x100000000 ≤ n then none
  else
    let c := if n.isValidChar then Char.ofNat n else '\uFFFD'
    if isDocumentChar c then some c else none

/-- The character that the inside of a reference stands for. -/
def referenced? (inside : List Char) : Option Char :=
  match inside with
  | '#' :: 'x' :: digits => readDigits? 16 digits >>= charOfNumber?
  | '#' :: digits => readDigits? 10 digits >>= charOfNumber?
  | name =>
    match String.ofList name with
    | "amp" => some '&'
    | "lt" => some '<'
    | "gt" => some '>'
    | "quot" => some '"'
    | "apos" => some '\''
    | _ => none

/-- The name inside of a reference to an entity. -/
def entityName? (inside : List Char) : Option String :=
  let name := String.ofList inside
  if ["amp", "lt", "gt", "quot", "apos"].contains name || !(inside.take 1).any isNameStart
    || !inside.all isNameChar
  then none
  else some name

/-- Replaces every reference by what it stands for, or fails at one that stands for nothing. -/
def expand? : List Char → Option (List Char)
  | [] => some []
  | c :: s =>
    if c = '&' then
      match _h : s.dropWhile (· ≠ ';') with
      | [] => none
      | _ :: r => do
        let d ← referenced? (s.takeWhile (· ≠ ';'))
        let rest ← expand? r
        return d :: rest
    else do
      let rest ← expand? s
      return c :: rest
termination_by s => s.length
decreasing_by
  · have h := (List.dropWhile_sublist (· ≠ ';') (l := s)).length_le
    rw [_h] at h
    simp only [List.length_cons] at h ⊢
    omega
  · simp

/-! ### Line ends -/

/-- Turns every line end of verbatim text into a line feed. -/
def normalizeVerbatim : List Char → List Char
  | [] => []
  | '\r' :: '\n' :: s => '\n' :: normalizeVerbatim s
  | '\r' :: s => '\n' :: normalizeVerbatim s
  | c :: s => c :: normalizeVerbatim s

/-- Where a character of a text stands. -/
inductive Place where
  | plain
  | insideReference
  | behindReference
  deriving DecidableEq, Repr

/-- Turns every line end of a text that begins at a given place into a line feed. -/
def normalizeFrom : Place → List Char → List Char
  | _, [] => []
  | .behindReference, ['\r'] => ['\r']
  | _, '\r' :: '&' :: s => '\r' :: '&' :: normalizeFrom .insideReference s
  | _, '\r' :: '\n' :: s => '\n' :: normalizeFrom .plain s
  | _, '\r' :: s => '\n' :: normalizeFrom .plain s
  | _, '&' :: s => '&' :: normalizeFrom .insideReference s
  | .insideReference, ';' :: s => ';' :: normalizeFrom .behindReference s
  | .insideReference, c :: s => c :: normalizeFrom .insideReference s
  | _, c :: s => c :: normalizeFrom .plain s

/-- Turns every line end of text into a line feed. A carriage return right before a reference is no
line end, and neither is one right behind a reference that ends the text. -/
def normalizeText (s : List Char) : List Char :=
  normalizeFrom .plain s

/-- Turns line ends and tabs of a value into spaces. -/
def normalizeValue : List Char → List Char
  | [] => []
  | '\r' :: '\n' :: s => ' ' :: normalizeValue s
  | c :: s => (if Text.isLayout c then ' ' else c) :: normalizeValue s

end Iconsmith.Xml
