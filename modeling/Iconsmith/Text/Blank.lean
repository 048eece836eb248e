/-!
# Blank characters

Two notions of blank are in use. `isBlank` is the Unicode property White_Space, by which values are
trimmed; `isLayout` holds of the four characters that may separate numbers and markup.
-/

namespace Iconsmith.Text

/-- What holds of all characters in a list is decided along the list, and not by going through all
characters there are. -/
instance (priority := high) decidableForallMem {p : Char → Prop} [DecidablePred p] (s : List Char) :
    Decidable (∀ c ∈ s, p c) :=
  List.decidableBAll p s

/-- The closed ranges of code points with the property White_Space, ascending and apart. -/
def blankRanges : List (Nat × Nat) :=
  [(0x09, 0x0D), (0x20, 0x20), (0x85, 0x85), (0xA0, 0xA0), (0x1680, 0x1680), (0x2000, 0x200A),
   (0x2028, 0x2029), (0x202F, 0x202F), (0x205F, 0x205F), (0x3000, 0x3000)]

/-- Whether a code point lies in one of the closed ranges. -/
def inRanges (ranges : List (Nat × Nat)) (n : Nat) : Bool :=
  ranges.any fun r => r.1 ≤ n && n ≤ r.2

/-- White space in the sense of Unicode. -/
def isBlank (c : Char) : Bool :=
  inRanges blankRanges c.toNat

/-- Space, tab, carriage return and line feed. -/
def isLayout (c : Char) : Bool :=
  c = ' ' || c = '\t' || c = '\r' || c = '\n'

theorem isBlank_of_isLayout {c : Char} (h : isLayout c = true) : isBlank c = true := by
  simp only [isLayout, Bool.or_eq_true, decide_eq_true_eq] at h
  rcases h with ((h | h) | h) | h <;> subst h <;> decide

/-- Drops the leading blanks. -/
def trimStart (s : List Char) : List Char :=
  s.dropWhile isBlank

/-- Drops the leading and the trailing blanks. -/
def trim (s : List Char) : List Char :=
  (trimStart (trimStart s).reverse).reverse

/-- Drops the blanks at both ends of a string. -/
def trimString (s : String) : String :=
  String.ofList (trim s.toList)

/-- What follows the given beginning of a text, if the text begins with it. -/
def dropLeading? : List Char → List Char → Option (List Char)
  | [], s => some s
  | c :: lead, d :: s => if c = d then dropLeading? lead s else none
  | _ :: _, [] => none

/-- The number of bytes a text takes in UTF-8. -/
def byteSize (s : List Char) : Nat :=
  s.foldr (fun c size => c.utf8Size + size) 0

theorem length_trimStart_le (s : List Char) : (trimStart s).length ≤ s.length :=
  (List.dropWhile_sublist _).length_le

theorem length_dropLeading? {lead s r : List Char} (h : dropLeading? lead s = some r) :
    r.length + lead.length = s.length := by
  fun_induction dropLeading? lead s with
  | case1 s => simp_all
  | case2 c lead s ih =>
    have := ih h
    simp only [List.length_cons]
    omega
  | case3 => contradiction
  | case4 => contradiction

theorem length_dropLeading?_le {lead s r : List Char} (h : dropLeading? lead s = some r) :
    r.length ≤ s.length :=
  Nat.le.intro (length_dropLeading? h)

end Iconsmith.Text
