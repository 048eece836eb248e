import Iconsmith.Decimal.Basic

/-!
# Numerals

A numeral is an optional sign, digits with an optional point, and an optional exponent:
`[+-]?(D+(.D*)?|.D+)([eE][+-]?D+)?`. `Numeral.read?` takes the longest one at the start of a text.
`floatOf?` reads a whole text as a number, where infinities and the undefined number have names.
-/

namespace Iconsmith

/-- A number as it is spelt. -/
structure Numeral where
  negative : Bool
  whole : List Char
  fraction : List Char
  exponent : Int
  deriving DecidableEq, Repr

namespace Numeral

/-- An optional sign: whether it is a minus, and the rest. -/
def readSign : List Char → Bool × List Char
  | '-' :: s => (true, s)
  | '+' :: s => (false, s)
  | s => (false, s)

/-- The digits before and after the point, of which at least one must be there. -/
def readMantissa? (s : List Char) : Option (List Char × List Char × List Char) :=
  let whole := s.takeWhile Char.isDigit
  match s.dropWhile Char.isDigit with
  | '.' :: r =>
    let fraction := r.takeWhile Char.isDigit
    if whole.isEmpty && fraction.isEmpty then none
    else some (whole, fraction, r.dropWhile Char.isDigit)
  | r => if whole.isEmpty then none else some (whole, [], r)

/-- The exponent. A marker without digits is left where it is. -/
def readExponent : List Char → Int × List Char
  | [] => (0, [])
  | c :: s =>
    if c = 'e' || c = 'E' then
      let (negative, r) := readSign s
      let digits := r.takeWhile Char.isDigit
      if digits.isEmpty then (0, c :: s)
      else
        let n : Int := Decimal.ofDigits digits
        (if negative then -n else n, r.dropWhile Char.isDigit)
    else (0, c :: s)

/-- The longest numeral at the start of a text, and the rest. -/
def read? (s : List Char) : Option (Numeral × List Char) := do
  let (negative, s) := readSign s
  let (whole, fraction, s) ← readMantissa? s
  let (exponent, s) := readExponent s
  return (⟨negative, whole, fraction, exponent⟩, s)

/-- The magnitude a numeral denotes. -/
def toDecimal (n : Numeral) : Decimal :=
  ⟨Decimal.ofDigits (n.whole ++ n.fraction), n.exponent - n.fraction.length⟩

/-- The double nearest to what a numeral denotes. -/
def toFloat (n : Numeral) : Float :=
  if n.negative then -n.toDecimal.toFloat else n.toDecimal.toFloat

/-- Whether a text begins like a numeral. -/
def startsNumeral : List Char → Bool
  | c :: _ => c.isDigit || c = '.' || c = '-' || c = '+'
  | [] => false

/-- Infinity and the undefined number, by name. -/
def namedFloat? (s : List Char) : Option Float :=
  let (negative, name) := readSign s
  let name := String.ofList (name.map Char.toLower)
  let infinity : Float := 1 / 0
  if name = "inf" || name = "infinity" then some (if negative then -infinity else infinity)
  else if name = "nan" then some (0 / 0)
  else none

/-- The double that a whole text denotes. -/
def floatOf? (s : List Char) : Option Float :=
  match read? s with
  | some (n, []) => some n.toFloat
  | _ => namedFloat? s

/-! ### A numeral takes up room -/

theorem length_readSign_le (s : List Char) : (readSign s).2.length ≤ s.length := by
  unfold readSign
  split <;> simp

theorem length_readExponent_le (s : List Char) : (readExponent s).2.length ≤ s.length := by
  cases s with
  | nil => simp [readExponent]
  | cons c s =>
    simp only [readExponent]
    split
    · split
      · simp
      · have h₁ := length_readSign_le s
        have h₂ := (List.dropWhile_sublist Char.isDigit (l := (readSign s).2)).length_le
        simp only [List.length_cons]
        omega
    · simp

theorem length_readMantissa?_lt {s w f r : List Char} (h : readMantissa? s = some (w, f, r)) :
    r.length < s.length := by
  have parts :
      (s.takeWhile Char.isDigit).length + (s.dropWhile Char.isDigit).length = s.length := by
    rw [← List.length_append, List.takeWhile_append_dropWhile]
  simp only [readMantissa?] at h
  split at h
  · rename_i t heq
    split at h
    · contradiction
    · simp only [Option.some.injEq, Prod.mk.injEq] at h
      obtain ⟨-, -, rfl⟩ := h
      have := (List.dropWhile_sublist Char.isDigit (l := t)).length_le
      rw [heq] at parts
      simp only [List.length_cons] at parts
      omega
  · split at h
    · contradiction
    · rename_i hne
      simp only [Option.some.injEq, Prod.mk.injEq] at h
      obtain ⟨-, -, rfl⟩ := h
      have : 0 < (s.takeWhile Char.isDigit).length := by
        simpa [List.length_pos_iff] using hne
      omega

theorem length_read?_lt {s r : List Char} {n : Numeral} (h : read? s = some (n, r)) :
    r.length < s.length := by
  simp only [read?, bind, Option.bind] at h
  split at h
  · contradiction
  · rename_i v hv
    obtain ⟨w, f, t⟩ := v
    simp only [pure, Option.some.injEq, Prod.mk.injEq] at h
    have h₁ := length_readSign_le s
    have h₂ := length_readMantissa?_lt hv
    have h₃ := length_readExponent_le t
    rw [← h.2]
    omega

end Numeral

end Iconsmith
