import Iconsmith.Decimal.Numeral
import Iconsmith.Text.Blank
import Iconsmith.Xml.Reference

/-!
# Tokens of JSON

A text of JSON is cut into punctuation, words, numbers and strings. What a number is worth plays no
part here. A string may hold escapes that stand for no character; it is a string all the same, but
one without content.
-/

namespace Iconsmith.Json

/-- A token. -/
inductive Token where
  | openBrace
  | closeBrace
  | openBracket
  | closeBracket
  | colon
  | comma
  | null
  | bool (b : Bool)
  | number
  | string (content : Option String)
  deriving DecidableEq, Repr

namespace Token

/-! ### Strings -/

/-- A part of a string: a character, or the code unit of a numeric escape. -/
inductive Piece where
  | char (c : Char)
  | unit (n : Nat)
  deriving DecidableEq, Repr

/-- The character after a backslash. -/
def shortEscape? : Char → Option Char
  | '"' => some '"'
  | '\\' => some '\\'
  | '/' => some '/'
  | 'b' => some '\x08'
  | 'f' => some '\x0c'
  | 'n' => some '\n'
  | 'r' => some '\r'
  | 't' => some '\t'
  | _ => none

/-- The parts of a string up to its closing quote, and what follows that. Control characters must
be escaped. -/
def readPieces? : List Char → Option (List Piece × List Char)
  | [] => none
  | '"' :: s => some ([], s)
  | '\\' :: 'u' :: a :: b :: c :: d :: s => do
    let n ← Xml.readDigits? 16 [a, b, c, d]
    let (pieces, r) ← readPieces? s
    return (.unit n :: pieces, r)
  | '\\' :: c :: s => do
    let e ← shortEscape? c
    let (pieces, r) ← readPieces? s
    return (.char e :: pieces, r)
  | c :: s =>
    if c.toNat < 0x20 || c = '\\' then none
    else do
      let (pieces, r) ← readPieces? s
      return (.char c :: pieces, r)

/-- The text of a string. Two halves of a surrogate pair make one character, and a half that stands
alone makes none. -/
def decode? : List Piece → Option (List Char)
  | [] => some []
  | .char c :: ps => (decode? ps).map (c :: ·)
  | .unit n :: ps =>
    if 0xD800 ≤ n && n < 0xDC00 then
      match ps with
      | .unit m :: ps =>
        if 0xDC00 ≤ m && m < 0xE000 then
          (decode? ps).map (Char.ofNat (0x10000 + (n - 0xD800) * 0x400 + (m - 0xDC00)) :: ·)
        else none
      | _ => none
    else if 0xDC00 ≤ n && n < 0xE000 then none
    else (decode? ps).map (Char.ofNat n :: ·)

/-! ### Numbers -/

/-- Drops the digits of a whole number, which has no leading zero. -/
def skipWhole? : List Char → Option (List Char)
  | '0' :: s => some s
  | c :: s => if c.isDigit then some (s.dropWhile Char.isDigit) else none
  | [] => none

/-- Drops digits, of which there must be at least one. -/
def skipDigits? : List Char → Option (List Char)
  | c :: s => if c.isDigit then some (s.dropWhile Char.isDigit) else none
  | [] => none

/-- Drops a fraction, if there is one. -/
def skipFraction? : List Char → Option (List Char)
  | '.' :: s => skipDigits? s
  | s => some s

/-- Drops an exponent, if there is one. -/
def skipExponent? : List Char → Option (List Char)
  | [] => some []
  | c :: s => if c = 'e' || c = 'E' then skipDigits? (Numeral.readSign s).2 else some (c :: s)

/-- Drops a number. -/
def skipNumber? (s : List Char) : Option (List Char) := do
  let r ← skipWhole? (if s.head? = some '-' then s.tail else s)
  let r ← skipFraction? r
  skipExponent? r

/-! ### Tokens -/

/-- The words and what they mean. -/
def words : List (List Char × Token) :=
  [("null".toList, null), ("true".toList, bool true), ("false".toList, bool false)]

/-- The token of a punctuation mark. -/
def mark? : Char → Option Token
  | '\x7b' => some openBrace
  | '\x7d' => some closeBrace
  | '[' => some openBracket
  | ']' => some closeBracket
  | ':' => some colon
  | ',' => some comma
  | _ => none

/-- Reads a word or a number. -/
def readPlain? (s : List Char) : Option (Token × List Char) :=
  match words.findSome? fun (word, t) => (Text.dropLeading? word s).map (t, ·) with
  | some found => some found
  | none => (skipNumber? s).map (number, ·)

/-- Reads a token, before which there is no layout. -/
def read? : List Char → Option (Token × List Char)
  | [] => none
  | '"' :: s => (readPieces? s).map fun (ps, r) => (string ((decode? ps).map String.ofList), r)
  | c :: s =>
    match mark? c with
    | some t => some (t, s)
    | none => readPlain? (c :: s)

/-! ### What is read gets shorter -/

theorem length_readPieces?_lt {s r : List Char} {ps : List Piece}
    (h : readPieces? s = some (ps, r)) : r.length < s.length := by
  fun_induction readPieces? s generalizing ps r with
  | case1 => contradiction
  | case2 s => simp_all
  | case3 a b c d s ih =>
    simp only [Option.bind_eq_bind, Option.bind_eq_some_iff, Option.pure_def, Option.some.injEq,
      Prod.mk.injEq, Prod.exists] at h
    obtain ⟨_, -, _, t, ht, -, rfl⟩ := h
    have := ih ht
    simp only [List.length_cons]
    omega
  | case4 c s _ ih =>
    simp only [Option.bind_eq_bind, Option.bind_eq_some_iff, Option.pure_def, Option.some.injEq,
      Prod.mk.injEq, Prod.exists] at h
    obtain ⟨_, -, _, t, ht, -, rfl⟩ := h
    have := ih ht
    simp only [List.length_cons]
    omega
  | case5 => contradiction
  | case6 c s _ _ _ _ ih =>
    simp only [Option.bind_eq_bind, Option.bind_eq_some_iff, Option.pure_def, Option.some.injEq,
      Prod.mk.injEq, Prod.exists] at h
    obtain ⟨_, t, ht, -, rfl⟩ := h
    have := ih ht
    simp only [List.length_cons]
    omega

theorem length_skipDigits?_lt {s r : List Char} (h : skipDigits? s = some r) :
    r.length < s.length := by
  cases s with
  | nil => simp [skipDigits?] at h
  | cons c s =>
    simp only [skipDigits?, Option.ite_none_right_eq_some, Option.some.injEq] at h
    have := (List.dropWhile_sublist Char.isDigit (l := s)).length_le
    simp only [List.length_cons]
    rw [← h.2]
    omega

theorem length_skipWhole?_lt {s r : List Char} (h : skipWhole? s = some r) :
    r.length < s.length := by
  unfold skipWhole? at h
  split at h
  · simp_all
  · rename_i c s _
    simp only [Option.ite_none_right_eq_some, Option.some.injEq] at h
    have := (List.dropWhile_sublist Char.isDigit (l := s)).length_le
    simp only [List.length_cons]
    rw [← h.2]
    omega
  · contradiction

theorem length_skipNumber?_lt {s r : List Char} (h : skipNumber? s = some r) :
    r.length < s.length := by
  simp only [skipNumber?, Option.bind_eq_bind, Option.bind_eq_some_iff] at h
  obtain ⟨t, ht, u, hu, hr⟩ := h
  have h₁ := length_skipWhole?_lt ht
  have h₂ : u.length ≤ t.length := by
    unfold skipFraction? at hu
    split at hu
    · have := length_skipDigits?_lt hu
      simp only [List.length_cons]
      omega
    · simp_all
  have h₃ : r.length ≤ u.length := by
    unfold skipExponent? at hr
    split at hr
    · simp_all
    · rename_i c v
      split at hr
      · have h₄ := length_skipDigits?_lt hr
        have h₅ := Numeral.length_readSign_le v
        simp only [List.length_cons]
        omega
      · simp_all
  have h₀ : (if s.head? = some '-' then s.tail else s).length ≤ s.length := by
    split <;> simp
  omega

theorem length_readPlain?_lt {s r : List Char} {t : Token} (h : readPlain? s = some (t, r)) :
    r.length < s.length := by
  unfold readPlain? at h
  split at h
  · rename_i found hf
    simp only [Option.some.injEq] at h
    subst h
    obtain ⟨⟨word, u⟩, hm, hw⟩ := List.exists_of_findSome?_eq_some hf
    simp only [Option.map_eq_some_iff, Prod.mk.injEq] at hw
    obtain ⟨v, hv, -, rfl⟩ := hw
    have : v.length + word.length = s.length := Text.length_dropLeading? hv
    have : 0 < word.length := by
      simp only [words, List.mem_cons, Prod.mk.injEq, List.not_mem_nil, or_false] at hm
      rcases hm with ⟨rfl, -⟩ | ⟨rfl, -⟩ | ⟨rfl, -⟩ <;> decide
    omega
  · simp only [Option.map_eq_some_iff, Prod.mk.injEq] at h
    obtain ⟨v, hv, -, rfl⟩ := h
    exact length_skipNumber?_lt hv

theorem length_read?_lt {s r : List Char} {t : Token} (h : read? s = some (t, r)) :
    r.length < s.length := by
  unfold read? at h
  split at h
  · contradiction
  · simp only [Option.map_eq_some_iff, Prod.mk.injEq, Prod.exists] at h
    obtain ⟨_, v, hv, -, rfl⟩ := h
    have := length_readPieces?_lt hv
    simp only [List.length_cons]
    omega
  · split at h
    · simp_all
    · exact length_readPlain?_lt h

/-- The tokens of a text. -/
def readAll? (s : List Char) : Option (List Token) :=
  match _hs : s.dropWhile Text.isLayout with
  | [] => some []
  | c :: r =>
    match _h : read? (c :: r) with
    | none => none
    | some (t, r) => (readAll? r).map (t :: ·)
termination_by s.length
decreasing_by
  have h₁ := length_read?_lt _h
  have h₂ := (List.dropWhile_sublist Text.isLayout (l := s)).length_le
  rw [_hs] at h₂
  exact Nat.lt_of_lt_of_le h₁ h₂

end Token

end Iconsmith.Json
