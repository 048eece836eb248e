import Iconsmith.Proofs.Decimal.CorrectRounding
import Iconsmith.Proofs.Decimal.Spelling

/-!
# Numerals at the start of a text

A numeral is read where a text begins with a spelling of one, and the longest spelling is read. So what
cannot be part of a numeral any more is left: a sign, a second point, a marker with no digits behind it.
What is read denotes a number, and stands for the double that the number is rounded to.
-/

namespace Iconsmith.Numeral

open Text (Avoids avoids_cons)

/-! ### What a numeral stands for -/

/-- The number that a numeral denotes. -/
def value (n : Numeral) : ℚ :=
  if n.negative then -n.toDecimal.value else n.toDecimal.value

/-- A numeral stands for the number that it denotes, correctly rounded. -/
theorem rounds_toFloat (n : Numeral) : Double.Rounds n.value n.toFloat := by
  have hmagnitude := Double.rounds_nearest n.toDecimal.value_nonneg
  rw [← Decimal.toFloat_eq_nearest] at hmagnitude
  rw [value, toFloat]
  split
  · exact hmagnitude.neg
  · exact hmagnitude

/-- The sign is kept, also by what is rounded to zero. -/
lemma signOf_toFloat (n : Numeral) :
    Double.signOf n.toFloat = if n.negative then .negative else .positive := by
  have hsign := Double.signOf_nearest n.toDecimal.value_nonneg
  rw [← Decimal.toFloat_eq_nearest] at hsign
  rw [toFloat]
  split
  · exact hsign.2
  · exact hsign.1

/-! ### What is left -/

/-- What follows a spelling and is no more of it: a sign, a second point, a marker without digits. -/
inductive Leaves (t : List Char) : List Char → Prop
  | sign {c : Char} {r : List Char} : c = '+' ∨ c = '-' → Leaves t (c :: r)
  | point {r : List Char} : '.' ∈ t → Leaves t ('.' :: r)
  | marker {c : Char} {r : List Char} : c = 'e' ∨ c = 'E' →
      (∀ u negative v, r = u ++ v → Sign u negative → Avoids Char.isDigit v) → Leaves t (c :: r)

lemma readExponent_of_avoids_digits {c : Char} {r : List Char}
    (h : ∀ u negative v, r = u ++ v → Sign u negative → Avoids Char.isDigit v) :
    readExponent (c :: r) = (0, c :: r) := by
  obtain ⟨u, hr, hsign⟩ := sign_readSign r
  have hdigits : (readSign r).2.takeWhile Char.isDigit = [] := by
    have htake := Text.takeWhile_append (t := []) (by simp) (h u _ _ hr hsign)
    rwa [List.nil_append] at htake
  simp [readExponent, hdigits]

lemma Spells.read?_of_leaves {t r : List Char} {n : Numeral} (h : Spells t n) (hr : Leaves t r) :
    read? (t ++ r) = some (n, r) := by
  cases hr with
  | sign hc =>
    refine read?_append h (avoids_cons ?_)
    rcases hc with rfl | rfl <;> rfl
  | point hpoint =>
    refine read?_append_of_rest h (avoids_cons rfl) (.inl hpoint) ?_
    rfl
  | marker hc hdigits =>
    refine read?_append_of_rest h (avoids_cons ?_) (.inr (avoids_cons ?_))
      (readExponent_of_avoids_digits hdigits)
    all_goals rcases hc with rfl | rfl <;> rfl

/-! ### The longest numeral -/

lemma Spells.ne_nil {t : List Char} {n : Numeral} (h : Spells t n) : t ≠ [] := by
  obtain ⟨s, m, x, rfl, -, hm, -⟩ := h
  obtain ⟨c, u, rfl, -⟩ := hm.head
  simp

lemma exists_read?_iff {s : List Char} :
    (∃ n r, read? s = some (n, r)) ↔ ∃ t r n, s = t ++ r ∧ t ≠ [] ∧ Spells t n := by
  constructor
  · rintro ⟨n, r, h⟩
    obtain ⟨t, hs, ht⟩ := spells_read? h
    exact ⟨t, r, n, hs, ht.ne_nil, ht⟩
  · rintro ⟨t, r, n, rfl, -, ht⟩
    obtain ⟨n', r', h, -⟩ := read?_longest ht r
    exact ⟨n', r', h⟩

/-- A numeral is read just where a text begins with a spelling. Then the longest one is read and the rest is
left unchanged, with the sign, the second point or the marker without digits that it may begin with; and the
numeral stands for the number that it denotes, correctly rounded and with its sign. -/
theorem longest_of_read (s : List Char) :
    ((∃ n r, read? s = some (n, r)) ↔ ∃ t r n, s = t ++ r ∧ t ≠ [] ∧ Spells t n)
    ∧ (∀ n r, read? s = some (n, r) ↔ ∃ t, s = t ++ r ∧ t ≠ [] ∧ Spells t n
        ∧ ∀ t' r' n', s = t' ++ r' → Spells t' n' → t'.length ≤ t.length)
    ∧ (∀ t r n, s = t ++ r → Spells t n → Leaves t r → read? s = some (n, r))
    ∧ ∀ n r, read? s = some (n, r) → Double.Rounds n.value n.toFloat
        ∧ Double.signOf n.toFloat = if n.negative then .negative else .positive := by
  refine ⟨exists_read?_iff, fun n r => ?_, ?_, fun n _ _ => ⟨n.rounds_toFloat, n.signOf_toFloat⟩⟩
  · rw [read?_eq_some_iff]
    constructor
    · rintro ⟨t, hs, ht, hmax⟩
      exact ⟨t, hs, ht.ne_nil, ht, hmax⟩
    · rintro ⟨t, hs, -, ht, hmax⟩
      exact ⟨t, hs, ht, hmax⟩
  · rintro t r n rfl ht hr
    exact ht.read?_of_leaves hr

/-- The marker and the sign behind it are left, since a point follows and no digit. -/
theorem longest_before_marker :
    let t := ['-', '.', '2', '5']
    let r := ['e', '+', '.', '5']
    let n : Numeral := ⟨true, [], ['2', '5'], 0⟩
    Spells t n ∧ Leaves t r ∧ read? (t ++ r) = some (n, r)
      ∧ n.value = -1 / 4 ∧ Double.Rounds n.value n.toFloat ∧ Double.signOf n.toFloat = .negative := by
  intro t r n
  have hspells : Spells t n :=
    ⟨['-'], ['.', '2', '5'], [], rfl, .minus, .fraction (by simp [Digits]) (by simp), .none⟩
  have hleaves : Leaves t r := by
    refine .marker (.inl rfl) fun u negative v huv hsign => ?_
    cases hsign with
    | none =>
      obtain rfl : ['+', '.', '5'] = v := huv
      exact avoids_cons rfl
    | plus =>
      obtain rfl : ['.', '5'] = v := (List.cons.inj huv).2
      exact avoids_cons rfl
    | minus => exact absurd (List.cons.inj huv).1 (by decide)
  obtain ⟨-, -, hleft, hround⟩ := longest_of_read (t ++ r)
  have hread := hleft t r n rfl hspells hleaves
  have hvalue : n.value = -1 / 4 := by
    have hdigits : Decimal.ofDigits ['2', '5'] = 25 := by decide
    simp [value, n, toDecimal, Decimal.value, hdigits]
    norm_num
  exact ⟨hspells, hleaves, hread, hvalue, hround n _ hread⟩

end Iconsmith.Numeral
