import Iconsmith.Decimal.Style
import Iconsmith.Proofs.Decimal.Nearest
import Iconsmith.Proofs.Decimal.Spelling
import Mathlib.Tactic

/-!
# Numbers read back from their text

The shortest decimal of a double is sent back to the double, and its text spells a numeral of the same
value in every style. So every double is read back from its text, but for the sign of a zero, which is
not written.
-/

namespace Iconsmith

open Float.Model.UnpackedFloat (Sign)
open Double (Canonical ofCanonical zero)

namespace Decimal

lemma value_normalize (d : Decimal) : d.normalize.value = d.value := by
  fun_induction normalize d with
  | case1 d h => simp [value, h]
  | case2 d h h' ih =>
    have hten : (d.digits : ℚ) = (d.digits / 10 : Nat) * 10 := by
      exact_mod_cast (by omega : d.digits = d.digits / 10 * 10)
    rw [ih, value, value, hten, zpow_add₀ (by norm_num), zpow_one]
    ring
  | case3 d h h' => rfl

lemma value_toDecimal (m : Nat) (e : Int) : (Binary.toDecimal ⟨m, e⟩).value = m * 2 ^ e := by
  unfold Binary.toDecimal
  by_cases hneg : e < 0
  · obtain ⟨k, hk⟩ := Int.eq_ofNat_of_zero_le (by omega : 0 ≤ -e)
    have he : e = -(k : Int) := by omega
    simp only [if_pos hneg, value]
    rw [he, neg_neg, Int.toNat_natCast, zpow_neg, zpow_neg, zpow_natCast, zpow_natCast]
    push_cast
    rw [show (10 : ℚ) = 5 * 2 by norm_num, mul_pow]
    field_simp
  · obtain ⟨k, rfl⟩ := Int.eq_ofNat_of_zero_le (by omega : 0 ≤ e)
    simp only [if_neg hneg, value, Int.toNat_natCast, zpow_natCast, zpow_zero, mul_one]
    push_cast
    rfl

lemma readsBack_of_onGrid? {x : Float} {g : Int} {d : Decimal} (h : onGrid? x g = some d) :
    d.readsBack x = true := by
  unfold onGrid? at h
  simp only at h
  split at h
  · rename_i hbelow habove
    split at h
    · cases h
      exact hbelow
    · cases h
      exact habove
  · rename_i hbelow _
    cases h
    exact hbelow
  · rename_i _ habove
    cases h
    exact habove
  · contradiction

/-- The shortest decimal of a double is sent to the double. -/
theorem toFloat_shortest {m : Nat} {e : Int} (h : Canonical m e) :
    (shortest (ofCanonical .positive h)).toFloat = ofCanonical .positive h := by
  obtain ⟨-, -, hbinary⟩ := Double.ofFloat_ofCanonical .positive h
  unfold shortest
  simp only [hbinary]
  rw [if_neg h.pos.ne', toFloat_congr (value_normalize _)]
  generalize hfound : (List.range 17).findSome? _ = found
  cases found with
  | none =>
    rw [Option.getD_none, toFloat_eq_nearest, value_toDecimal, Double.nearest_eq_ofCanonical h]
  | some d =>
    obtain ⟨n, -, hgrid⟩ := List.exists_of_findSome?_eq_some hfound
    exact Double.eq_of_beq_ofCanonical .positive h (readsBack_of_onGrid? hgrid)

/-! ### Digits -/

lemma ofDigits_toDigits (n : Nat) : ofDigits (Nat.toDigits 10 n) = n :=
  Nat.ofDigitChars_ten_toDigits

lemma ofDigits_append_zeros (ds : List Char) (k : Nat) :
    ofDigits (ds ++ List.replicate k '0') = ofDigits ds * 10 ^ k := by
  have h : ofDigits (ds ++ List.replicate k '0') =
      Nat.ofDigitChars 10 (List.replicate k '0') (ofDigits ds) := Nat.ofDigitChars_append 0
  rw [h, Nat.ofDigitChars_replicate_zero, mul_comm]

lemma ofDigits_zeros_append (k : Nat) (ds : List Char) :
    ofDigits (List.replicate k '0' ++ ds) = ofDigits ds := by
  have h : ofDigits (List.replicate k '0' ++ ds) =
      Nat.ofDigitChars 10 ds (Nat.ofDigitChars 10 (List.replicate k '0') 0) :=
    Nat.ofDigitChars_append 0
  rw [h, Nat.ofDigitChars_replicate_zero, mul_zero]
  rfl

open Numeral (Digits Exponent Mantissa Spells)

lemma digits_toDigits (n : Nat) : Digits (Nat.toDigits 10 n) :=
  fun _ hc => Nat.isDigit_of_mem_toDigits (by decide) (by decide) hc

lemma digits_replicate (k : Nat) : Digits (List.replicate k '0') := by
  intro c hc
  rw [List.eq_of_mem_replicate hc]
  rfl

lemma digits_append {s t : List Char} (hs : Digits s) (ht : Digits t) : Digits (s ++ t) := by
  intro c hc
  rcases List.mem_append.mp hc with hc | hc
  · exact hs c hc
  · exact ht c hc

/-- Digits laid out without an exponent keep their value. -/
lemma mantissa_layPositional (st : Style) {ds : List Char} (hds : Digits ds) (hne : ds ≠ [])
    (e : Int) :
    ∃ w f, Mantissa (st.layPositional ds e) w f ∧
      value ⟨ofDigits (w ++ f), 0 - f.length⟩ = ofDigits ds * 10 ^ e := by
  unfold Style.layPositional
  by_cases he : 0 ≤ e
  · rw [if_pos he]
    obtain ⟨k, rfl⟩ := Int.eq_ofNat_of_zero_le he
    have hwhole := digits_append hds (digits_replicate k)
    have hwhole' : ds ++ List.replicate k '0' ≠ [] := by simp [hne]
    rw [Int.toNat_natCast]
    cases st.wholePoint with
    | true =>
      refine ⟨ds ++ List.replicate k '0', ['0'], .pointed hwhole hwhole' (digits_replicate 1), ?_⟩
      have hzero := ofDigits_append_zeros (ds ++ List.replicate k '0') 1
      rw [List.replicate_one] at hzero
      rw [hzero, ofDigits_append_zeros, value]
      simp
    | false =>
      refine ⟨ds ++ List.replicate k '0', [], ?_, ?_⟩
      · simpa using Mantissa.whole hwhole hwhole'
      · rw [List.append_nil, ofDigits_append_zeros, value]
        simp
  · rw [if_neg he]
    have hplaces : e = -((-e).toNat : Int) := by omega
    generalize (-e).toNat = places at hplaces
    subst hplaces
    simp only
    split
    · rename_i hlt
      refine ⟨ds.take (ds.length - places), ds.drop (ds.length - places), .pointed ?_ ?_ ?_, ?_⟩
      · exact fun c hc => hds c (List.mem_of_mem_take hc)
      · rw [ne_eq, List.take_eq_nil_iff, not_or]
        exact ⟨by omega, hne⟩
      · exact fun c hc => hds c (List.mem_of_mem_drop hc)
      · have hlength : ds.length - (ds.length - places) = places := by omega
        rw [List.take_append_drop, value, List.length_drop, hlength, zero_sub]
    · rename_i hle
      refine ⟨['0'], List.replicate (places - ds.length) '0' ++ ds, ?_, ?_⟩
      · have hfraction := digits_append (digits_replicate (places - ds.length)) hds
        exact Mantissa.pointed (digits_replicate 1) (List.cons_ne_nil _ _) hfraction
      · have hzeros : ['0'] ++ (List.replicate (places - ds.length) '0' ++ ds) =
            List.replicate (places - ds.length + 1) '0' ++ ds := by
          rw [List.replicate_succ]
          rfl
        have hlength : places - ds.length + ds.length = places := by omega
        rw [hzeros, ofDigits_zeros_append, value, List.length_append, List.length_replicate, hlength,
          zero_sub]

/-- The text of an integer is an exponent behind its marker. -/
lemma exponent_toString (k : Int) : Exponent ('e' :: (toString k).toList) k := by
  cases k with
  | ofNat n =>
    have hmarked := Exponent.marked (Or.inl rfl) .none (digits_toDigits n) Nat.toDigits_ne_nil
    rw [ofDigits_toDigits] at hmarked
    have htext : (toString (Int.ofNat n)).toList = Nat.toDigits 10 n := String.toList_ofList
    rw [htext]
    exact hmarked
  | negSucc n =>
    have hmarked := Exponent.marked (Or.inl rfl) .minus (digits_toDigits (n + 1))
      Nat.toDigits_ne_nil
    rw [ofDigits_toDigits] at hmarked
    have htext : (toString (Int.negSucc n)).toList = ['-'] ++ Nat.toDigits 10 (n + 1) := by
      change ("-" ++ String.ofList (Nat.toDigits 10 (n + 1))).toList = _
      simp
    rw [htext]
    exact hmarked

/-- Digits laid out with an exponent keep their value. -/
lemma mantissa_layScientific {ds : List Char} (hds : Digits ds) (hne : ds ≠ []) (e : Int) :
    ∃ m x w f k, Style.layScientific ds e = m ++ x ∧ Mantissa m w f ∧ Exponent x k ∧
      value ⟨ofDigits (w ++ f), k - f.length⟩ = ofDigits ds * 10 ^ e := by
  obtain ⟨d, ds, rfl⟩ := List.exists_cons_of_ne_nil hne
  have hfirst : Digits [d] := by
    intro c hc
    rw [List.mem_singleton.mp hc]
    exact hds d List.mem_cons_self
  have hexponent := exponent_toString (e + (d :: ds).length - 1)
  cases ds with
  | nil =>
    refine ⟨[d], _, [d], [], _, rfl, .whole hfirst (List.cons_ne_nil _ _), hexponent, ?_⟩
    simp [value]
  | cons d' ds =>
    have hrest : Digits (d' :: ds) := fun c hc => hds c (List.mem_cons_of_mem d hc)
    refine ⟨d :: '.' :: d' :: ds, _, [d], d' :: ds, _, rfl,
      .pointed hfirst (List.cons_ne_nil _ _) hrest, hexponent, ?_⟩
    have hplace : e + (d :: d' :: ds).length - 1 - (d' :: ds).length = e := by
      simp only [List.length_cons]
      omega
    rw [value, hplace, List.singleton_append]

/-- A decimal keeps its value in every style. -/
lemma mantissa_layOut (st : Style) (d : Decimal) :
    ∃ m x w f k, st.layOut d = m ++ x ∧ Mantissa m w f ∧ Exponent x k ∧
      value ⟨ofDigits (w ++ f), k - f.length⟩ = d.value := by
  have hds := digits_toDigits d.digits
  have hvalue : d.value = ofDigits (Nat.toDigits 10 d.digits) * 10 ^ d.exponent := by
    rw [ofDigits_toDigits, value]
  rw [hvalue]
  unfold Style.layOut
  dsimp only
  split_ifs
  · obtain ⟨w, f, hmantissa, heq⟩ := mantissa_layPositional st hds Nat.toDigits_ne_nil d.exponent
    exact ⟨_, [], w, f, 0, (List.append_nil _).symm, hmantissa, .none, heq⟩
  · exact mantissa_layScientific hds Nat.toDigits_ne_nil d.exponent

end Decimal

/-! ### Text -/

namespace Decimal

open Numeral (Spells)

lemma chars_ofCanonical (st : Style) (s : Sign) {m : Nat} {e : Int} (h : Canonical m e) :
    st.chars (ofCanonical s h) =
      (match s with
        | .positive => []
        | .negative => ['-']) ++ st.layOut (shortest (ofCanonical .positive h)) := by
  obtain ⟨hbiased, hsign, -⟩ := Double.ofFloat_ofCanonical s h
  have hfinite : (ofCanonical s h).isFinite = true := (Double.isFinite_iff _).mpr hbiased
  rw [Style.chars, Double.isNaN_of_isFinite hfinite, hfinite, Double.abs_ofCanonical]
  simp only [Bool.false_eq_true, if_false, if_true]
  congr 1
  have hbound : (0x8000000000000000 : Nat) = 2 ^ 63 := rfl
  rw [hbound]
  unfold Double.signOf at hsign
  by_cases hbits : (ofCanonical s h).toBits.toNat < 2 ^ 63
  · rw [if_pos hbits] at hsign ⊢
    rw [← hsign]
  · rw [if_neg hbits] at hsign ⊢
    rw [← hsign]

lemma chars_zero (st : Style) : st.chars 0 = st.layOut ⟨0, 0⟩ := by
  have hnumber : Float.isNaN 0 = false := by decide
  have hsign : (Float.toBits 0).toNat < 0x8000000000000000 := by decide
  have hfinite : Float.isFinite 0 = true := by decide
  have hshortest : shortest (Float.abs 0) = ⟨0, 0⟩ := by decide
  simp only [Style.chars, hnumber, hsign, hfinite, hshortest, Bool.false_eq_true, if_false, if_true,
    List.nil_append]

lemma toList_unsignedZero (st : Style) (x : Float) :
    (st.unsignedZero x).toList = st.chars (Double.unsigned x) := by
  rw [Style.unsignedZero, ← Double.unsigned, Style.text, String.toList_ofList]

/-- The text of a finite double spells a numeral that denotes the double, in every style. -/
theorem spells_text (st : Style) {x : Float} (hx : x.isFinite = true) :
    ∃ n : Numeral, Spells (st.unsignedZero x).toList n ∧ n.toFloat = Double.unsigned x := by
  rw [toList_unsignedZero]
  rcases Double.isFinite_cases hx with ⟨s, rfl⟩ | ⟨s, m, e, h, rfl⟩
  · obtain ⟨m, x, w, f, k, hlay, hmantissa, hexponent, hvalue⟩ := mantissa_layOut st ⟨0, 0⟩
    have hzero : (⟨0, 0⟩ : Decimal).toFloat = 0 := by decide
    rw [Double.unsigned_zero, chars_zero, hlay]
    exact ⟨⟨false, w, f, k⟩, ⟨[], m, x, rfl, .none, hmantissa, hexponent⟩,
      (toFloat_congr hvalue).trans hzero⟩
  · obtain ⟨m, x, w, f, k, hlay, hmantissa, hexponent, hvalue⟩ :=
      mantissa_layOut st (shortest (ofCanonical .positive h))
    have hfloat : (⟨ofDigits (w ++ f), k - f.length⟩ : Decimal).toFloat = ofCanonical .positive h :=
      (toFloat_congr hvalue).trans (toFloat_shortest h)
    rw [Double.unsigned_ofCanonical, chars_ofCanonical, hlay]
    cases s with
    | positive => exact ⟨⟨false, w, f, k⟩, ⟨[], m, x, rfl, .none, hmantissa, hexponent⟩, hfloat⟩
    | negative =>
      refine ⟨⟨true, w, f, k⟩, ⟨['-'], m, x, rfl, .minus, hmantissa, hexponent⟩, ?_⟩
      have : Numeral.toFloat ⟨true, w, f, k⟩ = -ofCanonical .positive h := by
        rw [← hfloat]
        rfl
      rw [this, Double.neg_ofCanonical]
      rfl

/-- The plain text of a finite double spells a numeral that denotes the double. -/
theorem spells_unsignedZero {x : Float} (hx : x.isFinite = true) :
    ∃ n : Numeral, Spells (Style.plain.unsignedZero x).toList n ∧ n.toFloat = Double.unsigned x :=
  spells_text .plain hx

lemma not_isFinite_unsigned {x : Float} (hx : x.isFinite = false) :
    (Double.unsigned x).isFinite = false := by
  rcases Double.not_isFinite_cases hx with rfl | rfl | rfl <;> decide

/-- What is not finite has one text in all styles. -/
lemma chars_of_not_isFinite (st : Style) {x : Float} (hx : x.isFinite = false) :
    st.chars x = Style.plain.chars x := by
  simp [Style.chars, hx]

/-- Only letters, digits, signs and points stand in the text of a double. -/
lemma mem_text (st : Style) (x : Float) :
    ∀ c ∈ (st.unsignedZero x).toList, c.isAlphanum = true ∨ c = '+' ∨ c = '-' ∨ c = '.' := by
  cases hx : x.isFinite with
  | true =>
    obtain ⟨n, hspells, -⟩ := spells_text st hx
    exact fun c hc => hspells.mem hc
  | false =>
    rw [toList_unsignedZero, chars_of_not_isFinite st (not_isFinite_unsigned hx)]
    rcases Double.not_isFinite_cases hx with rfl | rfl | rfl <;> decide

/-- Every double is read back from its text, but for the sign of a zero. -/
theorem floatOf?_text (st : Style) (x : Float) :
    Numeral.floatOf? (st.unsignedZero x).toList = some (Double.unsigned x) := by
  cases hx : x.isFinite with
  | true =>
    obtain ⟨n, hspells, hvalue⟩ := spells_text st hx
    have hread := Numeral.read?_append hspells Text.avoids_nil
    rw [List.append_nil] at hread
    rw [Numeral.floatOf?, hread]
    exact congrArg some hvalue
  | false =>
    rw [toList_unsignedZero, chars_of_not_isFinite st (not_isFinite_unsigned hx)]
    rcases Double.not_isFinite_cases hx with rfl | rfl | rfl <;> decide

end Decimal

end Iconsmith
