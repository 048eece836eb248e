import Iconsmith.Proofs.Decimal.Nearest
import Iconsmith.Proofs.Decimal.Spelling

/-!
# The undefined number

Rounding gives a number or an infinity, so that a numeral is never undefined, however it is spelt. A text
that is read as a number is undefined just if it says so, in letters of either case. A comparison with the
undefined number fails, also where the comparison the other way fails.
-/

namespace Iconsmith

namespace Double

open Float.Model (Format UnpackedFloat)
open Float.Model.UnpackedFloat (Sign packComponents)

variable {x : Float}

lemma isNaN_infinity (s : Sign) : (Float.ofModel (.pack (.infinity s))).isNaN = false := by
  cases s <;> decide

lemma biased_of_packComponents {s : Sign} {e : BitVec 11} {m : BitVec 52}
    (h : x.toBits.toNat = (packComponents Format.binary64 s e m).toNat) : biased x = e.toNat := by
  have hsign := toNat_toBitVec_le s
  have hexponent : e.toNat < 2 ^ 11 := e.isLt
  have hmantissa : m.toNat < 2 ^ 52 := m.isLt
  rw [toNat_packComponents] at h
  rw [biased, h]
  omega

/-- What is packed is undefined only if it was. -/
lemma isNaN_pack {u : UnpackedFloat} (h : u ≠ .notANumber) :
    (Float.ofModel (.pack u)).isNaN = false := by
  cases u with
  | notANumber => contradiction
  | infinity s => exact isNaN_infinity s
  | zero s => cases s <;> decide
  | finite s m e hm =>
    have hbits : (Float.ofModel (.pack (.finite s m e hm))).toBits.toNat =
        (UnpackedFloat.pack Format.binary64 (.finite s m e hm)).toNat := rfl
    unfold UnpackedFloat.pack at hbits
    dsimp only at hbits
    split at hbits
    · -- beyond the range of doubles, where an infinity is packed
      rw [eq_of_toBits_toNat (y := Float.ofModel (.pack (.infinity s))) hbits]
      exact isNaN_infinity s
    · rename_i hfits
      refine isNaN_of_isFinite ((isFinite_iff _).mpr ?_)
      split at hbits
      · rw [biased_of_packComponents hbits, BitVec.toNat_ofNat]
        omega
      · rw [biased_of_packComponents hbits]
        decide

lemma isNaN_nearest (v : ℚ) : (nearest v).isNaN = false := by
  rw [nearest]
  split
  · exact isNaN_pack (by rintro ⟨⟩)
  · refine isNaN_pack ?_
    rw [settle]
    split
    · rintro ⟨⟩
    · rintro ⟨⟩

lemma isNaN_neg (h : x.isNaN = false) : (-x).isNaN = false := by
  change x.toModel.unpack.isNaN = false at h
  change (Float.ofModel (.pack x.toModel.unpack.neg)).isNaN = false
  refine isNaN_pack ?_
  cases hx : x.toModel.unpack with
  | notANumber =>
    rw [hx] at h
    contradiction
  | infinity s => nofun
  | zero s => nofun
  | finite s m e hm => nofun

/-- What is not at most zero is positive, or it is undefined. -/
lemma pos_or_isNaN_of_not_le_zero (h : ¬ x ≤ 0) : 0 < x ∨ x.isNaN = true := by
  rw [le_zero_iff] at h
  rw [pos_iff]
  change _ ∨ x.toModel.unpack.isNaN = true
  generalize x.toModel.unpack = u at h ⊢
  cases u with
  | notANumber => exact .inr rfl
  | infinity s =>
    cases s with
    | positive => exact .inl rfl
    | negative => exact absurd rfl h
  | zero s => exact absurd rfl h
  | finite s m e hm =>
    cases s with
    | positive => exact .inl rfl
    | negative => exact absurd rfl h

end Double

namespace Numeral

open Double (isNaN_nearest isNaN_neg)

/-- A text that spells the undefined number: its letters in either case, perhaps behind a sign. -/
def IsUndefined (s : List Char) : Prop :=
  ∃ sign name negative, s = sign ++ name ∧ Sign sign negative ∧
    name.map Char.toLower = ['n', 'a', 'n']

/-- A numeral denotes a number or an infinity. -/
lemma isNaN_toFloat (n : Numeral) : n.toFloat.isNaN = false := by
  have hmagnitude : n.toDecimal.toFloat.isNaN = false := by
    rw [Decimal.toFloat_eq_nearest]
    exact isNaN_nearest _
  rw [toFloat]
  split
  · exact isNaN_neg hmagnitude
  · exact hmagnitude

lemma eq_of_toLower_eq_n {c : Char} (h : c.toLower = 'n') : c = 'n' ∨ c = 'N' := by
  by_cases hupper : 'A'.val ≤ c.val ∧ c.val ≤ 'Z'.val
  · have hletters : ∀ n ≤ 90, 65 ≤ n → (Char.ofNat n).toLower = 'n' → Char.ofNat n = 'N' := by decide
    rw [← Char.ofNat_toNat c] at h ⊢
    exact .inr (hletters c.toNat hupper.2 hupper.1 h)
  · rw [Char.toLower, dif_neg hupper] at h
    exact .inl h

section Undefined

variable {s : List Char}

/-- A text that spells the undefined number has a letter in it that no numeral has. -/
lemma IsUndefined.exists_mem (h : IsUndefined s) :
    ∃ c u, (readSign s).2 = c :: u ∧ c ∈ s ∧ isNumeralChar c = false ∧
      (c :: u).map Char.toLower = ['n', 'a', 'n'] := by
  obtain ⟨sign, name, negative, rfl, hsign, hname⟩ := h
  obtain ⟨c, u, rfl, hc, hu⟩ := List.map_eq_cons_iff.mp hname
  have hletter : c = 'n' ∨ c = 'N' := eq_of_toLower_eq_n hc
  refine ⟨c, u, ?_, by simp, ?_, hname⟩
  · cases hsign with
    | none => rcases hletter with rfl | rfl <;> rfl
    | plus => rfl
    | minus => rfl
  · rcases hletter with rfl | rfl <;> decide

lemma isNaN_namedFloat?_iff {x : Float} (h : namedFloat? s = some x) :
    x.isNaN = true ↔ IsUndefined s := by
  have hname (hundefined : IsUndefined s) : ((readSign s).2).map Char.toLower = ['n', 'a', 'n'] := by
    obtain ⟨c, u, hread, -, -, hlower⟩ := hundefined.exists_mem
    rw [hread, hlower]
  have hinfinity (negative : Bool) : (if negative then -(1 / 0) else 1 / 0 : Float).isNaN = false := by
    cases negative <;> decide
  unfold namedFloat? at h
  dsimp only at h
  split at h
  · rename_i hinf
    obtain rfl := Option.some.inj h
    refine iff_of_false (by rw [hinfinity]; decide) fun hundefined => ?_
    rw [hname hundefined] at hinf
    exact absurd hinf (by decide)
  · split at h
    · rename_i hnan
      obtain rfl := Option.some.inj h
      obtain ⟨sign, hs, hsign⟩ := sign_readSign s
      have hletters := congrArg String.toList hnan
      rw [String.toList_ofList] at hletters
      exact iff_of_true (by decide) ⟨sign, _, _, hs, hsign, hletters⟩
    · contradiction

/-- A text that is read as a number is undefined just if it says so. -/
theorem isNaN_floatOf?_iff {x : Float} (h : floatOf? s = some x) :
    x.isNaN = true ↔ IsUndefined s := by
  rw [floatOf?] at h
  split at h
  · rename_i n hread
    obtain rfl := Option.some.inj h
    refine iff_of_false (by rw [isNaN_toFloat]; decide) fun hundefined => ?_
    obtain ⟨t, htext, hspells⟩ := spells_read? hread
    obtain ⟨c, -, -, hmem, hchar, -⟩ := hundefined.exists_mem
    rw [htext, List.append_nil] at hmem
    rw [hspells.isNumeralChar_of_mem hmem] at hchar
    contradiction
  · exact isNaN_namedFloat?_iff h

end Undefined

end Numeral

end Iconsmith
