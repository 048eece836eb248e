import Iconsmith.Decimal.Binary
import Mathlib

/-!
# Finite doubles

A finite double is a signed zero, or has a sign and a magnitude: a mantissa and an exponent in the
one form in which doubles keep them. What the operations on doubles do is told case by case.
-/

namespace Iconsmith

namespace Double

open Float.Model (Format UnpackedFloat)
open Float.Model.UnpackedFloat (Sign unpackMantissa unpackExponent unpackSign packComponents)

/-- A mantissa and an exponent in the form in which a double keeps a magnitude. -/
structure Canonical (m : Nat) (e : Int) : Prop where
  pos : 0 < m
  lt : m < 2 ^ 53
  le : -1074 ≤ e
  fits : e ≤ 971
  full : 2 ^ 52 ≤ m ∨ e = -1074

/-- The sign of a double, also of a zero. -/
def signOf (x : Float) : Sign :=
  if x.toBits.toNat < 2 ^ 63 then .positive else .negative

/-- The exponent of a double as it is stored. -/
def biased (x : Float) : Nat :=
  x.toBits.toNat / 2 ^ 52 % 2 ^ 11

lemma toNat_unpackMantissa (b : BitVec 64) :
    (@unpackMantissa Format.binary64 b).toNat = b.toNat % 2 ^ 52 := by
  simp [unpackMantissa]

lemma toNat_unpackExponent (b : BitVec 64) :
    (@unpackExponent Format.binary64 b).toNat = b.toNat / 2 ^ 52 % 2 ^ 11 := by
  simp [unpackExponent, BitVec.extractLsb_toNat, Nat.shiftRight_eq_div_pow]

lemma toNat_unpackSign (b : BitVec 64) :
    (@unpackSign Format.binary64 b).toNat = b.toNat / 2 ^ 63 := by
  have hb : b.toNat < 2 ^ 64 := b.isLt
  have h : (@unpackSign Format.binary64 b).toNat = b.toNat / 2 ^ 63 % 2 := by
    simp [unpackSign, BitVec.extractLsb_toNat, Nat.shiftRight_eq_div_pow]
  rw [h]
  omega

lemma toNat_packComponents (s : Sign) (e : BitVec 11) (m : BitVec 52) :
    (packComponents Format.binary64 s e m).toNat =
      s.toBitVec.toNat * 2 ^ 63 + e.toNat * 2 ^ 52 + m.toNat := by
  have h : (packComponents Format.binary64 s e m).toNat =
      (s.toBitVec.toNat <<< 11 ||| e.toNat) <<< 52 ||| m.toNat := by
    rw [packComponents, BitVec.toNat_append, BitVec.toNat_append]
  rw [h, ← Nat.shiftLeft_add_eq_or_of_lt e.isLt, ← Nat.shiftLeft_add_eq_or_of_lt m.isLt,
    Nat.shiftLeft_eq, Nat.shiftLeft_eq]
  ring

lemma ofBitVec_unpackSign (x : Float) :
    Sign.ofBitVec (@unpackSign Format.binary64 x.toBits.toBitVec) = signOf x := by
  have h := toNat_unpackSign x.toBits.toBitVec
  have hlt : x.toBits.toNat < 2 ^ 64 := x.toBits.toBitVec.isLt
  have hbits : x.toBits.toBitVec.toNat = x.toBits.toNat := rfl
  rw [hbits] at h
  unfold Sign.ofBitVec signOf
  by_cases hsmall : x.toBits.toNat < 2 ^ 63
  · rw [if_pos hsmall, if_pos]
    apply BitVec.eq_of_toNat_eq
    rw [h]
    simp
    omega
  · rw [if_neg hsmall, if_neg]
    intro hzero
    rw [hzero] at h
    simp at h
    omega

lemma ofFloat_of_biased_eq_zero {x : Float} (h : biased x = 0) :
    Binary.ofFloat x = ⟨x.toBits.toNat % 2 ^ 52, -1074⟩ :=
  if_pos h

lemma ofFloat_of_biased_ne_zero {x : Float} (h : biased x ≠ 0) :
    Binary.ofFloat x = ⟨2 ^ 52 + x.toBits.toNat % 2 ^ 52, (biased x : Int) - 1075⟩ :=
  if_neg h

lemma finite_congr {s : Sign} {m m' : Nat} {e e' : Int} (hm : m = m') (he : e = e')
    (h : 0 < m) (h' : 0 < m') : UnpackedFloat.finite s m e h = .finite s m' e' h' := by
  subst hm he
  rfl

/-- A double is taken apart into its fields. -/
lemma unpack_eq (x : Float) :
    x.toModel.unpack =
      if biased x = 2047 then
        if x.toBits.toNat % 2 ^ 52 = 0 then .infinity (signOf x) else .notANumber
      else if h : 0 < (Binary.ofFloat x).mantissa then
        .finite (signOf x) (Binary.ofFloat x).mantissa (Binary.ofFloat x).exponent h
      else .zero (signOf x) := by
  have hexponent := toNat_unpackExponent x.toBits.toBitVec
  have hmantissa := toNat_unpackMantissa x.toBits.toBitVec
  have hbits : x.toBits.toBitVec.toNat = x.toBits.toNat := rfl
  rw [hbits] at hexponent hmantissa
  have hones : @unpackExponent Format.binary64 x.toBits.toBitVec = -1#_ ↔ biased x = 2047 := by
    rw [← BitVec.toNat_inj, hexponent]
    rfl
  have hnone : @unpackExponent Format.binary64 x.toBits.toBitVec = 0#_ ↔ biased x = 0 := by
    rw [← BitVec.toNat_inj, hexponent]
    rfl
  have hzero : @unpackMantissa Format.binary64 x.toBits.toBitVec = 0#_ ↔
      x.toBits.toNat % 2 ^ 52 = 0 := by
    rw [← BitVec.toNat_inj, hmantissa]
    rfl
  have hsign := ofBitVec_unpackSign x
  have hleading : (1#1 ++ @unpackMantissa Format.binary64 x.toBits.toBitVec).toNat =
      2 ^ 52 + x.toBits.toNat % 2 ^ 52 := by
    rw [BitVec.toNat_append, ← Nat.shiftLeft_add_eq_or_of_lt (BitVec.isLt _), hmantissa]
    rfl
  change UnpackedFloat.unpack Format.binary64 x.toBits.toBitVec = _
  unfold UnpackedFloat.unpack
  simp only [hones, hzero, hnone, hsign]
  by_cases h₁ : biased x = 2047
  · simp [h₁]
  · rw [if_neg h₁, if_neg h₁]
    by_cases h₂ : biased x = 0
    · rw [if_pos h₂, ofFloat_of_biased_eq_zero h₂]
      by_cases h₃ : x.toBits.toNat % 2 ^ 52 = 0
      · rw [dif_pos h₃, dif_neg (Nat.not_lt_of_le (Nat.le_of_eq h₃))]
      · rw [dif_neg h₃, dif_pos (Nat.pos_of_ne_zero h₃)]
        refine finite_congr hmantissa ?_ _ _
        have hb : x.toBits.toNat / 2 ^ 52 % 2 ^ 11 = 0 := h₂
        rw [hexponent, hb]
        rfl
    · rw [if_neg h₂, ofFloat_of_biased_ne_zero h₂, dif_pos (by positivity)]
      refine finite_congr hleading ?_ _ _
      rw [hexponent]
      rfl

lemma isFinite_iff (x : Float) : x.isFinite = true ↔ biased x ≠ 2047 := by
  change x.toModel.unpack.isFinite = true ↔ _
  rw [unpack_eq]
  split_ifs <;> simp_all [UnpackedFloat.isFinite]

lemma canonical_ofFloat {x : Float} (hx : x.isFinite = true)
    (h : 0 < (Binary.ofFloat x).mantissa) :
    Canonical (Binary.ofFloat x).mantissa (Binary.ofFloat x).exponent := by
  have hfraction : x.toBits.toNat % 2 ^ 52 < 2 ^ 52 := Nat.mod_lt _ (by positivity)
  have hbiased : biased x < 2 ^ 11 := Nat.mod_lt _ (by positivity)
  have hnot := (isFinite_iff x).mp hx
  by_cases hzero : biased x = 0
  · rw [ofFloat_of_biased_eq_zero hzero] at h ⊢
    exact ⟨h, by simp only; omega, by simp, by simp, .inr rfl⟩
  · rw [ofFloat_of_biased_ne_zero hzero] at h ⊢
    exact ⟨h, by simp only; omega, by simp only; omega, by simp only; omega, .inl (by simp only; omega)⟩

/-- A finite double is nothing but its sign and its magnitude. -/
theorem unpack_of_isFinite {x : Float} (hx : x.isFinite = true) :
    (Binary.ofFloat x).mantissa = 0 ∧ x.toModel.unpack = .zero (signOf x) ∨
      ∃ h : Canonical (Binary.ofFloat x).mantissa (Binary.ofFloat x).exponent,
        x.toModel.unpack =
          .finite (signOf x) (Binary.ofFloat x).mantissa (Binary.ofFloat x).exponent h.pos := by
  rw [unpack_eq, if_neg ((isFinite_iff x).mp hx)]
  by_cases h : 0 < (Binary.ofFloat x).mantissa
  · rw [dif_pos h]
    exact .inr ⟨canonical_ofFloat hx h, rfl⟩
  · rw [dif_neg h]
    exact .inl ⟨by omega, rfl⟩

lemma isNaN_of_isFinite {x : Float} (h : x.isFinite = true) : x.isNaN = false := by
  change x.toModel.unpack.isNaN = false
  rcases unpack_of_isFinite h with ⟨-, hx⟩ | ⟨hm, hx⟩ <;> rw [hx] <;> rfl

/-! ### Putting doubles together -/

/-- The double with a sign and a magnitude. -/
def ofCanonical (s : Sign) {m : Nat} {e : Int} (h : Canonical m e) : Float :=
  .ofModel (.pack (.finite s m e h.pos))

lemma log2_eq {m : Nat} (hlow : 2 ^ 52 ≤ m) (hhigh : m < 2 ^ 53) : m.log2 = 52 := by
  have hne : m ≠ 0 := by
    rintro rfl
    simp at hlow
  have h₁ := (Nat.le_log2 hne).mpr hlow
  have h₂ := (Nat.log2_lt hne).mpr hhigh
  omega

lemma toNat_ofCanonical (s : Sign) {m : Nat} {e : Int} (h : Canonical m e) :
    (ofCanonical s h).toBits.toNat = s.toBitVec.toNat * 2 ^ 63 +
      (if 2 ^ 52 ≤ m then (e + 1075).toNat * 2 ^ 52 else 0) + m % 2 ^ 52 := by
  change (UnpackedFloat.pack Format.binary64 (.finite s m e h.pos)).toNat = _
  have hbias : (e + (Format.binary64.exponentBias : Int) + ((52 : Nat) : Int)).toNat =
      (e + 1075).toNat := by
    change (e + 1023 + 52).toNat = _
    congr 1
    omega
  obtain ⟨hpos, hlt, hle, hfits, -⟩ := h
  have hinfinity : ¬2 ^ 11 ≤ (e + 1075).toNat + 1 := by omega
  unfold UnpackedFloat.pack
  simp only [hbias]
  rw [if_neg hinfinity]
  by_cases hfull : 2 ^ 52 ≤ m
  · have hlog : m.log2 + 1 = Format.binary64.mantissaBits := by
      rw [log2_eq hfull hlt]
      rfl
    rw [if_pos hlog, if_pos hfull, toNat_packComponents, BitVec.toNat_ofNat, BitVec.toNat_ofNat,
      Nat.mod_eq_of_lt (a := (e + 1075).toNat) (by omega)]
  · have hlog : m.log2 + 1 ≠ Format.binary64.mantissaBits := by
      have := (Nat.log2_lt hpos.ne').mpr (Nat.lt_of_not_le hfull)
      change m.log2 + 1 ≠ 53
      omega
    rw [if_neg hlog, if_neg hfull, toNat_packComponents, BitVec.toNat_ofNat]
    simp

lemma toNat_toBitVec_le (s : Sign) : s.toBitVec.toNat ≤ 1 := by
  cases s <;> decide

lemma ofFloat_ofCanonical (s : Sign) {m : Nat} {e : Int} (h : Canonical m e) :
    biased (ofCanonical s h) ≠ 2047 ∧ signOf (ofCanonical s h) = s ∧
      Binary.ofFloat (ofCanonical s h) = ⟨m, e⟩ := by
  have hbits := toNat_ofCanonical s h
  have hsign := toNat_toBitVec_le s
  obtain ⟨hpos, hlt, hle, hfits, hfull⟩ := h
  refine ⟨?_, ?_, ?_⟩
  · unfold biased
    rw [hbits]
    split <;> omega
  · unfold signOf
    rw [hbits]
    cases s with
    | negative =>
      rw [if_neg]
      change ¬(1 * 2 ^ 63 + _ + _ < 2 ^ 63)
      omega
    | positive =>
      rw [if_pos]
      change 0 * 2 ^ 63 + _ + _ < 2 ^ 63
      split <;> omega
  · by_cases hnormal : 2 ^ 52 ≤ m
    · rw [if_pos hnormal] at hbits
      have hbiased : biased (ofCanonical s ⟨hpos, hlt, hle, hfits, hfull⟩) = (e + 1075).toNat := by
        unfold biased
        rw [hbits]
        omega
      rw [ofFloat_of_biased_ne_zero (by omega), hbiased, hbits]
      congr 1 <;> omega
    · rw [if_neg hnormal] at hbits
      have hbiased : biased (ofCanonical s ⟨hpos, hlt, hle, hfits, hfull⟩) = 0 := by
        unfold biased
        rw [hbits]
        omega
      rw [ofFloat_of_biased_eq_zero hbiased, hbits]
      congr 1 <;> omega

theorem unpack_ofCanonical (s : Sign) {m : Nat} {e : Int} (h : Canonical m e) :
    (ofCanonical s h).toModel.unpack = .finite s m e h.pos := by
  obtain ⟨hbiased, hsign, hbinary⟩ := ofFloat_ofCanonical s h
  have hpos : 0 < (Binary.ofFloat (ofCanonical s h)).mantissa := by
    rw [hbinary]
    exact h.pos
  rw [unpack_eq, if_neg hbiased, dif_pos hpos, hsign]
  exact finite_congr (by rw [hbinary]) (by rw [hbinary]) _ _

/-- The zero with a sign. -/
def zero (s : Sign) : Float :=
  .ofModel (.pack (.zero s))

lemma eq_of_toBits_toNat {x y : Float} (h : x.toBits.toNat = y.toBits.toNat) : x = y := by
  obtain ⟨⟨a, hx⟩⟩ := x
  obtain ⟨⟨b, hy⟩⟩ := y
  have : a = b := UInt64.toNat_inj.mp h
  subst this
  rfl

lemma toNat_signOf (x : Float) : (signOf x).toBitVec.toNat = x.toBits.toNat / 2 ^ 63 := by
  have hlt : x.toBits.toNat < 2 ^ 64 := x.toBits.toBitVec.isLt
  unfold signOf
  split
  · change 0 = _
    omega
  · change 1 = _
    omega

lemma toNat_zero (s : Sign) : (zero s).toBits.toNat = s.toBitVec.toNat * 2 ^ 63 := by
  cases s <;> rfl

/-- A finite double is a signed zero or has a magnitude. -/
theorem isFinite_cases {x : Float} (hx : x.isFinite = true) :
    (∃ s, x = zero s) ∨ ∃ s m e, ∃ h : Canonical m e, x = ofCanonical s h := by
  have hlt : x.toBits.toNat < 2 ^ 64 := x.toBits.toBitVec.isLt
  have hnot := (isFinite_iff x).mp hx
  have hsign := toNat_signOf x
  have hbiased : biased x = x.toBits.toNat / 2 ^ 52 % 2 ^ 11 := rfl
  by_cases hpos : 0 < (Binary.ofFloat x).mantissa
  · refine .inr ⟨signOf x, _, _, canonical_ofFloat hx hpos, eq_of_toBits_toNat ?_⟩
    rw [toNat_ofCanonical, hsign]
    by_cases hzero : biased x = 0
    · rw [ofFloat_of_biased_eq_zero hzero, if_neg (by simp only; omega)]
      simp only
      omega
    · rw [ofFloat_of_biased_ne_zero hzero, if_pos (by simp only; omega)]
      simp only
      omega
  · refine .inl ⟨signOf x, eq_of_toBits_toNat ?_⟩
    rw [toNat_zero, hsign]
    by_cases hzero : biased x = 0
    · rw [ofFloat_of_biased_eq_zero hzero] at hpos
      simp only at hpos
      omega
    · rw [ofFloat_of_biased_ne_zero hzero] at hpos
      simp only at hpos
      omega

/-- A double that is not finite is one of two infinities or undefined. -/
theorem not_isFinite_cases {x : Float} (hx : x.isFinite = false) :
    x = 1 / 0 ∨ x = -(1 / 0) ∨ x = 0 / 0 := by
  have hlt : x.toBits.toNat < 2 ^ 64 := x.toBits.toBitVec.isLt
  have hbiased : x.toBits.toNat / 2 ^ 52 % 2 ^ 11 = 2047 := by
    by_contra hne
    have := (isFinite_iff x).mpr hne
    simp [hx] at this
  have hexponent := toNat_unpackExponent x.toBits.toBitVec
  have hmantissa := toNat_unpackMantissa x.toBits.toBitVec
  have hbits : x.toBits.toBitVec.toNat = x.toBits.toNat := rfl
  rw [hbits] at hexponent hmantissa
  by_cases hzero : x.toBits.toNat % 2 ^ 52 = 0
  · have hpositive : (1 / 0 : Float).toBits.toNat = 2047 * 2 ^ 52 := by decide
    have hnegative : (-(1 / 0) : Float).toBits.toNat = 2 ^ 63 + 2047 * 2 ^ 52 := by decide
    by_cases hsmall : x.toBits.toNat < 2 ^ 63
    · refine .inl (eq_of_toBits_toNat ?_)
      rw [hpositive]
      omega
    · refine .inr (.inl (eq_of_toBits_toNat ?_))
      rw [hnegative]
      omega
  · -- all undefined doubles are the same one
    have hones : @unpackExponent Format.binary64 x.toBits.toBitVec = -1#_ := by
      rw [← BitVec.toNat_inj, hexponent, hbiased]
      rfl
    have hsome : @unpackMantissa Format.binary64 x.toBits.toBitVec ≠ 0#_ := by
      intro h
      rw [h] at hmantissa
      exact hzero hmantissa.symm
    have hpacked := x.toModel.valid.eq_packedNaN hones hsome
    have hundefined : (0 / 0 : Float).toBits.toBitVec
        = Float.Model.UnpackedFloat.packedNaN Format.binary64 := by
      decide
    refine .inr (.inr (eq_of_toBits_toNat ?_))
    exact congrArg BitVec.toNat (hpacked.trans hundefined.symm)

/-! ### Operations on finite doubles -/

section Operations

variable {m : Nat} {e : Int}

@[simp] lemma unpack_zero (s : Sign) : (zero s).toModel.unpack = .zero s := by
  cases s <;> rfl

lemma neg_ofCanonical (s : Sign) (h : Canonical m e) :
    -ofCanonical s h = ofCanonical (-s) h := by
  change Float.ofModel (.pack (ofCanonical s h).toModel.unpack.neg) = _
  rw [unpack_ofCanonical]
  rfl

lemma abs_ofCanonical (s : Sign) (h : Canonical m e) :
    (ofCanonical s h).abs = ofCanonical .positive h := by
  change Float.ofModel (.pack (ofCanonical s h).toModel.unpack.abs) = _
  rw [unpack_ofCanonical]
  rfl

lemma beq_eq (x y : Float) : (x == y) = x.toModel.unpack.beq y.toModel.unpack :=
  rfl

lemma zero_positive : zero .positive = 0 := by
  decide

lemma beq_zero (s s' : Sign) : (zero s == zero s') = true := by
  rw [beq_eq, unpack_zero, unpack_zero]
  rfl

lemma ofCanonical_beq_zero (s s' : Sign) (h : Canonical m e) :
    (ofCanonical s h == zero s') = false := by
  rw [beq_eq, unpack_zero, unpack_ofCanonical]
  cases s <;> rfl

lemma ofCanonical_beq_self (s : Sign) (h : Canonical m e) :
    (ofCanonical s h == ofCanonical s h) = true := by
  rw [beq_eq, unpack_ofCanonical]
  cases s <;> simp [UnpackedFloat.beq, UnpackedFloat.compare]

lemma eq_of_beq_ofCanonical {x : Float} (s : Sign) (h : Canonical m e)
    (hx : (x == ofCanonical s h) = true) : x = ofCanonical s h := by
  have hfinite : x.isFinite = true := by
    rw [beq_eq, unpack_ofCanonical] at hx
    change x.toModel.unpack.isFinite = true
    revert hx
    cases x.toModel.unpack with
    | infinity s' => cases s <;> cases s' <;> intro hx <;> contradiction
    | notANumber => intro hx; contradiction
    | zero s' => intro _; rfl
    | finite => intro _; rfl
  rcases isFinite_cases hfinite with ⟨s', rfl⟩ | ⟨s', m', e', h', rfl⟩
  · rw [beq_eq, unpack_ofCanonical, unpack_zero] at hx
    cases s <;> contradiction
  · rw [beq_eq, unpack_ofCanonical, unpack_ofCanonical] at hx
    cases s <;> cases s' <;>
      simp_all [UnpackedFloat.beq, UnpackedFloat.compare, Ordering.then_eq_eq]

end Operations

/-! ### The sign of a zero -/

/-- A double, but for the sign of a zero. -/
def unsigned (x : Float) : Float :=
  if x == 0 then 0 else x

lemma unsigned_zero (s : Sign) : unsigned (zero s) = 0 := by
  rw [unsigned, ← zero_positive, beq_zero, if_pos rfl]

lemma unsigned_ofCanonical (s : Sign) {m : Nat} {e : Int} (h : Canonical m e) :
    unsigned (ofCanonical s h) = ofCanonical s h := by
  rw [unsigned, ← zero_positive, ofCanonical_beq_zero, if_neg (by decide)]

lemma unsigned_eq (x : Float) : unsigned x = 0 ∨ unsigned x = x := by
  rw [unsigned]
  split
  · exact .inl rfl
  · exact .inr rfl

lemma unsigned_beq {x : Float} (hx : x.isFinite = true) : (unsigned x == x) = true := by
  rcases isFinite_cases hx with ⟨s, rfl⟩ | ⟨s, m, e, h, rfl⟩
  · rw [unsigned_zero, ← zero_positive, beq_zero]
  · rw [unsigned_ofCanonical, ofCanonical_beq_self]

lemma unsigned_eq_of_beq {x y : Float} (hy : y.isFinite = true) (h : (x == y) = true) :
    unsigned x = unsigned y := by
  rcases isFinite_cases hy with ⟨s, rfl⟩ | ⟨s, m, e, hm, rfl⟩
  · have hzero : (x == 0) = true := by
      rw [beq_eq, unpack_zero] at h
      rw [← zero_positive, beq_eq, unpack_zero, ← h]
      cases x.toModel.unpack with
      | infinity s' => cases s' <;> cases s <;> rfl
      | notANumber => rfl
      | zero s' => cases s' <;> cases s <;> rfl
      | finite s' => cases s' <;> cases s <;> rfl
    rw [unsigned_zero, unsigned, if_pos hzero]
  · rw [eq_of_beq_ofCanonical s hm h]

/-- Finite doubles that are the same but for the sign of a zero are the same, or both are zeros. -/
lemma eq_or_zero_of_unsigned_eq {x y : Float} (hx : x.isFinite = true) (hy : y.isFinite = true)
    (h : unsigned x = unsigned y) : x = y ∨ ∃ s s', x = zero s ∧ y = zero s' := by
  have hne (s : Sign) {m : Nat} {e : Int} (hm : Canonical m e) : ofCanonical s hm ≠ 0 := by
    intro hzero
    have hfalse := ofCanonical_beq_zero s .positive hm
    rw [hzero, ← zero_positive, beq_zero] at hfalse
    contradiction
  rcases isFinite_cases hx with ⟨s, rfl⟩ | ⟨s, m, e, hm, rfl⟩ <;>
    rcases isFinite_cases hy with ⟨s', rfl⟩ | ⟨s', m', e', hm', rfl⟩
  · exact .inr ⟨s, s', rfl, rfl⟩
  · rw [unsigned_zero, unsigned_ofCanonical] at h
    exact absurd h.symm (hne s' hm')
  · rw [unsigned_zero, unsigned_ofCanonical] at h
    exact absurd h (hne s hm)
  · rw [unsigned_ofCanonical, unsigned_ofCanonical] at h
    exact .inl h

/-- Finite doubles are equal as numbers just if they are the same but for the sign of a zero. -/
lemma beq_iff_unsigned_eq {x y : Float} (hx : x.isFinite = true) (hy : y.isFinite = true) :
    (x == y) = true ↔ unsigned x = unsigned y := by
  refine ⟨unsigned_eq_of_beq hy, fun h => ?_⟩
  rcases eq_or_zero_of_unsigned_eq hx hy h with rfl | ⟨s, s', rfl, rfl⟩
  · rcases isFinite_cases hx with ⟨s, rfl⟩ | ⟨s, m, e, hm, rfl⟩
    · exact beq_zero s s
    · exact ofCanonical_beq_self s hm
  · exact beq_zero s s'

lemma unsigned_mul_zero (c : Float) (s : Sign) : unsigned (c * zero s) = unsigned (c * 0) := by
  cases hc : c.isFinite with
  | true =>
    have hzero (s : Sign) : ∃ s', c * zero s = zero s' := by
      rcases isFinite_cases hc with ⟨t, rfl⟩ | ⟨t, m, e, hm, rfl⟩
      · exact ⟨t * s, by cases t <;> cases s <;> decide⟩
      · refine ⟨t * s, ?_⟩
        change Float.ofModel (.pack (UnpackedFloat.mul Format.binary64
          (ofCanonical t hm).toModel.unpack (zero s).toModel.unpack)) = _
        rw [unpack_ofCanonical, unpack_zero]
        rfl
    obtain ⟨t, ht⟩ := hzero s
    obtain ⟨t', ht'⟩ := hzero .positive
    rw [ht, ← zero_positive, ht', unsigned_zero, unsigned_zero]
  | false => rcases not_isFinite_cases hc with rfl | rfl | rfl <;> cases s <;> decide

/-- The sign of a zero makes no difference to a product but for its sign. -/
lemma unsigned_mul_congr (c : Float) {x y : Float} (hx : x.isFinite = true) (hy : y.isFinite = true)
    (h : unsigned x = unsigned y) : unsigned (c * x) = unsigned (c * y) := by
  rcases eq_or_zero_of_unsigned_eq hx hy h with rfl | ⟨s, s', rfl, rfl⟩
  · rfl
  · rw [unsigned_mul_zero, unsigned_mul_zero]

/-! ### Comparing with zero -/

section Zero

variable {x : Float}

lemma le_zero_iff : x ≤ 0 ↔ x.toModel.unpack.le (.zero .positive) = true := by
  rw [← zero_positive, ← unpack_zero]
  exact decide_eq_true_iff

lemma pos_iff : 0 < x ↔ UnpackedFloat.lt (.zero .positive) x.toModel.unpack = true := by
  rw [← zero_positive, ← unpack_zero]
  exact decide_eq_true_iff

lemma unpack_of_pos (h : 0 < x) :
    x.toModel.unpack = .infinity .positive ∨
      ∃ m e hm, x.toModel.unpack = .finite .positive m e hm := by
  rw [pos_iff] at h
  cases hx : x.toModel.unpack with
  | infinity s => cases s <;> simp_all [UnpackedFloat.lt, UnpackedFloat.compare]
  | notANumber => simp_all [UnpackedFloat.lt, UnpackedFloat.compare]
  | zero s => simp_all [UnpackedFloat.lt, UnpackedFloat.compare]
  | finite s m e hm => cases s <;> simp_all [UnpackedFloat.lt, UnpackedFloat.compare]

lemma unsigned_of_pos (h : 0 < x) : unsigned x = x := by
  have hzero : (x == 0) = false := by
    rw [← zero_positive, beq_eq, unpack_zero]
    rcases unpack_of_pos h with hx | ⟨m, e, hm, hx⟩ <;> rw [hx] <;> rfl
  rw [unsigned, hzero]
  rfl

lemma not_le_zero_of_pos (h : 0 < x) : ¬ x ≤ 0 := by
  intro hle
  rw [le_zero_iff] at hle
  rcases unpack_of_pos h with hx | ⟨m, e, hm, hx⟩ <;> rw [hx] at hle <;> contradiction

end Zero

end Double

end Iconsmith
