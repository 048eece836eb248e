import Iconsmith.Drawable.Writer
import Iconsmith.Proofs.Decimal.ReadBack
import Iconsmith.Proofs.Graphic.Numbers
import Iconsmith.Proofs.Xml.Values
import Mathlib.Tactic

/-!
# Values of drawables read back

Numbers, sizes, colors and names are written in plain characters, so that they stand between quotes
as they are. Each of them is read back from its text, but for the signs of zeros.
-/

namespace Iconsmith.Drawable

open Numeral (Spells continues)
open Text (Avoids avoids_nil trim_of_not_blank)
open Xml (IsPlain isPlainChar)

lemma toNat_of_isPlainChar {c : Char} (h : isPlainChar c = true) (hspace : c ≠ ' ') :
    0x23 ≤ c.toNat ∧ c.toNat ≤ 0x7A := by
  simp only [isPlainChar, Bool.or_eq_true, decide_eq_true_eq] at h
  rcases h with ((((h | rfl) | rfl) | rfl) | rfl) | rfl
  · have := Xml.toNat_of_isAlphanum h
    omega
  · decide
  · decide
  · decide
  · contradiction
  · decide

lemma not_isBlank_of_isPlainChar {c : Char} (h : isPlainChar c = true) (hspace : c ≠ ' ') :
    Text.isBlank c = false := by
  obtain ⟨hlow, hhigh⟩ := toNat_of_isPlainChar h hspace
  simp only [Text.isBlank, Text.inRanges, Text.blankRanges, List.any_cons, List.any_nil,
    Bool.or_eq_false_iff, Bool.and_eq_false_iff, decide_eq_false_iff_not, and_true]
  refine ⟨?_, ?_, ?_, ?_, ?_, ?_, ?_, ?_, ?_, ?_⟩ <;> omega

/-! ### Numbers -/

section Numbers

variable {x : Float} (hx : x.isFinite = true)

include hx

lemma mem_numberText {c : Char} (hc : c ∈ (numberText x).toList) :
    isPlainChar c = true ∧ c ≠ ' ' := by
  obtain ⟨n, hspells, -⟩ := Decimal.spells_unsignedZero hx
  rcases hspells.mem hc with h | rfl | rfl | rfl
  · constructor
    · simp [isPlainChar, h]
    · rintro rfl
      exact absurd h (by decide)
  · decide
  · decide
  · decide

lemma isPlain_numberText : IsPlain (numberText x) :=
  fun _ hc => (mem_numberText hx hc).1

lemma trim_numberText : Text.trim (numberText x).toList = (numberText x).toList :=
  trim_of_not_blank fun _ hc =>
    not_isBlank_of_isPlainChar (mem_numberText hx hc).1 (mem_numberText hx hc).2

/-- A finite number is read back from its text. -/
theorem floatOf?_numberText :
    Numeral.floatOf? (Text.trim (numberText x).toList) = some (Double.unsigned x) := by
  obtain ⟨n, hspells, hvalue⟩ := Decimal.spells_unsignedZero hx
  have hread := Numeral.read?_append (r := []) hspells avoids_nil
  rw [List.append_nil] at hread
  rw [trim_numberText hx, numberText, Numeral.floatOf?, hread, ← hvalue]

end Numbers

/-! ### Sizes -/

/-- The text of a unit; nothing stands for no unit. -/
def unitText (unit : Option LengthUnit) : String :=
  (unit.map LengthUnit.suffix).getD ""

lemma mem_unitText {unit : Option LengthUnit} {c : Char} (hc : c ∈ (unitText unit).toList) :
    isPlainChar c = true ∧ c ≠ ' ' := by
  have hall : ∀ d ∈ (unitText unit).toList, isPlainChar d = true ∧ d ≠ ' ' := by
    rcases unit with _ | u
    · decide
    · cases u <;> decide
  exact hall c hc

lemma avoids_unitText (unit : Option LengthUnit) : Avoids continues (unitText unit).toList := by
  rcases unit with _ | u
  · exact avoids_nil
  · cases u <;> exact Text.avoids_cons (by decide)

lemma unit?_unitText (unit : Option LengthUnit) :
    unit? (Text.trim (unitText unit).toList) = some unit := by
  rcases unit with _ | u
  · decide
  · cases u <;> decide

section Sizes

variable {l : Length Float} (hl : l.value.isFinite = true)

include hl

lemma mem_lengthText {c : Char} (hc : c ∈ (lengthText l).toList) :
    isPlainChar c = true ∧ c ≠ ' ' := by
  rw [lengthText, String.toList_append] at hc
  rcases List.mem_append.mp hc with hc | hc
  · exact mem_numberText hl hc
  · exact mem_unitText hc

lemma isPlain_lengthText : IsPlain (lengthText l) :=
  fun _ hc => (mem_lengthText hl hc).1

lemma trim_lengthText : Text.trim (lengthText l).toList = (lengthText l).toList :=
  trim_of_not_blank fun _ hc =>
    not_isBlank_of_isPlainChar (mem_lengthText hl hc).1 (mem_lengthText hl hc).2

/-- A size is no reference. -/
lemma head?_lengthText : (lengthText l).toList.head? ≠ some '@' ∧
    (lengthText l).toList.head? ≠ some '?' := by
  constructor
  · intro h
    exact absurd (mem_lengthText hl (List.mem_of_head? h)).1 (by decide)
  · intro h
    exact absurd (mem_lengthText hl (List.mem_of_head? h)).1 (by decide)

/-- A size is read back from its text, with its unit. -/
theorem lengthOf?_lengthText :
    lengthOf? (Text.trim (lengthText l).toList) = some (l.map Double.unsigned) := by
  obtain ⟨n, hspells, hvalue⟩ := Decimal.spells_unsignedZero hl
  have hread := Numeral.read?_append hspells (avoids_unitText l.unit)
  have htext : (lengthText l).toList = (Decimal.Style.plain.unsignedZero l.value).toList ++
      (unitText l.unit).toList := String.toList_append
  rw [trim_lengthText hl, htext, lengthOf?, hread]
  simp [unit?_unitText, hvalue, Length.map]

end Sizes

/-! ### Colors -/

/-- Eight upper case hex digits. -/
def IsColor (c : String) : Prop :=
  c.toList.length = 8 ∧ ∀ d ∈ c.toList, d.isDigit = true ∨ 'A' ≤ d ∧ d ≤ 'F'

instance (c : String) : Decidable (IsColor c) :=
  inferInstanceAs (Decidable (_ ∧ ∀ d ∈ c.toList, _))

lemma toNat_of_hex {d : Char} (h : d.isDigit = true ∨ 'A' ≤ d ∧ d ≤ 'F') :
    (0x30 ≤ d.toNat ∧ d.toNat ≤ 0x39) ∨ (0x41 ≤ d.toNat ∧ d.toNat ≤ 0x46) := by
  simp only [Char.isDigit, Bool.and_eq_true, decide_eq_true_eq, ge_iff_le,
    UInt32.le_iff_toNat_le, Char.le_def] at h
  exact h

section Colors

variable {c : String} (hc : IsColor c)

include hc

lemma mem_color {d : Char} (hd : d ∈ ("#" ++ c).toList) : isPlainChar d = true ∧ d ≠ ' ' := by
  rw [String.toList_append] at hd
  rcases List.mem_append.mp hd with hd | hd
  · obtain rfl := List.mem_singleton.mp hd
    decide
  · have hrange := toNat_of_hex (hc.2 d hd)
    constructor
    · have : d.isAlphanum = true := Xml.isAlphanum_iff.mpr (by omega)
      simp [isPlainChar, this]
    · rintro rfl
      revert hrange
      decide

lemma isPlain_color : IsPlain ("#" ++ c) :=
  fun _ hd => (mem_color hc hd).1

omit hc in
lemma toUpper_of_hex {d : Char} (h : d.isDigit = true ∨ 'A' ≤ d ∧ d ≤ 'F') : d.toUpper = d := by
  have hrange := toNat_of_hex h
  have hlower : ¬ (d.val ≥ 'a'.val ∧ d.val ≤ 'z'.val) := by
    simp only [ge_iff_le, UInt32.le_iff_toNat_le]
    change ¬ (0x61 ≤ d.toNat ∧ d.toNat ≤ 0x7A)
    omega
  rw [Char.toUpper, dif_neg hlower]

omit hc in
lemma expand?_eight {l : List Char} (h : l.length = 8) : Color.expand? l = some l := by
  match l, h with
  | [_, _, _, _, _, _, _, _], _ => rfl

lemma trim_color : Text.trim ("#" ++ c).toList = '#' :: c.toList := by
  have htrim := trim_of_not_blank fun d hd =>
    not_isBlank_of_isPlainChar (mem_color hc hd).1 (mem_color hc hd).2
  rw [htrim, String.toList_append]
  rfl

lemma ofLiteral_color : Color.ofLiteral ("#" ++ c) = .ok c := by
  have hall : c.toList.all Color.isHexDigit = true := by
    rw [List.all_eq_true]
    intro d hd
    rcases hc.2 d hd with h | h
    · simp [Color.isHexDigit, h]
    · simp [Color.isHexDigit, h]
  have hupper : c.toList.map Char.toUpper = c.toList :=
    (List.map_congr_left fun d hd => toUpper_of_hex (hc.2 d hd)).trans (List.map_id _)
  rw [Color.ofLiteral, trim_color hc]
  simp [hall, hupper, expand?_eight hc.1]

/-- A color is read back whatever the table of named colors. -/
theorem color_color (t : Color.Table) : color t ("#" ++ c) = .ok c := by
  have htrim : Text.trimString ("#" ++ c) = "#" ++ c := by
    rw [Text.trimString, trim_color hc]
    simp
  have hmeaning : Color.meaning t ("#" ++ c) = .settled (.ok c) := by
    rw [Color.meaning, String.toList_append]
    exact congrArg Color.Meaning.settled (ofLiteral_color hc)
  rw [color, Color.resolve, htrim, Color.follow, hmeaning]
  rfl

end Colors

end Iconsmith.Drawable
