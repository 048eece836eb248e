import Iconsmith.Text.Blank
import Mathlib

/-!
# Runs of characters

A run of characters of one class ends where a text goes on with a character outside of the class. A
beginning that is dropped is what stood in front of the rest. Small letters and capital letters are
two spellings of each other.
-/

namespace Iconsmith.Text

/-! ### Letters -/

/-- What holds of the small letters one by one holds of every small letter. -/
lemma of_isLower {P : Char → Prop} (hletters : ∀ n < 123, 97 ≤ n → P (Char.ofNat n)) {c : Char}
    (h : c.isLower = true) : P c := by
  simp only [Char.isLower, Bool.and_eq_true, decide_eq_true_eq, ge_iff_le,
    UInt32.le_iff_toNat_le] at h
  have hlow : 97 ≤ c.toNat := h.1
  have hhigh : c.toNat < 123 := Nat.lt_succ_of_le h.2
  rw [← Char.ofNat_toNat c]
  exact hletters c.toNat hhigh hlow

/-- What holds of the capital letters one by one holds of every capital letter. -/
lemma of_isUpper {P : Char → Prop} (hletters : ∀ n < 91, 65 ≤ n → P (Char.ofNat n)) {c : Char}
    (h : c.isUpper = true) : P c := by
  simp only [Char.isUpper, decide_eq_true_eq, ge_iff_le, UInt32.le_iff_toNat_le] at h
  have hlow : 65 ≤ c.toNat := h.1
  have hhigh : c.toNat < 91 := Nat.lt_succ_of_le h.2
  rw [← Char.ofNat_toNat c]
  exact hletters c.toNat hhigh hlow

lemma isLower_toUpper (c : Char) : c.toUpper.isLower = false := by
  by_cases h : c.isLower = true
  · exact of_isLower (P := fun c => c.toUpper.isLower = false) (by decide) h
  · rw [Char.toUpper_eq_of_not_isLower h]
    simpa using h

lemma toLower_toUpper {c : Char} (h : c.isLower = true) : c.toUpper.toLower = c :=
  of_isLower (P := fun c => c.toUpper.toLower = c) (by decide) h

lemma toUpper_toLower {c : Char} (h : c.isUpper = true) : c.toLower.toUpper = c :=
  of_isUpper (P := fun c => c.toLower.toUpper = c) (by decide) h

/-! ### Characters of a class -/

/-- A text that does not begin with a character of a class. -/
def Avoids (p : Char → Bool) (r : List Char) : Prop :=
  ∀ c ∈ r.head?, p c = false

instance (p : Char → Bool) (r : List Char) : Decidable (Avoids p r) :=
  Option.decidableForallMem _

variable {p q : Char → Bool} {t r : List Char}

lemma avoids_nil : Avoids p [] :=
  nofun

lemma avoids_cons {c : Char} (h : p c = false) : Avoids p (c :: r) := by
  rintro _ ⟨⟩
  exact h

lemma Avoids.append (ht : Avoids p t) (hr : Avoids p r) : Avoids p (t ++ r) := by
  cases t with
  | nil => exact hr
  | cons c t => exact ht

lemma Avoids.append_of_ne_nil (ht : Avoids p t) (hne : t ≠ []) : Avoids p (t ++ r) := by
  cases t with
  | nil => contradiction
  | cons c t => exact ht

lemma Avoids.mono (h : Avoids p r) (hpq : ∀ c, q c = true → p c = true) : Avoids q r := by
  intro c hc
  have := h c hc
  by_contra hq
  simp [hpq c (by simpa using hq)] at this

lemma dropWhile_of_avoids (h : Avoids p r) : r.dropWhile p = r := by
  cases r with
  | nil => rfl
  | cons c r => simp [h c rfl]

lemma takeWhile_append (ht : ∀ c ∈ t, p c = true) (hr : Avoids p r) :
    (t ++ r).takeWhile p = t := by
  rw [List.takeWhile_append_of_pos ht]
  cases r with
  | nil => simp
  | cons c r => simp [hr c rfl]

lemma dropWhile_append (ht : ∀ c ∈ t, p c = true) (hr : Avoids p r) :
    (t ++ r).dropWhile p = r := by
  rw [List.dropWhile_append_of_pos ht, dropWhile_of_avoids hr]

/-- A text without blanks is left as it is. -/
lemma trim_of_not_blank (ht : ∀ c ∈ t, isBlank c = false) : trim t = t := by
  have hstart {s : List Char} (hs : ∀ c ∈ s, isBlank c = false) : trimStart s = s := by
    apply dropWhile_of_avoids
    intro c hc
    exact hs c (List.mem_of_head? hc)
  have hreverse := hstart fun c hc => ht c (List.mem_reverse.mp hc)
  rw [trim, hstart ht, hreverse, List.reverse_reverse]

/-! ### Beginnings -/

lemma dropLeading?_append (lead rest : List Char) :
    dropLeading? lead (lead ++ rest) = some rest := by
  induction lead with
  | nil => rfl
  | cons c lead ih => simpa [dropLeading?] using ih

/-- What a text does not begin with cannot be dropped. -/
lemma dropLeading?_eq_none {lead t : List Char} (h : ∃ c ∈ lead, c ∉ t) :
    dropLeading? lead t = none := by
  obtain ⟨c, hc, hct⟩ := h
  induction lead generalizing t with
  | nil => simp at hc
  | cons d lead ih =>
    cases t with
    | nil => rfl
    | cons e t =>
      rw [dropLeading?]
      split_ifs with hde
      · subst hde
        rw [List.mem_cons, not_or] at hct
        exact ih ((List.mem_cons.mp hc).resolve_left hct.1) hct.2
      · rfl

lemma dropLeading?_of_head?_ne {c : Char} {lead t : List Char} (h : t.head? ≠ some c) :
    dropLeading? (c :: lead) t = none := by
  cases t with
  | nil => rfl
  | cons d t =>
    have hne : c ≠ d := fun heq => h (by rw [heq]; rfl)
    exact if_neg hne

lemma eq_append_of_dropLeading? {lead t rest : List Char} (h : dropLeading? lead t = some rest) :
    t = lead ++ rest := by
  fun_induction dropLeading? lead t with
  | case1 t => simpa using h
  | case2 c lead t ih => rw [ih h, List.cons_append]
  | case3 => contradiction
  | case4 => contradiction

end Iconsmith.Text
