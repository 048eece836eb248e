import Iconsmith.Proofs.Text.Runs
import Iconsmith.Xml.Document
import Iconsmith.Xml.Layout
import Mathlib.Tactic

/-!
# Values between quotes

A value is written with references in place of the four characters that could end it or begin
markup. What is read between the quotes is the value again, if the value holds no layout but spaces.
-/

namespace Iconsmith.Xml

/-- A character that a value keeps: any character of a document but tabs and line ends. -/
def isValueChar (c : Char) : Bool :=
  isDocumentChar c && (c = ' ' || !Text.isLayout c)

/-- A value without tabs and line ends. -/
def IsValue (v : String) : Prop :=
  ∀ c ∈ v.toList, isValueChar c = true

instance (v : String) : Decidable (IsValue v) :=
  inferInstanceAs (Decidable (∀ c ∈ v.toList, _))

/-- A text of any characters of a document. -/
def IsText (v : String) : Prop :=
  ∀ c ∈ v.toList, isDocumentChar c = true

instance (v : String) : Decidable (IsText v) :=
  inferInstanceAs (Decidable (∀ c ∈ v.toList, _))

/-- What can stand between quotes as it is. -/
def IsQuotable (raw : List Char) : Prop :=
  ∀ c ∈ raw, c ≠ '"' ∧ c ≠ '<' ∧ isDocumentChar c = true

lemma isDocumentChar_of_isValueChar {c : Char} (h : isValueChar c = true) :
    isDocumentChar c = true := by
  simp only [isValueChar, Bool.and_eq_true] at h
  exact h.1

lemma IsValue.isText {v : String} (hv : IsValue v) : IsText v :=
  fun c hc => isDocumentChar_of_isValueChar (hv c hc)

lemma isLayout_of_isValueChar {c : Char} (h : isValueChar c = true)
    (hl : Text.isLayout c = true) : c = ' ' := by
  simp only [isValueChar, hl, Bool.and_eq_true, Bool.or_eq_true, decide_eq_true_eq, Bool.not_true,
    Bool.false_eq_true, or_false] at h
  exact h.2

lemma normalizeValue_cons {c : Char} (h : Text.isLayout c = true → c = ' ') (s : List Char) :
    normalizeValue (c :: s) = c :: normalizeValue s := by
  have hreturn : c ≠ '\r' := by
    rintro rfl
    exact absurd (h (by decide)) (by decide)
  have hcases : normalizeValue (c :: s) =
      (if Text.isLayout c then ' ' else c) :: normalizeValue s := by
    rw [normalizeValue]
    rintro _ rfl
    exact absurd rfl hreturn
  rw [hcases]
  by_cases hl : Text.isLayout c = true
  · rw [if_pos hl, h hl]
  · rw [if_neg hl]

lemma expand?_cons {c : Char} (h : c ≠ '&') (s : List Char) :
    expand? (c :: s) = (expand? s).map (c :: ·) := by
  rw [expand?, if_neg h]
  cases expand? s <;> rfl

lemma expand?_reference {name : List Char} {c : Char} (hname : ∀ d ∈ name, d ≠ ';')
    (h : referenced? name = some c) (s : List Char) :
    expand? ('&' :: (name ++ ';' :: s)) = (expand? s).map (c :: ·) := by
  have hin : ∀ d ∈ name, (decide (d ≠ ';')) = true := fun d hd => decide_eq_true (hname d hd)
  have hout : Text.Avoids (fun d => decide (d ≠ ';')) (';' :: s) := Text.avoids_cons (by decide)
  rw [expand?, if_pos rfl]
  split
  · rename_i hdrop
    rw [Text.dropWhile_append hin hout] at hdrop
    contradiction
  · rename_i d r hdrop
    rw [Text.dropWhile_append hin hout] at hdrop
    cases hdrop
    rw [Text.takeWhile_append hin hout, h]
    cases expand? s <;> rfl

/-- How one character of a value is written. -/
structure Escapes (c : Char) (t : List Char) : Prop where
  escape : ∀ s, escape (c :: s) = t ++ Xml.escape s
  quotable : IsQuotable t
  normalize : ∀ s, normalizeValue (t ++ s) = t ++ normalizeValue s
  expand : ∀ s, expand? (t ++ s) = (expand? s).map (c :: ·)

lemma normalizeValue_append {t : List Char} (h : ∀ c ∈ t, Text.isLayout c = true → c = ' ')
    (s : List Char) : normalizeValue (t ++ s) = t ++ normalizeValue s := by
  induction t with
  | nil => rfl
  | cons c t ih =>
    rw [List.cons_append, normalizeValue_cons (h c (by simp)),
      ih fun d hd => h d (List.mem_cons_of_mem c hd)]
    rfl

lemma escapes_reference {c : Char} {name : List Char} (hreference : referenced? name = some c)
    (hplain : ∀ d ∈ '&' :: (name ++ [';']),
      d ≠ '"' ∧ d ≠ '<' ∧ isDocumentChar d = true ∧ Text.isLayout d = false)
    (hname : ∀ d ∈ name, d ≠ ';')
    (hescape : ∀ s, escape (c :: s) = '&' :: (name ++ [';']) ++ escape s) :
    Escapes c ('&' :: (name ++ [';'])) := by
  refine ⟨hescape, fun d hd => ?_, normalizeValue_append fun d hd hl => ?_, fun s => ?_⟩
  · obtain ⟨h₁, h₂, h₃, -⟩ := hplain d hd
    exact ⟨h₁, h₂, h₃⟩
  · obtain ⟨-, -, -, h₄⟩ := hplain d hd
    rw [h₄] at hl
    contradiction
  · rw [List.cons_append, List.append_assoc, List.singleton_append]
    exact expand?_reference hname hreference s

lemma escape_cons {c : Char} (hamp : c ≠ '&') (hlt : c ≠ '<') (hgt : c ≠ '>') (hquot : c ≠ '"')
    (s : List Char) : escape (c :: s) = c :: escape s := by
  rw [Xml.escape.eq_def]
  split
  · contradiction
  · rename_i h
    exact absurd (List.cons.inj h).1 hamp
  · rename_i h
    exact absurd (List.cons.inj h).1 hlt
  · rename_i h
    exact absurd (List.cons.inj h).1 hgt
  · rename_i h
    exact absurd (List.cons.inj h).1 hquot
  · rename_i h
    obtain ⟨rfl, rfl⟩ := List.cons.inj h
    rfl

lemma exists_escapes {c : Char} (hc : isValueChar c = true) : ∃ t, Escapes c t := by
  by_cases hamp : c = '&'
  · subst hamp
    exact ⟨_, @escapes_reference '&' "amp".toList (by decide) (by decide) (by decide)
      fun _ => rfl⟩
  by_cases hlt : c = '<'
  · subst hlt
    exact ⟨_, @escapes_reference '<' "lt".toList (by decide) (by decide) (by decide)
      fun _ => rfl⟩
  by_cases hgt : c = '>'
  · subst hgt
    exact ⟨_, @escapes_reference '>' "gt".toList (by decide) (by decide) (by decide)
      fun _ => rfl⟩
  by_cases hquot : c = '"'
  · subst hquot
    exact ⟨_, @escapes_reference '"' "quot".toList (by decide) (by decide) (by decide)
      fun _ => rfl⟩
  refine ⟨[c], fun s => ?_, fun d hd => ?_, normalizeValue_cons (isLayout_of_isValueChar hc),
    expand?_cons hamp⟩
  · exact escape_cons hamp hlt hgt hquot s
  · obtain rfl := List.mem_singleton.mp hd
    exact ⟨hquot, hlt, isDocumentChar_of_isValueChar hc⟩

/-- The characters of a document that a value does not keep are layout, which is written as it is. -/
lemma isLayout_of_not_isValueChar {c : Char} (hc : isDocumentChar c = true)
    (h : ¬ isValueChar c = true) : Text.isLayout c = true := by
  by_contra hl
  exact h (by simp [isValueChar, hc, hl])

lemma escape_layout {c : Char} (h : Text.isLayout c = true) (s : List Char) :
    escape (c :: s) = c :: escape s := by
  refine escape_cons ?_ ?_ ?_ ?_ s
  all_goals
    rintro rfl
    exact absurd h (by decide)

/-- An escaped text can stand between quotes. -/
lemma isQuotable_escape {v : List Char} (hv : ∀ c ∈ v, isDocumentChar c = true) :
    IsQuotable (escape v) := by
  induction v with
  | nil => nofun
  | cons c v ih =>
    have hrest := ih fun d hd => hv d (List.mem_cons_of_mem c hd)
    have hc := hv c (by simp)
    by_cases hvalue : isValueChar c = true
    · obtain ⟨t, ht⟩ := exists_escapes hvalue
      rw [ht.escape]
      exact List.forall_mem_append.mpr ⟨ht.quotable, hrest⟩
    · have hl := isLayout_of_not_isValueChar hc hvalue
      rw [escape_layout hl]
      refine List.forall_mem_cons.mpr ⟨⟨?_, ?_, hc⟩, hrest⟩
      all_goals
        rintro rfl
        exact absurd hl (by decide)

section Escaping

variable {v : List Char} (hv : ∀ c ∈ v, isValueChar c = true)

include hv

lemma normalizeValue_escape : normalizeValue (escape v) = escape v := by
  induction v with
  | nil => rfl
  | cons c v ih =>
    obtain ⟨t, ht⟩ := exists_escapes (hv c (by simp))
    rw [ht.escape, ht.normalize, ih fun d hd => hv d (List.mem_cons_of_mem c hd)]

lemma expand?_escape : expand? (escape v) = some v := by
  induction v with
  | nil =>
    have : expand? [] = some [] := by rw [expand?]
    exact this
  | cons c v ih =>
    obtain ⟨t, ht⟩ := exists_escapes (hv c (by simp))
    rw [ht.escape, ht.expand, ih fun d hd => hv d (List.mem_cons_of_mem c hd)]
    rfl

/-- An escaped value stands for the value. -/
theorem valueOf?_escape : valueOf? (escape v) = some (String.ofList v) := by
  rw [valueOf?, normalizeValue_escape hv, expand?_escape hv]
  rfl

end Escaping

/-! ### Texts with tabs and line ends -/

/-- A text with a space in place of each tab and each line end. -/
def spaced (v : String) : String :=
  String.ofList (normalizeValue v.toList)

lemma normalizeValue_layout {c : Char} (hl : Text.isLayout c = true) {s : List Char}
    (hs : c = '\r' → s.head? ≠ some '\n') : normalizeValue (c :: s) = ' ' :: normalizeValue s := by
  rw [normalizeValue, if_pos hl]
  rintro r rfl rfl
  exact hs rfl rfl

/-- What escaping begins with layout began with it before. -/
lemma head?_of_head?_escape {v : List Char} {c : Char} (hc : Text.isLayout c = true)
    (h : (escape v).head? = some c) : v.head? = some c := by
  cases v with
  | nil => exact h
  | cons d v =>
    by_cases hplain : d ≠ '&' ∧ d ≠ '<' ∧ d ≠ '>' ∧ d ≠ '"'
    · obtain ⟨hamp, hlt, hgt, hquot⟩ := hplain
      rwa [escape_cons hamp hlt hgt hquot] at h
    · -- a reference begins with an ampersand
      have hreference : (escape (d :: v)).head? = some '&' := by
        rcases (by tauto : d = '&' ∨ d = '<' ∨ d = '>' ∨ d = '"') with rfl | rfl | rfl | rfl <;> rfl
      rw [hreference, Option.some_inj] at h
      subst h
      exact absurd hc (by decide)

lemma isValueChar_normalizeValue {v : List Char} (hv : ∀ c ∈ v, isDocumentChar c = true) :
    ∀ c ∈ normalizeValue v, isValueChar c = true := by
  have hspace : isValueChar ' ' = true := by decide
  fun_induction normalizeValue v with
  | case1 => nofun
  | case2 s ih =>
    simp only [List.forall_mem_cons] at hv
    exact List.forall_mem_cons.mpr ⟨hspace, ih hv.2.2⟩
  | case3 c s _ ih =>
    rw [List.forall_mem_cons] at hv
    refine List.forall_mem_cons.mpr ⟨?_, ih hv.2⟩
    split
    · exact hspace
    · rename_i hl
      simp [isValueChar, hv.1, hl]

/-- Spaces can be put in place of layout before or after a text is escaped. -/
lemma normalizeValue_escape_comm {v : List Char} (hv : ∀ c ∈ v, isDocumentChar c = true) :
    normalizeValue (escape v) = escape (normalizeValue v) := by
  have hspace : Text.isLayout ' ' = true := by decide
  fun_induction normalizeValue v with
  | case1 => rfl
  | case2 s ih =>
    simp only [List.forall_mem_cons] at hv
    rw [escape_layout (by decide), escape_layout (by decide), normalizeValue, ih hv.2.2,
      escape_layout hspace]
  | case3 c s hbreak ih =>
    rw [List.forall_mem_cons] at hv
    split
    · rename_i hl
      have hhead : c = '\r' → (escape s).head? ≠ some '\n' := by
        rintro rfl h
        obtain ⟨r, rfl⟩ := List.head?_eq_some_iff.mp (head?_of_head?_escape (by decide) h)
        exact hbreak r rfl rfl
      rw [escape_layout hl, normalizeValue_layout hl hhead, ih hv.2, escape_layout hspace]
    · rename_i hl
      have hvalue : isValueChar c = true := by simp [isValueChar, hv.1, hl]
      obtain ⟨t, ht⟩ := exists_escapes hvalue
      rw [ht.escape, ht.normalize, ih hv.2, ht.escape]

/-- An escaped text stands for the text with spaces in place of tabs and line ends. -/
theorem valueOf?_escape_spaced {v : String} (hv : IsText v) :
    valueOf? (escape v.toList) = some (spaced v) := by
  rw [valueOf?, normalizeValue_escape_comm hv, expand?_escape (isValueChar_normalizeValue hv)]
  rfl

lemma isValue_spaced {v : String} (hv : IsText v) : IsValue (spaced v) := by
  rw [IsValue, spaced, String.toList_ofList]
  exact isValueChar_normalizeValue hv

/-- Just the values are left as they are. -/
lemma spaced_eq_iff {v : String} (hv : IsText v) : spaced v = v ↔ IsValue v := by
  constructor
  · intro h
    exact h ▸ isValue_spaced hv
  · intro h
    have hself := normalizeValue_append (fun c hc => isLayout_of_isValueChar (h c hc)) []
    rw [List.append_nil] at hself
    rw [spaced, hself]
    exact (congrArg String.ofList (List.append_nil _)).trans String.ofList_toList

/-- A value that needs no reference stands for itself. -/
lemma quotable_of_escape_eq {v : String} (hv : IsValue v) (h : escape v.toList = v.toList) :
    IsQuotable v.toList ∧ valueOf? v.toList = some v := by
  have hquotable := isQuotable_escape hv.isText
  have hvalue := valueOf?_escape hv
  rw [h] at hquotable hvalue
  rw [String.ofList_toList] at hvalue
  exact ⟨hquotable, hvalue⟩

/-! ### Values that are written as they are -/

/-- A character that needs no reference. -/
def isPlainChar (c : Char) : Bool :=
  c.isAlphanum || c = '-' || c = '+' || c = '.' || c = ' ' || c = '#'

/-- A value of plain characters. -/
def IsPlain (v : String) : Prop :=
  ∀ c ∈ v.toList, isPlainChar c = true

instance (v : String) : Decidable (IsPlain v) :=
  inferInstanceAs (Decidable (∀ c ∈ v.toList, _))

lemma isAlphanum_iff {c : Char} : c.isAlphanum = true ↔
    ((0x41 ≤ c.toNat ∧ c.toNat ≤ 0x5A) ∨ (0x61 ≤ c.toNat ∧ c.toNat ≤ 0x7A))
      ∨ (0x30 ≤ c.toNat ∧ c.toNat ≤ 0x39) := by
  simp only [Char.isAlphanum, Char.isAlpha, Char.isUpper, Char.isLower, Char.isDigit,
    Bool.or_eq_true, Bool.and_eq_true, decide_eq_true_eq, ge_iff_le, UInt32.le_iff_toNat_le]
  exact Iff.rfl

lemma toNat_of_isAlphanum {c : Char} (h : c.isAlphanum = true) :
    0x30 ≤ c.toNat ∧ c.toNat ≤ 0x7A := by
  rw [isAlphanum_iff] at h
  omega

lemma isDocumentChar_of_isAlphanum {c : Char} (h : c.isAlphanum = true) :
    isDocumentChar c = true := by
  obtain ⟨hlow, hhigh⟩ := toNat_of_isAlphanum h
  rw [isDocumentChar, if_neg (by omega), Bool.and_eq_true, decide_eq_true_eq, decide_eq_true_eq]
  omega

lemma isValueChar_of_isPlainChar {c : Char} (h : isPlainChar c = true) : isValueChar c = true := by
  simp only [isPlainChar, Bool.or_eq_true, decide_eq_true_eq] at h
  rcases h with ((((h | rfl) | rfl) | rfl) | rfl) | rfl
  · rw [isValueChar, isDocumentChar_of_isAlphanum h, Bool.true_and, Bool.or_eq_true]
    right
    by_contra hl
    simp only [Text.isLayout, Bool.not_eq_true, Bool.not_eq_false', Bool.or_eq_true,
      decide_eq_true_eq] at hl
    rcases hl with ((rfl | rfl) | rfl) | rfl <;> exact absurd h (by decide)
  all_goals decide

lemma escape_eq_self {v : List Char} (hv : ∀ c ∈ v, isPlainChar c = true) : escape v = v := by
  induction v with
  | nil => rfl
  | cons c v ih =>
    have hc := hv c (by simp)
    rw [escape_cons, ih fun d hd => hv d (List.mem_cons_of_mem c hd)]
    all_goals
      rintro rfl
      exact absurd hc (by decide)

lemma IsPlain.escaped {v : String} (hv : IsPlain v) : escaped v = v := by
  rw [Xml.escaped, escape_eq_self hv, String.ofList_toList]

lemma IsPlain.isValue {v : String} (hv : IsPlain v) : IsValue v :=
  fun c hc => isValueChar_of_isPlainChar (hv c hc)

lemma IsPlain.append {v w : String} (hv : IsPlain v) (hw : IsPlain w) : IsPlain (v ++ w) := by
  intro c hc
  rw [String.toList_append] at hc
  rcases List.mem_append.mp hc with hc | hc
  · exact hv c hc
  · exact hw c hc

end Iconsmith.Xml
