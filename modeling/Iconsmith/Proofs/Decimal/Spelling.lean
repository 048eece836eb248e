import Iconsmith.Decimal.Numeral
import Iconsmith.Proofs.Text.Runs
import Mathlib.Tactic

/-!
# Spellings of numerals

`Spells t n` holds when the whole text `t` is a spelling of the numeral `n`, that is when it has the
form `[+-]?(D+(.D*)?|.D+)([eE][+-]?D+)?`. `Numeral.read?` takes the longest spelling that a text
begins with.
-/

namespace Iconsmith

namespace Numeral

open Text (Avoids takeWhile_append dropWhile_append avoids_cons)

/-- Nothing but digits. -/
def Digits (t : List Char) : Prop :=
  ∀ c ∈ t, c.isDigit = true

/-- An optional sign, and whether it is a minus. -/
inductive Sign : List Char → Bool → Prop
  | none : Sign [] false
  | plus : Sign ['+'] false
  | minus : Sign ['-'] true

/-- Digits with an optional point, and the digits on either side of it. -/
inductive Mantissa : List Char → List Char → List Char → Prop
  | whole {w : List Char} : Digits w → w ≠ [] → Mantissa w w []
  | pointed {w f : List Char} : Digits w → w ≠ [] → Digits f → Mantissa (w ++ '.' :: f) w f
  | fraction {f : List Char} : Digits f → f ≠ [] → Mantissa ('.' :: f) [] f

/-- An optional exponent and its value. -/
inductive Exponent : List Char → Int → Prop
  | none : Exponent [] 0
  | marked {c : Char} {s d : List Char} {negative : Bool} :
      c = 'e' ∨ c = 'E' → Sign s negative → Digits d → d ≠ [] →
      Exponent (c :: (s ++ d))
        (if negative then -(Decimal.ofDigits d : Int) else Decimal.ofDigits d)

/-- A text that spells a numeral. -/
def Spells (t : List Char) (n : Numeral) : Prop :=
  ∃ s m x, t = s ++ (m ++ x) ∧ Sign s n.negative ∧ Mantissa m n.whole n.fraction ∧
    Exponent x n.exponent

/-- The longest spelling at the start of a text, and the rest. -/
def Longest (s : List Char) (n : Numeral) (r : List Char) : Prop :=
  ∃ t, s = t ++ r ∧ Spells t n ∧
    ∀ t' r' n', s = t' ++ r' → Spells t' n' → t'.length ≤ t.length

lemma digits_takeWhile (s : List Char) : Digits (s.takeWhile Char.isDigit) :=
  fun _ hc => List.mem_takeWhile_imp hc

lemma Sign.mem {t : List Char} {negative : Bool} (h : Sign t negative) {c : Char} (hc : c ∈ t) :
    c = '+' ∨ c = '-' := by
  cases h with
  | none => contradiction
  | plus => exact .inl (List.mem_singleton.mp hc)
  | minus => exact .inr (List.mem_singleton.mp hc)

/-- The characters that a spelling may go on with. -/
def continues (c : Char) : Bool :=
  c.isDigit || c = '.' || c = 'e' || c = 'E'

/-- The characters of spellings. -/
def isNumeralChar (c : Char) : Bool :=
  continues c || c = '+' || c = '-'

/-- A spelling holds digits, points, letters of exponents and signs. -/
lemma Spells.isNumeralChar_of_mem {t : List Char} {n : Numeral} (h : Spells t n) {c : Char}
    (hc : c ∈ t) : isNumeralChar c = true := by
  have hdigits {d : List Char} (hd : Digits d) (hmem : c ∈ d) : isNumeralChar c = true := by
    simp [isNumeralChar, continues, hd c hmem]
  have hsigns {u : List Char} {negative : Bool} (hu : Sign u negative) (hmem : c ∈ u) :
      isNumeralChar c = true := by
    rcases hu.mem hmem with rfl | rfl <;> decide
  obtain ⟨s, m, x, rfl, hs, hm, hx⟩ := h
  generalize n.whole = w, n.fraction = f, n.exponent = e at hm hx
  rcases List.mem_append.mp hc with hc | hc
  · exact hsigns hs hc
  rcases List.mem_append.mp hc with hc | hc
  · cases hm with
    | whole hw _ => exact hdigits hw hc
    | pointed hw _ hf =>
      rcases List.mem_append.mp hc with hc | hc
      · exact hdigits hw hc
      · rcases List.mem_cons.mp hc with rfl | hc
        · decide
        · exact hdigits hf hc
    | fraction hf _ =>
      rcases List.mem_cons.mp hc with rfl | hc
      · decide
      · exact hdigits hf hc
  · cases hx with
    | none => contradiction
    | marked hletter hsign hd _ =>
      rcases List.mem_cons.mp hc with rfl | hc
      · rcases hletter with rfl | rfl <;> decide
      · rcases List.mem_append.mp hc with hc | hc
        · exact hsigns hsign hc
        · exact hdigits hd hc

lemma Spells.mem {t : List Char} {n : Numeral} (h : Spells t n) {c : Char} (hc : c ∈ t) :
    c.isAlphanum = true ∨ c = '+' ∨ c = '-' ∨ c = '.' := by
  have hchar := h.isNumeralChar_of_mem hc
  simp only [isNumeralChar, continues, Bool.or_eq_true, decide_eq_true_eq] at hchar
  rcases hchar with ((((hdigit | rfl) | rfl) | rfl) | rfl) | rfl
  · exact .inl (by simp [Char.isAlphanum, hdigit])
  all_goals decide

/-! ### What is read is a spelling -/

lemma sign_readSign (s : List Char) :
    ∃ t, s = t ++ (readSign s).2 ∧ Sign t (readSign s).1 := by
  fun_cases readSign s with
  | case1 r => exact ⟨['-'], rfl, .minus⟩
  | case2 r => exact ⟨['+'], rfl, .plus⟩
  | case3 => exact ⟨[], rfl, .none⟩

lemma mantissa_readMantissa? {s w f r : List Char} (h : readMantissa? s = some (w, f, r)) :
    ∃ t, s = t ++ r ∧ Mantissa t w f := by
  have hs := List.takeWhile_append_dropWhile (p := Char.isDigit) (l := s)
  have hw := digits_takeWhile s
  simp only [readMantissa?] at h
  split at h
  · rename_i u hu
    have hf := digits_takeWhile u
    split at h
    · contradiction
    · rename_i hne
      simp only [Option.some.injEq, Prod.mk.injEq] at h
      obtain ⟨rfl, rfl, rfl⟩ := h
      refine ⟨s.takeWhile Char.isDigit ++ '.' :: u.takeWhile Char.isDigit, ?_, ?_⟩
      · rw [List.append_assoc, List.cons_append, List.takeWhile_append_dropWhile, ← hu, hs]
      · by_cases hw' : s.takeWhile Char.isDigit = []
        · rw [hw'] at hne ⊢
          exact .fraction hf (by simpa using hne)
        · exact .pointed hw hw' hf
  · split at h
    · contradiction
    · rename_i hne
      simp only [Option.some.injEq, Prod.mk.injEq] at h
      obtain ⟨rfl, rfl, rfl⟩ := h
      exact ⟨s.takeWhile Char.isDigit, hs.symm, .whole hw (by simpa using hne)⟩

lemma exponent_readExponent (s : List Char) :
    ∃ t, s = t ++ (readExponent s).2 ∧ Exponent t (readExponent s).1 := by
  cases s with
  | nil => exact ⟨[], rfl, .none⟩
  | cons c s =>
    simp only [readExponent]
    split
    · rename_i hc
      obtain ⟨t, hs, ht⟩ := sign_readSign s
      split
      · exact ⟨[], rfl, .none⟩
      · rename_i hne
        refine ⟨c :: (t ++ (readSign s).2.takeWhile Char.isDigit), ?_, ?_⟩
        · rw [List.cons_append, List.append_assoc, List.takeWhile_append_dropWhile, ← hs]
        · exact .marked (by simpa using hc) ht (digits_takeWhile _) (by simpa using hne)
    · exact ⟨[], rfl, .none⟩

theorem spells_read? {s r : List Char} {n : Numeral} (h : read? s = some (n, r)) :
    ∃ t, s = t ++ r ∧ Spells t n := by
  simp only [read?, Option.bind_eq_bind, Option.bind_eq_some_iff, Option.pure_def,
    Option.some.injEq, Prod.mk.injEq, Prod.exists] at h
  obtain ⟨w, f, u, hm, rfl, rfl⟩ := h
  obtain ⟨a, ha, hsign⟩ := sign_readSign s
  obtain ⟨b, hb, hmantissa⟩ := mantissa_readMantissa? hm
  obtain ⟨c, hc, hexponent⟩ := exponent_readExponent u
  refine ⟨a ++ (b ++ c), ?_, a, b, c, rfl, hsign, hmantissa, hexponent⟩
  rw [List.append_assoc, List.append_assoc, ← hc, ← hb, ← ha]

/-! ### A spelling is read as a whole -/

lemma avoids_isDigit {r : List Char} (h : Avoids continues r) : Avoids Char.isDigit r :=
  h.mono fun c hc => by simp [continues, hc]

lemma Mantissa.head {t w f : List Char} (h : Mantissa t w f) :
    ∃ c u, t = c :: u ∧ (c.isDigit = true ∨ c = '.') := by
  cases h with
  | whole hw hne =>
    obtain ⟨c, u, rfl⟩ := List.exists_cons_of_ne_nil hne
    exact ⟨c, u, rfl, .inl (hw c (by simp))⟩
  | pointed hw hne _ =>
    obtain ⟨c, u, rfl⟩ := List.exists_cons_of_ne_nil hne
    exact ⟨c, _, rfl, .inl (hw c (by simp))⟩
  | fraction _ _ => exact ⟨'.', _, rfl, .inr rfl⟩

lemma readSign_append {t u : List Char} {c : Char} {negative : Bool} (h : Sign t negative)
    (hc : c.isDigit = true ∨ c = '.') : readSign (t ++ c :: u) = (negative, c :: u) := by
  cases h with
  | none =>
    rw [List.nil_append]
    unfold readSign
    split
    · rename_i heq
      cases heq
      exact absurd hc (by decide)
    · rename_i heq
      cases heq
      exact absurd hc (by decide)
    · rfl
  | plus => rfl
  | minus => rfl

/-- A mantissa ends where there is neither a digit nor the first point. -/
lemma readMantissa?_append {t w f r : List Char} (h : Mantissa t w f)
    (hd : Avoids Char.isDigit r) (hp : '.' ∈ t ∨ Avoids (· = '.') r) :
    readMantissa? (t ++ r) = some (w, f, r) := by
  cases h with
  | whole hw hne =>
    have hp := hp.resolve_left fun hpoint => absurd (hw _ hpoint) (by decide)
    simp only [readMantissa?, takeWhile_append hw hd, dropWhile_append hw hd]
    split
    · rename_i u
      have := hp '.' rfl
      simp at this
    · simp [hne]
  | pointed hw hne hf =>
    have hd' : Avoids Char.isDigit ('.' :: (f ++ r)) := by rintro c ⟨⟩; rfl
    rw [List.append_assoc, List.cons_append]
    simp [readMantissa?, takeWhile_append hw hd', dropWhile_append hw hd', takeWhile_append hf hd,
      dropWhile_append hf hd, hne]
  | fraction hf hne =>
    simp [readMantissa?, takeWhile_append hf hd, dropWhile_append hf hd, hne]

lemma readExponent_of_avoids {r : List Char} (hr : Avoids continues r) :
    readExponent r = (0, r) := by
  cases r with
  | nil => rfl
  | cons c r =>
    have := hr c rfl
    simp only [continues, Bool.or_eq_false_iff, decide_eq_false_iff_not] at this
    simp [readExponent, this.2, this.1.2]

/-- Behind a marker all digits are read, also those of the text that follows. -/
lemma readExponent_marked {c : Char} {s d : List Char} {negative : Bool} (hc : c = 'e' ∨ c = 'E')
    (hs : Sign s negative) (hd : Digits d) (hne : d ≠ []) (r : List Char) :
    readExponent (c :: (s ++ d) ++ r)
      = (if negative then -(Decimal.ofDigits ((d ++ r).takeWhile Char.isDigit) : Int)
          else Decimal.ofDigits ((d ++ r).takeWhile Char.isDigit),
        (d ++ r).dropWhile Char.isDigit) := by
  obtain ⟨e, u, rfl⟩ := List.exists_cons_of_ne_nil hne
  have hsign : readSign (s ++ e :: (u ++ r)) = (negative, e :: u ++ r) :=
    readSign_append hs (.inl (hd e (by simp)))
  have htake : (e :: u ++ r).takeWhile Char.isDigit ≠ [] := by
    rw [List.takeWhile_append_of_pos hd]
    simp
  simp only [List.cons_append, List.append_assoc, readExponent]
  rw [if_pos (by simpa using hc), hsign, if_neg (by simpa using htake)]
  rfl

/-- An exponent ends where there is no digit, and what follows no exponent is none either. -/
lemma readExponent_append {t r : List Char} {n : Int} (h : Exponent t n)
    (hd : Avoids Char.isDigit r) (hr : readExponent r = (0, r)) :
    readExponent (t ++ r) = (n, r) := by
  cases h with
  | none => exact hr
  | marked hc hs hdigits hne =>
    rw [readExponent_marked hc hs hdigits hne, takeWhile_append hdigits hd,
      dropWhile_append hdigits hd]

lemma read?_of_parts {s u v w f : List Char} {negative : Bool}
    (hs : readSign s = (negative, u)) (hm : readMantissa? u = some (w, f, v)) :
    read? s = some (⟨negative, w, f, (readExponent v).1⟩, (readExponent v).2) := by
  simp [read?, hs, hm]

/-- A spelling is read as a whole before a text that cannot be more of it: one that begins with neither a
digit nor the first point nor an exponent. -/
lemma read?_append_of_rest {t r : List Char} {n : Numeral} (h : Spells t n)
    (hd : Avoids Char.isDigit r) (hp : '.' ∈ t ∨ Avoids (· = '.') r)
    (hr : readExponent r = (0, r)) : read? (t ++ r) = some (n, r) := by
  obtain ⟨negative, w, f, e⟩ := n
  obtain ⟨s, m, x, rfl, hs, hm, hx⟩ := h
  obtain ⟨c, u, rfl, hc⟩ := hm.head
  have hsign := readSign_append (u := u ++ (x ++ r)) hs hc
  have hnext : Avoids Char.isDigit (x ++ r) ∧ ('.' ∈ c :: u ∨ Avoids (· = '.') (x ++ r)) := by
    cases hx with
    | none =>
      refine ⟨hd, hp.imp_left fun hpoint => ?_⟩
      rw [List.append_nil] at hpoint
      refine (List.mem_append.mp hpoint).resolve_left fun hmem => ?_
      rcases hs.mem hmem with heq | heq <;> contradiction
    | marked he _ _ _ =>
      refine ⟨?_, .inr ?_⟩ <;> rintro _ ⟨⟩ <;> rcases he with rfl | rfl <;> rfl
  have hmantissa := readMantissa?_append hm hnext.1 hnext.2
  have hexponent := readExponent_append hx hd hr
  rw [List.append_assoc, List.append_assoc, List.cons_append, read?_of_parts hsign hmantissa,
    hexponent]

theorem read?_append {t r : List Char} {n : Numeral} (h : Spells t n) (hr : Avoids continues r) :
    read? (t ++ r) = some (n, r) :=
  read?_append_of_rest h (avoids_isDigit hr) (.inr (hr.mono fun c hc => by simp_all [continues]))
    (readExponent_of_avoids hr)

theorem Spells.unique {t : List Char} {n n' : Numeral} (h : Spells t n) (h' : Spells t n') :
    n = n' := by
  have hnil : Avoids continues [] := nofun
  have := (read?_append h hnil).symm.trans (read?_append h' hnil)
  simpa using this

/-! ### No spelling is longer -/

lemma length_dropWhile_append_le {p : Char → Bool} {t : List Char} (ht : ∀ c ∈ t, p c = true)
    (r : List Char) : ((t ++ r).dropWhile p).length ≤ r.length := by
  rw [List.dropWhile_append_of_pos ht]
  exact (List.dropWhile_sublist p).length_le

lemma readMantissa?_longest {t w f : List Char} (h : Mantissa t w f) (r : List Char) :
    ∃ w' f' r', readMantissa? (t ++ r) = some (w', f', r') ∧ r'.length ≤ r.length := by
  cases h with
  | whole hw hne =>
    have hdrop := length_dropWhile_append_le hw r
    have htake : (t ++ r).takeWhile Char.isDigit ≠ [] := by
      rw [List.takeWhile_append_of_pos hw]
      simp [hne]
    simp only [readMantissa?]
    split
    · rename_i u hu
      have hfraction := (List.dropWhile_sublist Char.isDigit (l := u)).length_le
      rw [hu, List.length_cons] at hdrop
      exact ⟨_, _, _, by rw [if_neg (by simp [htake])], by omega⟩
    · exact ⟨_, _, _, by rw [if_neg (by simp [htake])], hdrop⟩
  | pointed hw hne hf =>
    have hd : Avoids Char.isDigit ('.' :: (f ++ r)) := by rintro c ⟨⟩; rfl
    rw [List.append_assoc, List.cons_append]
    simp only [readMantissa?, takeWhile_append hw hd, dropWhile_append hw hd]
    exact ⟨_, _, _, by rw [if_neg (by simp [hne])], length_dropWhile_append_le hf r⟩
  | fraction hf hne =>
    have htake : (f ++ r).takeWhile Char.isDigit ≠ [] := by
      rw [List.takeWhile_append_of_pos hf]
      simp [hne]
    have hd : Avoids Char.isDigit ('.' :: (f ++ r)) := by rintro c ⟨⟩; rfl
    have hnil : Digits [] := List.forall_mem_nil _
    rw [List.cons_append]
    have h₁ := takeWhile_append hnil hd
    have h₂ := dropWhile_append hnil hd
    rw [List.nil_append] at h₁ h₂
    simp only [readMantissa?, h₁, h₂]
    exact ⟨_, _, _, by rw [if_neg (by simp [htake])], length_dropWhile_append_le hf r⟩

lemma readExponent_longest {t : List Char} {n : Int} (h : Exponent t n) (r : List Char) :
    (readExponent (t ++ r)).2.length ≤ r.length := by
  cases h with
  | none => exact length_readExponent_le r
  | marked hc hs hd hne =>
    rw [readExponent_marked hc hs hd hne]
    exact length_dropWhile_append_le hd r

theorem read?_longest {t : List Char} {n : Numeral} (h : Spells t n) (r : List Char) :
    ∃ n' r', read? (t ++ r) = some (n', r') ∧ r'.length ≤ r.length := by
  obtain ⟨negative, w, f, e⟩ := n
  obtain ⟨s, m, x, rfl, hs, hm, hx⟩ := h
  obtain ⟨c, u, rfl, hc⟩ := hm.head
  have hsign := readSign_append (u := u ++ (x ++ r)) hs hc
  cases hx with
  | none =>
    obtain ⟨w, f, r', hmantissa, hle⟩ := readMantissa?_longest hm r
    have hexponent := length_readExponent_le r'
    have hle' := hexponent.trans hle
    rw [List.append_nil, List.append_assoc, List.cons_append]
    exact ⟨_, _, read?_of_parts hsign hmantissa, hle'⟩
  | @marked c' s' d _ he hs' hd hne =>
    -- the marker ends the mantissa, so the exponent is read from where it begins
    have hnext : Avoids Char.isDigit (c' :: (s' ++ d) ++ r) ∧
        Avoids (· = '.') (c' :: (s' ++ d) ++ r) := by
      constructor <;> rintro _ ⟨⟩ <;> rcases he with rfl | rfl <;> rfl
    have hmantissa := readMantissa?_append hm hnext.1 (.inr hnext.2)
    have hexponent := readExponent_longest (.marked he hs' hd hne) r
    rw [List.append_assoc, List.append_assoc, List.cons_append]
    exact ⟨_, _, read?_of_parts hsign hmantissa, hexponent⟩

/-- A numeral is read exactly where a text begins with a spelling, and then the longest is read. -/
theorem read?_eq_some_iff {s r : List Char} {n : Numeral} :
    read? s = some (n, r) ↔ Longest s n r := by
  constructor
  · intro h
    obtain ⟨t, rfl, ht⟩ := spells_read? h
    refine ⟨t, rfl, ht, fun t' r' n' hs ht' => ?_⟩
    obtain ⟨n₁, r₁, h₁, hle⟩ := read?_longest ht' r'
    rw [← hs, h, Option.some.injEq, Prod.mk.injEq] at h₁
    have hlength := congrArg List.length hs
    rw [List.length_append, List.length_append] at hlength
    rw [← h₁.2] at hle
    omega
  · rintro ⟨t, rfl, ht, hmax⟩
    obtain ⟨n₁, r₁, h₁, hle⟩ := read?_longest ht r
    obtain ⟨t₁, hs, ht₁⟩ := spells_read? h₁
    have hlength := hmax t₁ r₁ n₁ hs ht₁
    have hsame : t.length = t₁.length := by
      have := congrArg List.length hs
      rw [List.length_append, List.length_append] at this
      omega
    obtain ⟨rfl, rfl⟩ := List.append_inj hs hsame
    rw [h₁, ht.unique ht₁]

lemma Spells.startsNumeral {t : List Char} {n : Numeral} (h : Spells t n) (r : List Char) :
    startsNumeral (t ++ r) = true := by
  obtain ⟨negative, w, f, e⟩ := n
  obtain ⟨s, m, x, rfl, hs, hm, -⟩ := h
  obtain ⟨c, u, rfl, hc⟩ := hm.head
  cases hs with
  | none => rcases hc with hc | rfl <;> simp_all [Numeral.startsNumeral]
  | plus => rfl
  | minus => rfl

end Numeral

end Iconsmith
