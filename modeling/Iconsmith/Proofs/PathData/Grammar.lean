import Iconsmith.PathData.Reader
import Iconsmith.Proofs.Decimal.Spelling
import Iconsmith.Proofs.Results
import Mathlib.Tactic

/-!
# The grammar of path data

Each rule relates a text to what it says and to the text left over. Blanks between commands are
those of Unicode; a separator between operands is layout with at most one comma, and may also stand
behind the last operands of a command. Numerals are taken by longest match, flags are single digits.

`PathData.read` accepts a text exactly when the rules do, and gives the commands they give.
-/

namespace Iconsmith.PathData

open Numeral (startsNumeral)
open Text (Avoids dropWhile_of_avoids)

/-- Leaves out characters of one class. -/
def Skips (p : Char → Bool) (s r : List Char) : Prop :=
  ∃ t, s = t ++ r ∧ ∀ c ∈ t, p c = true

/-- Layout with at most one comma in it. -/
inductive Separator (s r : List Char) : Prop
  | blanks : Skips Text.isLayout s r → Separator s r
  | comma {t : List Char} :
      Skips Text.isLayout s (',' :: t) → Skips Text.isLayout t r → Separator s r

/-- One operand. -/
inductive Argument : Operand.Kind → List Char → Operand Float → List Char → Prop
  | number {s r : List Char} {n : Numeral} :
      Numeral.Longest s n r → Argument .number s (.number n.toFloat) r
  | off {r : List Char} : Argument .flag ('0' :: r) (.flag false) r
  | on {r : List Char} : Argument .flag ('1' :: r) (.flag true) r

/-- A group of operands with separators between them. -/
inductive Group : List Operand.Kind → List Char → List (Operand Float) → List Char → Prop
  | last {kind : Operand.Kind} {s r : List Char} {a : Operand Float} :
      Argument kind s a r → Group [kind] s [a] r
  | more {kind next : Operand.Kind} {kinds : List Operand.Kind} {s t u r : List Char}
      {a : Operand Float} {as : List (Operand Float)} :
      Argument kind s a t → Separator t u → Group (next :: kinds) u as r →
      Group (kind :: next :: kinds) s (a :: as) r

/-- The further groups of a command, each behind a separator, and a separator after the last. -/
inductive Repeats (v : Verb) (relative : Bool) :
    List Char → List (Command Float) → List Char → Prop
  | done {s r : List Char} : Separator s r → Repeats v relative s [] r
  | more {s t u r : List Char} {as : List (Operand Float)} {c : Command Float}
      {cs : List (Command Float)} :
      Separator s t → Group v.operands t as u → v.repeated.command? relative as = some c →
      Repeats v relative u cs r → Repeats v relative s (c :: cs) r

/-- The letter of a verb, in lower case when the command is relative. -/
def letterOf (v : Verb) (relative : Bool) : Char :=
  if relative then v.letter.toLower else v.letter

/-- A command letter and everything that belongs to it. -/
inductive Item : List Char → List (Command Float) → List Char → Prop
  | close {relative : Bool} {r : List Char} : Item (letterOf .close relative :: r) [.close] r
  | drawn {v : Verb} {relative : Bool} {s t u r : List Char} {as : List (Operand Float)}
      {c : Command Float} {cs : List (Command Float)} :
      v ≠ .close → Skips Text.isBlank s t → Group v.operands t as u →
      v.command? relative as = some c → Repeats v relative u cs r →
      Item (letterOf v relative :: s) (c :: cs) r

/-- A whole text with the commands it stands for. -/
inductive Commands : List Char → List (Command Float) → Prop
  | done {s : List Char} : Skips Text.isBlank s [] → Commands s []
  | item {s t r : List Char} {cs cs' : List (Command Float)} :
      Skips Text.isBlank s t → Item t cs r → Commands r cs' → Commands s (cs ++ cs')

/-! ### Blanks and separators -/

section Skipping

variable {p : Char → Bool} {s t r : List Char}

lemma skips_dropWhile (p : Char → Bool) (s : List Char) : Skips p s (s.dropWhile p) :=
  ⟨s.takeWhile p, List.takeWhile_append_dropWhile.symm, fun _ hc => List.mem_takeWhile_imp hc⟩

lemma Skips.dropWhile_eq (h : Skips p s r) : s.dropWhile p = r.dropWhile p := by
  obtain ⟨t, rfl, ht⟩ := h
  exact List.dropWhile_append_of_pos ht

lemma separator_skipSeparator (s : List Char) : Separator s (skipSeparator s) := by
  have hs := skips_dropWhile Text.isLayout s
  unfold skipSeparator
  split
  · rename_i t ht
    rw [ht] at hs
    exact .comma hs (skips_dropWhile Text.isLayout t)
  · exact .blanks hs

/-- Skipping a separator goes as far as the layout after any separator does. -/
lemma Separator.skipSeparator_eq (h : Separator s r)
    (hr : Avoids (· = ',') (r.dropWhile Text.isLayout)) :
    skipSeparator s = r.dropWhile Text.isLayout := by
  unfold skipSeparator
  cases h with
  | blanks h =>
    rw [h.dropWhile_eq]
    split
    · rename_i t ht
      rw [ht] at hr
      simpa using hr ',' rfl
    · rfl
  | comma h₁ h₂ =>
    rw [h₁.dropWhile_eq, List.dropWhile_cons_of_neg (by decide)]
    exact h₂.dropWhile_eq

end Skipping

lemma isBlank_of_startsNumeral {c : Char}
    (h : c.isDigit = true ∨ c = '.' ∨ c = '-' ∨ c = '+') :
    Text.isBlank c = false ∧ c ≠ ',' := by
  rcases h with h | rfl | rfl | rfl
  · simp only [Char.isDigit, Bool.and_eq_true, decide_eq_true_eq, UInt32.le_iff_toNat_le] at h
    have hlow : 48 ≤ c.toNat := h.1
    have hhigh : c.toNat ≤ 57 := h.2
    constructor
    · simp only [Text.isBlank, Text.inRanges, Text.blankRanges, List.any_cons, List.any_nil,
        Bool.or_false, Bool.or_eq_false_iff, Bool.and_eq_false_iff, decide_eq_false_iff_not]
      omega
    · rintro rfl
      exact absurd hlow (by decide)
  all_goals decide

section Numerals

variable {s t r : List Char}

lemma avoids_of_startsNumeral (h : startsNumeral t = true) :
    Avoids Text.isBlank t ∧ Avoids Text.isLayout t ∧ Avoids (· = ',') t := by
  cases t with
  | nil => simp [startsNumeral] at h
  | cons c t =>
    have hc := isBlank_of_startsNumeral (c := c) (by simpa [startsNumeral, or_assoc] using h)
    refine ⟨?_, ?_, ?_⟩
    · rintro _ ⟨⟩
      exact hc.1
    · rintro _ ⟨⟩
      by_contra hl
      rw [Text.isBlank_of_isLayout (by simpa using hl)] at hc
      exact absurd hc.1 (by decide)
    · rintro _ ⟨⟩
      simpa using hc.2

lemma Separator.skipSeparator_of_startsNumeral (h : Separator s t)
    (ht : startsNumeral t = true) : skipSeparator s = t := by
  obtain ⟨-, hlayout, hcomma⟩ := avoids_of_startsNumeral ht
  have hdrop := dropWhile_of_avoids hlayout
  rw [← hdrop] at hcomma
  rw [h.skipSeparator_eq hcomma, hdrop]

lemma Skips.trimStart_of_startsNumeral (h : Skips Text.isBlank s t)
    (ht : startsNumeral t = true) : Text.trimStart s = t := by
  obtain ⟨hblank, -, -⟩ := avoids_of_startsNumeral ht
  rw [Text.trimStart, h.dropWhile_eq, dropWhile_of_avoids hblank]

end Numerals

/-! ### Operands -/

section Operands

variable {s r : List Char}

lemma readFlag?_eq_some_iff {on : Bool} :
    readFlag? s = some (on, r) ↔ Argument .flag s (.flag on) r := by
  constructor
  · intro h
    unfold readFlag? at h
    split at h
    · cases h
      exact .off
    · cases h
      exact .on
    · contradiction
  · intro h
    cases h <;> rfl

lemma readOperand?_eq_some_iff {kind : Operand.Kind} {a : Operand Float} :
    readOperand? kind s = some (a, r) ↔ Argument kind s a r := by
  cases kind with
  | number =>
    simp only [readOperand?, Option.bind_eq_bind, Option.bind_eq_some_iff, Option.pure_def,
      Option.some.injEq, Prod.mk.injEq, Prod.exists]
    constructor
    · rintro ⟨n, t, hn, rfl, rfl⟩
      exact .number (Numeral.read?_eq_some_iff.mp hn)
    · rintro ⟨h⟩
      exact ⟨_, _, Numeral.read?_eq_some_iff.mpr ‹_›, rfl, rfl⟩
  | flag =>
    simp only [readOperand?, Option.bind_eq_bind, Option.bind_eq_some_iff, Option.pure_def,
      Option.some.injEq, Prod.mk.injEq, Prod.exists]
    constructor
    · rintro ⟨on, t, hf, rfl, rfl⟩
      exact readFlag?_eq_some_iff.mp hf
    · intro h
      cases h with
      | off => exact ⟨false, _, rfl, rfl, rfl⟩
      | on => exact ⟨true, _, rfl, rfl, rfl⟩

lemma Argument.startsNumeral {kind : Operand.Kind} {a : Operand Float}
    (h : Argument kind s a r) : startsNumeral s = true := by
  cases h with
  | number h =>
    obtain ⟨t, rfl, ht, -⟩ := h
    exact ht.startsNumeral r
  | off => rfl
  | on => rfl

lemma Group.startsNumeral {kinds : List Operand.Kind} {as : List (Operand Float)}
    (h : Group kinds s as r) : startsNumeral s = true := by
  cases h with
  | last h => exact h.startsNumeral
  | more h _ _ => exact h.startsNumeral

lemma readGroup?_eq_some_iff {kinds : List Operand.Kind} {as : List (Operand Float)} :
    readGroup? kinds s = some (as, r) ↔ Group kinds s as r := by
  fun_induction readGroup? kinds s generalizing as r with
  | case1 s =>
    constructor
    · intro h
      contradiction
    · intro h
      cases h
  | case2 kind s =>
    simp only [Option.bind_eq_bind, Option.bind_eq_some_iff, Option.pure_def, Option.some.injEq,
      Prod.mk.injEq, Prod.exists]
    constructor
    · rintro ⟨a, t, ha, rfl, rfl⟩
      exact .last (readOperand?_eq_some_iff.mp ha)
    · intro h
      cases h with
      | last h => exact ⟨_, _, readOperand?_eq_some_iff.mpr h, rfl, rfl⟩
  | case3 kind kinds s hne ih =>
    simp only [Option.bind_eq_bind, Option.bind_eq_some_iff, Option.pure_def, Option.some.injEq,
      Prod.mk.injEq, Prod.exists]
    constructor
    · rintro ⟨a, t, ha, as', u, has, rfl, rfl⟩
      obtain ⟨next, rest, rfl⟩ := List.exists_cons_of_ne_nil hne
      exact .more (readOperand?_eq_some_iff.mp ha) (separator_skipSeparator t) ((ih t).mp has)
    · intro h
      cases h with
      | last _ => contradiction
      | more ha hsep h =>
        rw [← hsep.skipSeparator_of_startsNumeral h.startsNumeral] at h
        exact ⟨_, _, readOperand?_eq_some_iff.mpr ha, _, _, (ih _).mpr h, rfl, rfl⟩

lemma readCommand?_eq_some_iff {v made : Verb} {relative : Bool} {c : Command Float} :
    readCommand? v made relative s = some (c, r) ↔
      ∃ as, Group v.operands s as r ∧ made.command? relative as = some c := by
  simp only [readCommand?, Option.bind_eq_bind, Option.bind_eq_some_iff, Option.pure_def,
    Option.some.injEq, Prod.mk.injEq, Prod.exists, readGroup?_eq_some_iff]
  constructor
  · rintro ⟨as, t, hg, c', hc, rfl, rfl⟩
    exact ⟨as, hg, hc⟩
  · rintro ⟨as, hg, hc⟩
    exact ⟨as, r, hg, c, hc, rfl, rfl⟩

end Operands

/-! ### Command letters -/

lemma ofLetter?_letterOf (v : Verb) (relative : Bool) :
    Verb.ofLetter? (letterOf v relative) = some v := by
  cases v <;> cases relative <;> decide

lemma isLower_letterOf (v : Verb) (relative : Bool) :
    (letterOf v relative).isLower = relative := by
  cases v <;> cases relative <;> decide

lemma isAlpha_letterOf (v : Verb) (relative : Bool) : (letterOf v relative).isAlpha = true := by
  cases v <;> cases relative <;> decide

lemma letter_of_ofLetter? {letter : Char} {v : Verb} (h : Verb.ofLetter? letter = some v) :
    v.letter = letter.toUpper := by
  unfold Verb.ofLetter? at h
  split at h
  all_goals first
    | contradiction
    | rename_i heq
      rw [heq]
      cases h
      rfl

lemma eq_letterOf {letter : Char} {v : Verb} (h : Verb.ofLetter? letter = some v) :
    letter = letterOf v letter.isLower := by
  rw [letterOf, letter_of_ofLetter? h]
  by_cases hlower : letter.isLower = true
  · rw [if_pos hlower, Text.toLower_toUpper hlower]
  · rw [if_neg hlower, Char.toUpper_eq_of_not_isLower hlower]

/-! ### What is read follows the grammar -/

lemma repeats_readRepeats {v : Verb} {letter : Char} {s r : List Char}
    {cs : List (Command Float)} (h : readRepeats v letter s = .ok (cs, r)) :
    Repeats v letter.isLower s cs r := by
  fun_induction readRepeats v letter s generalizing cs r with
  | case1 s s' => contradiction
  | case2 s _ _ c t hc =>
    rename_i ih
    obtain ⟨as, hg, hmade⟩ := readCommand?_eq_some_iff.mp hc
    obtain ⟨⟨cs', r'⟩, hr, hpure⟩ := bind_eq_ok.mp h
    cases hpure
    exact .more (separator_skipSeparator s) hg hmade (ih hr)
  | case3 s s' =>
    cases h
    exact .done (separator_skipSeparator s)

lemma item_readStep {letter : Char} {s r : List Char} {cs : List (Command Float)}
    (h : readStep letter s = .ok (cs, r)) : Item (letter :: s) cs r := by
  unfold readStep at h
  split at h
  · contradiction
  · split at h
    · contradiction
    · rename_i v hv
      rw [eq_letterOf hv]
      unfold readOperands at h
      split at h
      · rename_i hclose
        cases h
        rw [hclose]
        exact .close
      · rename_i hclose
        split at h
        · contradiction
        · rename_i c t hc
          obtain ⟨as, hg, hmade⟩ := readCommand?_eq_some_iff.mp hc
          obtain ⟨⟨cs', r'⟩, hr, hpure⟩ := bind_eq_ok.mp h
          cases hpure
          exact .drawn hclose (skips_dropWhile Text.isBlank s) hg hmade (repeats_readRepeats hr)

lemma skips_trimStart (s : List Char) : Skips Text.isBlank s (Text.trimStart s) :=
  skips_dropWhile Text.isBlank s

lemma commands_readAll {s : List Char} {cs : List (Command Float)} (h : readAll s = .ok cs) :
    Commands s cs := by
  fun_induction readAll s generalizing cs with
  | case1 s hs =>
    have hskip := skips_trimStart s
    rw [hs] at hskip
    cases h
    exact .done hskip
  | case2 s letter t hs e he => contradiction
  | case3 s letter t hs cs₁ r hstep ih =>
    have hskip := skips_trimStart s
    rw [hs] at hskip
    obtain ⟨cs₂, hr, hpure⟩ := bind_eq_ok.mp h
    cases hpure
    exact .item hskip (item_readStep hstep) (ih hr)

/-! ### What follows the grammar is read -/

/-- A text that is at its end, but for blanks, or goes on with a command letter. -/
def Ends (r : List Char) : Prop :=
  ∀ c ∈ (Text.trimStart r).head?, c.isAlpha = true

section Completeness

variable {s r : List Char} {cs : List (Command Float)}

lemma Item.exists_letter (h : Item s cs r) :
    ∃ v relative t, s = letterOf v relative :: t := by
  cases h with
  | close => exact ⟨_, _, _, rfl⟩
  | drawn _ _ _ _ _ => exact ⟨_, _, _, rfl⟩

lemma isBlank_of_isAlpha {c : Char} (h : c.isAlpha = true) : Text.isBlank c = false := by
  simp only [Char.isAlpha, Char.isUpper, Char.isLower, Bool.or_eq_true, Bool.and_eq_true,
    decide_eq_true_eq, ge_iff_le, UInt32.le_iff_toNat_le] at h
  have hc : 65 ≤ c.toNat ∧ c.toNat ≤ 90 ∨ 97 ≤ c.toNat ∧ c.toNat ≤ 122 := h
  simp only [Text.isBlank, Text.inRanges, Text.blankRanges, List.any_cons, List.any_nil,
    Bool.or_false, Bool.or_eq_false_iff, Bool.and_eq_false_iff, decide_eq_false_iff_not]
  omega

lemma Commands.ends (h : Commands s cs) : Ends s := by
  cases h with
  | done hskip =>
    rw [Ends, Text.trimStart, hskip.dropWhile_eq]
    nofun
  | item hskip hitem _ =>
    obtain ⟨v, relative, t, rfl⟩ := hitem.exists_letter
    have hletter := isAlpha_letterOf v relative
    have hblank := isBlank_of_isAlpha hletter
    rw [Ends, Text.trimStart, hskip.dropWhile_eq, List.dropWhile_cons_of_neg (by simp [hblank])]
    rintro _ ⟨⟩
    exact hletter

lemma trimStart_dropWhile_isLayout (r : List Char) :
    Text.trimStart (r.dropWhile Text.isLayout) = Text.trimStart r := by
  obtain ⟨t, hr, ht⟩ := skips_dropWhile Text.isLayout r
  have hskip : Skips Text.isBlank r (r.dropWhile Text.isLayout) :=
    ⟨t, hr, fun c hc => Text.isBlank_of_isLayout (ht c hc)⟩
  rw [Text.trimStart, Text.trimStart, hskip.dropWhile_eq]

lemma not_starts_of_isBlank_or_isAlpha {c : Char} (h : Text.isBlank c = true ∨ c.isAlpha = true)
    (u : List Char) : c ≠ ',' ∧ startsNumeral (c :: u) = false := by
  constructor
  · rintro rfl
    exact absurd h (by decide)
  · by_contra hstart
    have hc : ((c.isDigit = true ∨ c = '.') ∨ c = '-') ∨ c = '+' := by
      simpa only [startsNumeral, Bool.or_eq_true, decide_eq_true_eq, Bool.not_eq_false] using hstart
    rcases hc with ((hdigit | rfl) | rfl) | rfl
    · rcases h with hblank | halpha
      · rw [(isBlank_of_startsNumeral (.inl hdigit)).1] at hblank
        contradiction
      · simp only [Char.isDigit, Char.isAlpha, Char.isUpper, Char.isLower] at hdigit halpha
        grind
    all_goals exact absurd h (by decide)

/-- Where a command ends there is neither a comma nor a further operand behind the layout. -/
lemma Ends.dropWhile_isLayout (h : Ends r) :
    Avoids (· = ',') (r.dropWhile Text.isLayout) ∧
      startsNumeral (r.dropWhile Text.isLayout) = false := by
  rw [Ends, ← trimStart_dropWhile_isLayout] at h
  generalize r.dropWhile Text.isLayout = u at h
  cases u with
  | nil => exact ⟨nofun, rfl⟩
  | cons c u =>
    have hc : Text.isBlank c = true ∨ c.isAlpha = true := by
      by_cases hblank : Text.isBlank c = true
      · exact .inl hblank
      · have htrim : Text.trimStart (c :: u) = c :: u := List.dropWhile_cons_of_neg hblank
        exact .inr (h c (by rw [htrim]; rfl))
    obtain ⟨hcomma, hstart⟩ := not_starts_of_isBlank_or_isAlpha hc u
    refine ⟨?_, hstart⟩
    rintro _ ⟨⟩
    simpa using hcomma

lemma Repeats.readRepeats {v : Verb} {letter : Char} (h : Repeats v letter.isLower s cs r)
    (hr : Ends r) :
    ∃ r', readRepeats v letter s = .ok (cs, r') ∧ Text.trimStart r' = Text.trimStart r := by
  induction h with
  | @done s r hsep =>
    obtain ⟨hcomma, hstart⟩ := hr.dropWhile_isLayout
    have hskip := hsep.skipSeparator_eq hcomma
    refine ⟨r.dropWhile Text.isLayout, ?_, trimStart_dropWhile_isLayout r⟩
    rw [PathData.readRepeats]
    simp only [hskip, hstart]
    rfl
  | @more s t u r as c cs hsep hg hc _ ih =>
    obtain ⟨r', hread, htrim⟩ := ih hr
    obtain rfl := hsep.skipSeparator_of_startsNumeral hg.startsNumeral
    have hcommand : readCommand? v v.repeated letter.isLower (skipSeparator s) = some (c, u) :=
      readCommand?_eq_some_iff.mpr ⟨as, hg, hc⟩
    refine ⟨r', ?_, htrim⟩
    rw [PathData.readRepeats]
    simp only [hg.startsNumeral, if_true]
    split
    · rename_i hnone
      rw [hcommand] at hnone
      contradiction
    · rename_i c' t' hsome
      rw [hcommand] at hsome
      cases hsome
      rw [hread]
      rfl

lemma Item.readStep (h : Item s cs r) (hr : Ends r) :
    ∃ letter t r', s = letter :: t ∧ readStep letter t = .ok (cs, r') ∧
      Text.trimStart r' = Text.trimStart r := by
  cases h with
  | @close relative r =>
    refine ⟨_, _, r, rfl, ?_, rfl⟩
    have hletter := Text.isLetter_of_isAlpha (isAlpha_letterOf .close relative)
    rw [PathData.readStep, hletter, ofLetter?_letterOf]
    rfl
  | @drawn v relative s t u r as c cs hclose hskip hg hc hrepeats =>
    have hletter := Text.isLetter_of_isAlpha (isAlpha_letterOf v relative)
    have hlower := isLower_letterOf v relative
    rw [← hlower] at hrepeats
    obtain ⟨r', hread, htrim⟩ := hrepeats.readRepeats hr
    have hcommand : readCommand? v v relative t = some (c, u) :=
      readCommand?_eq_some_iff.mpr ⟨as, hg, hc⟩
    refine ⟨_, _, r', rfl, ?_, htrim⟩
    rw [PathData.readStep, hletter, ofLetter?_letterOf]
    simp only [readOperands, hclose, if_false, hlower, Bool.not_true, Bool.false_eq_true,
      hskip.trimStart_of_startsNumeral hg.startsNumeral, hcommand, hread]
    rfl

lemma readAll_of_nil (h : Text.trimStart s = []) : readAll s = .ok [] := by
  rw [PathData.readAll]
  split
  · rfl
  · rename_i hs
    rw [h] at hs
    contradiction

lemma readAll_of_step {letter : Char} {t : List Char} {cs' : List (Command Float)}
    (h : Text.trimStart s = letter :: t) (hstep : readStep letter t = .ok (cs, r))
    (hrest : readAll r = .ok cs') : readAll s = .ok (cs ++ cs') := by
  rw [PathData.readAll]
  split
  · rename_i hs
    rw [h] at hs
    contradiction
  · rename_i letter' t' hs
    rw [h] at hs
    cases hs
    split
    · rename_i e he
      rw [hstep] at he
      contradiction
    · rename_i cs₁ r₁ hread
      rw [hstep] at hread
      cases hread
      rw [hrest]
      rfl

/-- Blanks before path data are part of it. -/
lemma Commands.of_skips {t : List Char} (hskip : Skips Text.isBlank s t) (h : Commands t cs) :
    Commands s cs := by
  obtain ⟨u, rfl, hu⟩ := hskip
  have htrans {r : List Char} (ht : Skips Text.isBlank t r) : Skips Text.isBlank (u ++ t) r := by
    obtain ⟨u', rfl, hu'⟩ := ht
    exact ⟨u ++ u', (List.append_assoc u u' r).symm, List.forall_mem_append.mpr ⟨hu, hu'⟩⟩
  cases h with
  | done ht => exact .done (htrans ht)
  | item ht hitem hrest => exact .item (htrans ht) hitem hrest

/-- Blanks at the start of a text make no difference, so it may begin with any of them. -/
lemma Commands.readAll (h : Commands s cs) (hr : Text.trimStart r = Text.trimStart s) :
    readAll r = .ok cs := by
  induction h generalizing r with
  | done hskip =>
    refine readAll_of_nil ?_
    rw [hr, Text.trimStart, hskip.dropWhile_eq]
    rfl
  | @item s t u cs₁ cs₂ hskip hitem hrest ih =>
    obtain ⟨letter, t, u', rfl, hstep, htrim⟩ := hitem.readStep hrest.ends
    obtain ⟨v, relative, t', hletter⟩ := hitem.exists_letter
    have hblank : Text.isBlank letter = false := by
      obtain ⟨rfl, -⟩ := List.cons.inj hletter
      exact isBlank_of_isAlpha (isAlpha_letterOf v relative)
    refine readAll_of_step ?_ hstep (ih htrim)
    rw [hr, Text.trimStart, hskip.dropWhile_eq, List.dropWhile_cons_of_neg (by simp [hblank])]

end Completeness

lemma commands_of_read {s : String} {cs : List (Command Float)} (h : read s = .ok cs) :
    Commands s.toList cs := by
  unfold read at h
  split at h
  · rename_i cs' hread
    cases h
    exact commands_readAll hread
  · contradiction

lemma read_of_commands {s : String} {cs : List (Command Float)} (h : Commands s.toList cs) :
    read s = .ok cs := by
  rw [read, h.readAll rfl]

/-- Reading accepts a text exactly when the grammar does, and gives the commands it stands for. -/
theorem read_eq_ok_iff_commands (s : String) (cs : List (Command Float)) :
    read s = .ok cs ↔ Commands s.toList cs :=
  ⟨commands_of_read, read_of_commands⟩

end Iconsmith.PathData
