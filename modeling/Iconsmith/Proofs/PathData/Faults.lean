import Iconsmith.Proofs.PathData.RoundTrip

/-!
# Path data of numbers that are not finite

An infinite or undefined operand is written by its name, and no operand can be read where a name
stands. So what is written for a list of commands is read as far as its numbers are finite, and the
first command with another number is the one at fault.
-/

namespace Iconsmith

open Text (Avoids byteSize)

/-- Whether all numbers of a command are finite. -/
def Command.isFinite (c : Command Float) : Bool :=
  c.numbers.all Float.isFinite

lemma Text.byteSize_append (s t : List Char) :
    byteSize (s ++ t) = byteSize s + byteSize t := by
  induction s with
  | nil => simp [byteSize]
  | cons c s ih =>
    have hcons (u : List Char) : byteSize (c :: u) = c.utf8Size + byteSize u := rfl
    rw [List.cons_append, hcons, hcons, ih, Nat.add_assoc]

/-! ### Operands -/

/-- A named number has no mantissa. -/
lemma Numeral.read?_of_not_isFinite {x : Float} (hx : x.isFinite = false) (r : List Char) :
    read? ((Decimal.Style.plain.unsignedZero x).toList ++ r) = none := by
  rw [Decimal.toList_unsignedZero]
  rcases Double.not_isFinite_cases hx with rfl | rfl | rfl
  · have hchars : Decimal.Style.plain.chars (Double.unsigned (1 / 0)) = ['i', 'n', 'f'] := by
      decide +kernel
    rw [hchars]
    rfl
  · have hchars : Decimal.Style.plain.chars (Double.unsigned (-(1 / 0))) = ['-', 'i', 'n', 'f'] := by
      decide +kernel
    rw [hchars]
    rfl
  · have hchars : Decimal.Style.plain.chars (Double.unsigned (0 / 0)) = ['N', 'a', 'N'] := by
      decide +kernel
    rw [hchars]
    rfl

/-- The text of an operand begins with a character that no separator contains. -/
lemma Operand.text_eq_cons (a : Operand Float) :
    ∃ c t, a.text.toList = c :: t ∧ Text.isBlank c = false ∧ c ≠ ',' := by
  cases a with
  | number x =>
    have hread := Decimal.floatOf?_text .plain x
    have hmem := Decimal.mem_text .plain x
    cases htext : (Decimal.Style.plain.unsignedZero x).toList with
    | nil =>
      rw [htext] at hread
      cases hread
    | cons c t =>
      refine ⟨c, t, htext, ?_⟩
      rw [htext] at hmem
      rcases hmem c (by simp) with halnum | hsign
      · rcases Bool.or_eq_true_iff.mp halnum with halpha | hdigit
        · refine ⟨PathData.isBlank_of_isAlpha halpha, ?_⟩
          rintro rfl
          cases halpha
        · exact PathData.isBlank_of_startsNumeral (.inl hdigit)
      · refine PathData.isBlank_of_startsNumeral (.inr ?_)
        rcases hsign with hplus | hminus | hpoint
        · exact .inr (.inr hplus)
        · exact .inr (.inl hminus)
        · exact .inl hpoint
  | flag on => cases on <;> exact ⟨_, _, rfl, by decide, by decide⟩

namespace PathData

lemma isLayout_of_not_isBlank {c : Char} (h : Text.isBlank c = false) : Text.isLayout c = false := by
  by_contra hlayout
  rw [Text.isBlank_of_isLayout (by simpa using hlayout)] at h
  cases h

/-- Past the space between two operands stands the next one, and nothing of it is skipped. -/
lemma skipSeparator_space {c : Char} {t : List Char} (hblank : Text.isBlank c = false)
    (hcomma : c ≠ ',') : skipSeparator (' ' :: c :: t) = c :: t := by
  have hskip : Separator (' ' :: c :: t) (c :: t) := .blanks ⟨[' '], rfl, by decide⟩
  have hdrop : (c :: t).dropWhile Text.isLayout = c :: t :=
    Text.dropWhile_of_avoids (Text.avoids_cons (isLayout_of_not_isBlank hblank))
  have hfirst : Avoids (· = ',') (c :: t) := Text.avoids_cons (by simpa using hcomma)
  rw [hskip.skipSeparator_eq (by rwa [hdrop]), hdrop]

/-- A group of operands begins as the first of them does. -/
lemma exists_cons_intercalate (a : Operand Float) (as : List (Operand Float)) :
    ∃ c t, (" ".intercalate ((a :: as).map Operand.text)).toList = c :: t ∧
      Text.isBlank c = false ∧ c ≠ ',' := by
  obtain ⟨c, t, ha, hc⟩ := a.text_eq_cons
  cases as with
  | nil => exact ⟨c, t, by simpa using ha, hc⟩
  | cons b as =>
    rw [toList_intercalate_cons_cons, ha, List.cons_append]
    exact ⟨c, _, rfl, hc⟩

lemma readGroup?_of_readOperand?_eq_none {kind : Operand.Kind} {s : List Char}
    (h : readOperand? kind s = none) (kinds : List Operand.Kind) :
    readGroup? (kind :: kinds) s = none := by
  cases kinds <;> simp [readGroup?, h]

lemma readGroup?_of_readOperand?_eq_some {kind : Operand.Kind} {s r : List Char}
    {a : Operand Float} (h : readOperand? kind s = some (a, r)) {kinds : List Operand.Kind}
    (hne : kinds ≠ []) (hrest : readGroup? kinds (skipSeparator r) = none) :
    readGroup? (kind :: kinds) s = none := by
  obtain ⟨next, rest, rfl⟩ := List.exists_cons_of_ne_nil hne
  simp [readGroup?, h, hrest]

/-- A group is not read when one of its numbers is not finite. -/
lemma readGroup?_of_not_isFinite {as : List (Operand Float)} {x : Float} (hx : x.isFinite = false)
    (hmem : .number x ∈ as) (r : List Char) :
    readGroup? (as.map Operand.kind)
      ((" ".intercalate (as.map Operand.text)).toList ++ r) = none := by
  -- The operands before the first number that is not finite are read one by one.
  induction as with
  | nil => cases hmem
  | cons a as ih =>
    by_cases ha : ∀ y, a = .number y → y.isFinite = true
    · have htail : .number x ∈ as := by
        rcases List.mem_cons.mp hmem with rfl | htail
        · rw [ha x rfl] at hx
          cases hx
        · exact htail
      obtain ⟨b, as, rfl⟩ := List.exists_cons_of_ne_nil (List.ne_nil_of_mem htail)
      obtain ⟨c, t, hrest, hblank, hcomma⟩ := exists_cons_intercalate b as
      have hnone := ih htail
      rw [hrest] at hnone
      rw [toList_intercalate_cons_cons, hrest, List.append_assoc]
      have hspace : Avoids Numeral.continues (' ' :: c :: t ++ r) := Text.avoids_cons (by decide)
      have hread := readOperand?_eq_some_iff.mpr (Operand.argument_text ha hspace)
      refine readGroup?_of_readOperand?_eq_some hread (List.cons_ne_nil _ _) ?_
      rw [List.cons_append, List.cons_append, skipSeparator_space hblank hcomma]
      exact hnone
    · simp only [not_forall, Bool.not_eq_true] at ha
      obtain ⟨y, rfl, hy⟩ := ha
      refine readGroup?_of_readOperand?_eq_none ?_ _
      have hnone (u : List Char) :
          readOperand? (Operand.number y).kind ((Operand.number y).text.toList ++ u) = none := by
        simp [readOperand?, Operand.kind, Operand.text, Numeral.read?_of_not_isFinite hy]
      cases as with
      | nil => simpa using hnone r
      | cons b as =>
        rw [toList_intercalate_cons_cons, List.append_assoc]
        exact hnone _

/-! ### Commands -/

section Commands

variable {c : Command Float} {letter : Char} {s t r : List Char} {cs : List (Command Float)}

/-- The text of a command is not shortened at its start. -/
lemma trimStart_text (c : Command Float) (r : List Char) :
    Text.trimStart (c.text.toList ++ r) = c.text.toList ++ r := by
  have hblank := isBlank_of_isAlpha (isAlpha_letterOf c.verb c.isRelative)
  rw [toList_text, List.cons_append]
  exact Text.dropWhile_of_avoids (Text.avoids_cons hblank)

lemma ends_write (cs : List (Command Float)) : Ends (write cs).toList := by
  cases cs with
  | nil => nofun
  | cons c cs =>
    rw [Ends, toList_write_cons, trimStart_text, toList_text]
    rintro _ ⟨⟩
    exact isAlpha_letterOf c.verb c.isRelative

/-- A command with a number that is not finite is at fault itself. -/
lemma readStep_of_not_isFinite (hc : c.isFinite = false) (r : List Char) :
    readStep c.letter ((" ".intercalate (c.operands.map Operand.text)).toList ++ r) =
      .error ⟨.missingOperands c.letter, c.text.toList ++ r⟩ := by
  obtain ⟨x, hmem, hx⟩ : ∃ x ∈ c.numbers, x.isFinite = false := by
    simpa [Command.isFinite] using hc
  have hoperand := Command.mem_numbers.mp hmem
  have hnone := readGroup?_of_not_isFinite hx hoperand r
  rw [← Command.operands_verb] at hnone
  have hverb : c.verb ≠ .close := by
    intro hverb
    have hkinds := c.operands_verb
    rw [hverb, eq_comm, Verb.operands, List.map_eq_nil_iff] at hkinds
    rw [hkinds] at hoperand
    cases hoperand
  have hletter : c.letter = letterOf c.verb c.isRelative := rfl
  have htrim : Text.trimStart ((" ".intercalate (c.operands.map Operand.text)).toList ++ r) =
      (" ".intercalate (c.operands.map Operand.text)).toList ++ r := by
    obtain ⟨a, as, has⟩ := List.exists_cons_of_ne_nil (List.ne_nil_of_mem hoperand)
    obtain ⟨d, u, hd, hblank, -⟩ := exists_cons_intercalate a as
    rw [has, hd, List.cons_append]
    exact Text.dropWhile_of_avoids (Text.avoids_cons hblank)
  rw [readStep, hletter, Text.isLetter_of_isAlpha (isAlpha_letterOf _ _), ofLetter?_letterOf]
  simp only [readOperands, hverb, if_false, Bool.not_true, Bool.false_eq_true, htrim, readCommand?,
    hnone, Option.bind_eq_bind, Option.bind_none, toList_text, List.cons_append]

/-- Where a text begins with a letter, the command there is read and then the rest. -/
lemma readAll_eq_bind (h : Text.trimStart s = letter :: t) :
    readAll s = (readStep letter t).bind fun p => (readAll p.2).map (p.1 ++ ·) := by
  rw [readAll]
  split
  · rename_i hs
    rw [h] at hs
    cases hs
  · rename_i letter' t' hs
    rw [h] at hs
    cases hs
    split
    · rename_i e hstep
      rw [hstep]
      rfl
    · rename_i cs r hstep
      rw [hstep]
      change _ = (readAll r).map (cs ++ ·)
      cases readAll r <;> rfl

/-- Reading stops before the first command with a number that is not finite. -/
lemma readAll_write (hs : Text.trimStart s = Text.trimStart (write cs).toList) :
    readAll s =
      match cs.dropWhile Command.isFinite with
      | [] => .ok (cs.map (Command.map Double.unsigned))
      | c :: cs' => .error ⟨.missingOperands c.letter, (write (c :: cs')).toList⟩ := by
  induction cs generalizing s with
  | nil => exact readAll_of_nil hs
  | cons c cs ih =>
    rw [toList_write_cons, trimStart_text] at hs
    by_cases hc : c.isFinite = true
    · have hnumbers : ∀ x ∈ c.numbers, x.isFinite = true := List.all_eq_true.mp hc
      obtain ⟨letter, t, r, htext, hstep, htrim⟩ :=
        (item_text hnumbers (avoids_write cs)).readStep (ends_write cs)
      rw [htext] at hs
      rw [readAll_eq_bind hs, hstep, Except.bind]
      simp only [ih htrim, List.dropWhile_cons_of_pos hc]
      cases cs.dropWhile Command.isFinite <;> rfl
    · have hc : c.isFinite = false := by simpa using hc
      have hstart : Text.trimStart s = c.letter ::
          ((" ".intercalate (c.operands.map Operand.text)).toList ++ (write cs).toList) := by
        rw [hs, toList_text]
        rfl
      rw [readAll_eq_bind hstart, readStep_of_not_isFinite hc, ← toList_write_cons,
        List.dropWhile_cons_of_neg (by simp [hc])]
      rfl

end Commands

/-- Commands of finite numbers are read back, but for the signs of zeros. Otherwise the first command
with another number lacks operands, and the fault lies where its text begins. -/
theorem read_write_cases (cs : List (Command Float)) :
    read (write cs) =
      match cs.dropWhile Command.isFinite with
      | [] => .ok (cs.map (Command.map Double.unsigned))
      | c :: _ =>
        .error ⟨.missingOperands c.letter,
          byteSize (write (cs.takeWhile Command.isFinite)).toList⟩ := by
  rw [read, readAll_write rfl]
  have hsplit := List.takeWhile_append_dropWhile (p := Command.isFinite) (l := cs)
  cases hdrop : cs.dropWhile Command.isFinite with
  | nil => rfl
  | cons c cs' =>
    rw [hdrop] at hsplit
    have hsize : byteSize (write cs).toList =
        byteSize (write (cs.takeWhile Command.isFinite)).toList +
          byteSize (write (c :: cs')).toList := by
      conv_lhs => rw [← hsplit, toList_write, List.flatMap_append]
      rw [Text.byteSize_append, ← toList_write, ← toList_write]
    simp only [hsize, Nat.add_sub_cancel]

end PathData

end Iconsmith
