import Iconsmith.Proofs.Xml.Values
import Mathlib.Tactic

/-!
# Tags read back

A name is read up to the first character that cannot stand in one, and a value up to its quote. So
tags are read as they are written: by their name and their settings, with any layout before each of
the settings.
-/

namespace Iconsmith.Xml

open Text (Avoids avoids_cons)

/-- A name as it is written, and the parts it is read as. -/
structure Named (name : List Char) (q : QName) : Prop where
  chars : ∀ c ∈ name, isNameChar c = true
  parts : qname? name = some q

/-- A word of letters that is no word for declarations. -/
def IsWord (name : String) : Prop :=
  name.toList ≠ [] ∧ (∀ c ∈ name.toList, c.isAlpha = true) ∧ name ≠ "xmlns"

instance (name : String) : Decidable (IsWord name) :=
  inferInstanceAs (Decidable (_ ∧ _))

/-- Settings as they stand in a tag, each with layout before it, and what they are read as. -/
inductive Settings : List Char → List (QName × List Char) → Prop
  | nil : Settings [] []
  | cons {gap name raw t : List Char} {q : QName} {rest : List (QName × List Char)} :
      gap ≠ [] → (∀ c ∈ gap, Text.isLayout c = true) → Named name q → IsQuotable raw →
      Settings t rest →
      Settings (gap ++ (name ++ '=' :: '"' :: (raw ++ '"' :: t))) ((q, raw) :: rest)

/-- The end of a start tag, which may be an end tag too. -/
def closing (empty : Bool) : List Char :=
  if empty then ['/', '>'] else ['>']

/-! ### Names -/

lemma Named.exists_cons {name : List Char} {q : QName} (h : Named name q) :
    ∃ c t, name = c :: t ∧ isNameChar c = true := by
  cases name with
  | nil =>
    have := h.parts
    contradiction
  | cons c t => exact ⟨c, t, rfl, h.chars c (by simp)⟩

lemma isNameStart_of_isAlpha {c : Char} (h : c.isAlpha = true) : isNameStart c = true := by
  simp [isNameStart, h]

lemma isNameChar_of_isAlpha {c : Char} (h : c.isAlpha = true) : isNameChar c = true := by
  simp [isNameChar, isNameStart_of_isAlpha h]

lemma IsWord.ne_colon {name : String} (h : IsWord name) {c : Char} (hc : c ∈ name.toList) :
    c ≠ ':' := by
  rintro rfl
  exact absurd (h.2.1 _ hc) (by decide)

lemma IsWord.not_mem_colon {name : String} (h : IsWord name) : ':' ∉ name.toList :=
  fun hc => h.ne_colon hc rfl

lemma IsWord.exists_take_one {name : String} (h : IsWord name) :
    ∃ c, name.toList.take 1 = [c] ∧ isNameStart c = true := by
  obtain ⟨c, u, hname⟩ := List.exists_cons_of_ne_nil h.1
  refine ⟨c, by simp [hname], isNameStart_of_isAlpha (h.2.1 c ?_)⟩
  simp [hname]

lemma IsWord.named {name : String} (h : IsWord name) : Named name.toList ⟨"", name⟩ := by
  refine ⟨fun c hc => isNameChar_of_isAlpha (h.2.1 c hc), ?_⟩
  have hin : ∀ c ∈ name.toList, (decide (c ≠ ':')) = true :=
    fun c hc => decide_eq_true (h.ne_colon hc)
  have hdrop := Text.dropWhile_append hin Text.avoids_nil
  obtain ⟨c, htake, hstart⟩ := h.exists_take_one
  rw [List.append_nil] at hdrop
  rw [qname?, hdrop]
  simp [h.not_mem_colon, htake, hstart]

lemma IsWord.named_qualified {qualifier name : String} (hqualifier : IsWord qualifier)
    (h : IsWord name) : Named (qualifier ++ ":" ++ name).toList ⟨qualifier, name⟩ := by
  have htext : (qualifier ++ ":" ++ name).toList = qualifier.toList ++ ':' :: name.toList := by
    simp
  rw [htext]
  refine ⟨fun c hc => ?_, ?_⟩
  · rcases List.mem_append.mp hc with hc | hc
    · exact isNameChar_of_isAlpha (hqualifier.2.1 c hc)
    · rcases List.mem_cons.mp hc with rfl | hc
      · decide
      · exact isNameChar_of_isAlpha (h.2.1 c hc)
  · have hin : ∀ c ∈ qualifier.toList, (decide (c ≠ ':')) = true :=
      fun c hc => decide_eq_true (hqualifier.ne_colon hc)
    have hout : Avoids (fun c => decide (c ≠ ':')) (':' :: name.toList) := avoids_cons (by decide)
    obtain ⟨c, htake, hstart⟩ := hqualifier.exists_take_one
    obtain ⟨d, htake', hstart'⟩ := h.exists_take_one
    rw [qname?, Text.takeWhile_append hin hout, Text.dropWhile_append hin hout]
    simp [h.not_mem_colon, htake, hstart, htake', hstart']

lemma not_isLayout_of_isNameChar {c : Char} (h : isNameChar c = true) : Text.isLayout c = false := by
  by_contra hl
  simp only [Text.isLayout, Bool.not_eq_false, Bool.or_eq_true, decide_eq_true_eq] at hl
  rcases hl with ((rfl | rfl) | rfl) | rfl <;> exact absurd h (by decide)

lemma not_isNameChar_of_isLayout {c : Char} (h : Text.isLayout c = true) : isNameChar c = false := by
  by_contra hn
  rw [not_isLayout_of_isNameChar (by simpa using hn)] at h
  contradiction

lemma readName?_append {name : List Char} {q : QName} (h : Named name q) {r : List Char}
    (hr : Avoids isNameChar r) : readName? (name ++ r) = some (q, r) := by
  rw [readName?, Text.takeWhile_append h.chars hr, Text.dropWhile_append h.chars hr, h.parts]
  rfl

/-! ### Settings -/

lemma readQuoted?_append {raw : List Char} (h : IsQuotable raw) (r : List Char) :
    readQuoted? ('"' :: (raw ++ '"' :: r)) = some (raw, r) := by
  have hin : ∀ c ∈ raw, (decide (c ≠ '"') && decide (c ≠ '<')) = true := by
    intro c hc
    obtain ⟨hquot, hlt, -⟩ := h c hc
    simp [hquot, hlt]
  have hout : Avoids (fun c => decide (c ≠ '"') && decide (c ≠ '<')) ('"' :: r) :=
    avoids_cons (by decide)
  have hall : raw.all isDocumentChar = true := by
    rw [List.all_eq_true]
    exact fun c hc => (h c hc).2.2
  simp only [readQuoted?, Text.takeWhile_append hin hout, Text.dropWhile_append hin hout, hall]
  rfl

lemma readSetting?_append {name raw : List Char} {q : QName} (h : Named name q)
    (hraw : IsQuotable raw) (r : List Char) :
    readSetting? (name ++ '=' :: '"' :: (raw ++ '"' :: r)) = some (q, raw, r) := by
  have hname := readName?_append (r := '=' :: '"' :: (raw ++ '"' :: r)) h (avoids_cons (by decide))
  rw [readSetting?, hname]
  have hequals : readEquals? ('=' :: '"' :: (raw ++ '"' :: r)) = some ('"' :: (raw ++ '"' :: r)) :=
    rfl
  simp [hequals, readQuoted?_append hraw r]

lemma Settings.append {s t : List Char} {as bs : List (QName × List Char)} (hs : Settings s as)
    (ht : Settings t bs) : Settings (s ++ t) (as ++ bs) := by
  induction hs with
  | nil => exact ht
  | cons hgap hlayout hname hraw _ ih =>
    simp only [List.append_assoc, List.cons_append]
    exact .cons hgap hlayout hname hraw ih

lemma Settings.indent {s t : List Char} {a : QName × List Char} {as : List (QName × List Char)}
    (hs : ∀ c ∈ s, Text.isLayout c = true) (ht : Settings t (a :: as)) :
    Settings (s ++ t) (a :: as) := by
  cases ht with
  | @cons gap _ _ _ _ _ hgap hlayout hname hraw hrest =>
    rw [← List.append_assoc]
    refine .cons (List.append_ne_nil_of_right_ne_nil s hgap) (fun c hc => ?_) hname hraw hrest
    rcases List.mem_append.mp hc with hc | hc
    · exact hs c hc
    · exact hlayout c hc

lemma Settings.avoids {t : List Char} {as : List (QName × List Char)} (h : Settings t as)
    (empty : Bool) (r : List Char) : Avoids isNameChar (t ++ (closing empty ++ r)) := by
  cases h with
  | nil => cases empty <;> exact avoids_cons (by decide)
  | cons hgap hlayout _ _ _ =>
    obtain ⟨c, gap, rfl⟩ := List.exists_cons_of_ne_nil hgap
    exact avoids_cons (not_isNameChar_of_isLayout (hlayout c (by simp)))

lemma readAttributes?_append {t : List Char} {as : List (QName × List Char)} (h : Settings t as)
    (empty : Bool) (r : List Char) :
    Token.readAttributes? (t ++ (closing empty ++ r)) = some (as, empty, r) := by
  induction h with
  | nil =>
    rw [Token.readAttributes?]
    cases empty <;> rfl
  | @cons gap name raw t q rest hgap hlayout hname hraw _ ih =>
    obtain ⟨c, u, rfl, hc⟩ := hname.exists_cons
    have hskip : skipLayout (gap ++ ((c :: u) ++ '=' :: '"' :: (raw ++ '"' :: t)) ++
        (closing empty ++ r)) = (c :: u) ++ '=' :: '"' :: (raw ++ '"' :: (t ++ (closing empty ++ r))) := by
      have hout : Avoids Text.isLayout
          (c :: (u ++ '=' :: '"' :: (raw ++ '"' :: (t ++ (closing empty ++ r))))) :=
        avoids_cons (not_isLayout_of_isNameChar hc)
      have := Text.dropWhile_append hlayout hout
      simpa [skipLayout] using this
    have hread := readSetting?_append hname hraw (t ++ (closing empty ++ r))
    have hstart : ((gap ++ ((c :: u) ++ '=' :: '"' :: (raw ++ '"' :: t)) ++
        (closing empty ++ r)).take 1).any Text.isLayout = true := by
      obtain ⟨d, gap, rfl⟩ := List.exists_cons_of_ne_nil hgap
      simp [hlayout d (by simp)]
    rw [Token.readAttributes?]
    split
    · rename_i v hv
      rw [hskip] at hv
      obtain ⟨rfl, -⟩ := List.cons.inj hv
      exact absurd hc (by decide)
    · rename_i v hv
      rw [hskip] at hv
      obtain ⟨rfl, -⟩ := List.cons.inj hv
      exact absurd hc (by decide)
    · rw [if_pos hstart]
      split
      · rename_i hnone
        rw [hskip, hread] at hnone
        contradiction
      · rename_i q' raw' v hsome
        rw [hskip, hread] at hsome
        cases hsome
        rw [ih]
        rfl

/-! ### Tokens -/

lemma readAll?_cons {c : Char} {s r : List Char} {t : Token}
    (h : Token.read? (c :: s) = some (t, r)) :
    Token.readAll? (c :: s) = (Token.readAll? r).map (t :: ·) := by
  rw [Token.readAll?]
  split
  · rename_i hnone
    rw [h] at hnone
    contradiction
  · rename_i t' r' hsome
    rw [h] at hsome
    cases hsome
    cases Token.readAll? r <;> rfl

theorem readAll?_startTag {tag t : List Char} {q : QName} {as : List (QName × List Char)}
    (htag : Named tag q) (ht : Settings t as) (empty : Bool) (r : List Char) :
    Token.readAll? ('<' :: (tag ++ (t ++ (closing empty ++ r)))) =
      (Token.readAll? r).map (.startTag q as empty :: ·) := by
  apply readAll?_cons
  have hread : Token.readStartTag? (tag ++ (t ++ (closing empty ++ r))) =
      some (.startTag q as empty, r) := by
    rw [Token.readStartTag?, readName?_append htag (ht.avoids empty r)]
    simp [readAttributes?_append ht empty r]
  obtain ⟨c, u, rfl, hc⟩ := htag.exists_cons
  rw [← hread]
  apply Token.read?.eq_5
  all_goals
    intro v hv
    obtain ⟨rfl, -⟩ := List.cons.inj hv
    exact absurd hc (by decide)

theorem readAll?_endTag {tag : List Char} {q : QName} (htag : Named tag q) (r : List Char) :
    Token.readAll? ('<' :: '/' :: (tag ++ '>' :: r)) = (Token.readAll? r).map (.endTag q :: ·) := by
  apply readAll?_cons
  have hname := readName?_append (r := '>' :: r) htag (avoids_cons (by decide))
  have hskip : skipLayout ('>' :: r) = '>' :: r := rfl
  rw [Token.read?, Token.readEndTag?, hname]
  simp [hskip]

lemma occurs_eq_false {c : Char} {mark s : List Char} (h : c ∉ s) : occurs (c :: mark) s = false := by
  rw [occurs]
  induction s with
  | nil => rfl
  | cons d s ih =>
    rw [List.mem_cons, not_or] at h
    have hdrop : Text.dropLeading? (c :: mark) (d :: s) = none := if_neg h.1
    rw [breakAt?, hdrop, Option.isSome_map, ih h.2]

theorem readAll?_layout {gap r : List Char} (hgap : gap ≠ [])
    (hlayout : ∀ c ∈ gap, Text.isLayout c = true) (hr : Avoids (fun c => decide (c ≠ '<')) r) :
    Token.readAll? (gap ++ r) = (Token.readAll? r).map (.text gap :: ·) := by
  have hin : ∀ c ∈ gap, (decide (c ≠ '<')) = true := by
    rintro c hc
    rw [decide_eq_true_eq]
    rintro rfl
    exact absurd (hlayout _ hc) (by decide)
  have hmark : occurs "]]>".toList gap = false :=
    occurs_eq_false fun hc => absurd (hlayout _ hc) (by decide)
  have hall : gap.all isDocumentChar = true := by
    rw [List.all_eq_true]
    intro c hc
    have := hlayout c hc
    simp only [Text.isLayout, Bool.or_eq_true, decide_eq_true_eq] at this
    rcases this with ((rfl | rfl) | rfl) | rfl <;> decide
  have hread : Token.readPlain? (gap ++ r) = some (.text gap, r) := by
    simp only [Token.readPlain?, Text.takeWhile_append hin hr, Text.dropWhile_append hin hr,
      hmark, hall]
    rfl
  obtain ⟨c, u, rfl⟩ := List.exists_cons_of_ne_nil hgap
  apply readAll?_cons
  rw [← hread]
  have hc : c ≠ '<' := by
    rintro rfl
    exact absurd (hlayout '<' (by simp)) (by decide)
  exact Token.read?.eq_6 c _ (fun v h _ => hc h) (fun v h _ => hc h) (fun v h _ => hc h) hc

end Iconsmith.Xml
