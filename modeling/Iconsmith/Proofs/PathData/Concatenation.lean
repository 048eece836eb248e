import Iconsmith.Proofs.PathData.Grammar

/-!
# Path data put one behind the other

Each rule of the grammar also holds with a text behind what it leaves over, unless the text could go on
with a numeral. Path data begins with a blank or with the letter of a command, neither of which is a
character of numerals. So two pieces of path data, put one behind the other, are read as the commands of
the first and then those of the second.
-/

namespace Iconsmith

open Text (Avoids)

/-- A numeral does not go on into a text that begins with a character of no numeral. -/
lemma Numeral.Longest.append {s r u : List Char} {n : Numeral} (h : Longest s n r)
    (hu : Avoids isNumeralChar u) : Longest (s ++ u) n (r ++ u) := by
  obtain ⟨t, rfl, ht, hmax⟩ := h
  refine ⟨t, List.append_assoc t r u, ht, fun t' r' n' hsplit ht' => ?_⟩
  rcases List.append_eq_append_iff.mp hsplit with ⟨v, htext, hbehind⟩ | ⟨v, htext, -⟩
  · -- the spelling reaches past the first text by `v`, where it could only find a character of `u`
    cases v with
    | nil =>
      rw [List.append_nil] at htext
      exact hmax t' [] n' (by rw [htext, List.append_nil]) ht'
    | cons c v =>
      have hchar := ht'.isNumeralChar_of_mem (c := c) (by simp [htext])
      rw [hu c (by simp [hbehind])] at hchar
      contradiction
  · exact hmax t' v n' htext ht'

namespace PathData

open Numeral (isNumeralChar)

section Appending

variable {s r u : List Char}

lemma Skips.append {p : Char → Bool} (h : Skips p s r) (u : List Char) :
    Skips p (s ++ u) (r ++ u) := by
  obtain ⟨t, rfl, ht⟩ := h
  exact ⟨t, List.append_assoc t r u, ht⟩

lemma Separator.append (h : Separator s r) (u : List Char) : Separator (s ++ u) (r ++ u) := by
  cases h with
  | blanks h => exact .blanks (h.append u)
  | comma h₁ h₂ => exact .comma (h₁.append u) (h₂.append u)

variable (hu : Avoids isNumeralChar u)

include hu

lemma Argument.append {kind : Operand.Kind} {a : Operand Float} (h : Argument kind s a r) :
    Argument kind (s ++ u) a (r ++ u) := by
  cases h with
  | number h => exact .number (h.append hu)
  | off => exact .off
  | on => exact .on

lemma Group.append {kinds : List Operand.Kind} {as : List (Operand Float)}
    (h : Group kinds s as r) : Group kinds (s ++ u) as (r ++ u) := by
  induction h with
  | last ha => exact .last (ha.append hu)
  | more ha hsep _ ih => exact .more (ha.append hu) (hsep.append u) ih

lemma Repeats.append {v : Verb} {relative : Bool} {cs : List (Command Float)}
    (h : Repeats v relative s cs r) : Repeats v relative (s ++ u) cs (r ++ u) := by
  induction h with
  | done hsep => exact .done (hsep.append u)
  | more hsep hg hc _ ih => exact .more (hsep.append u) (hg.append hu) hc ih

lemma Item.append {cs : List (Command Float)} (h : Item s cs r) : Item (s ++ u) cs (r ++ u) := by
  cases h with
  | close => exact .close
  | drawn hclose hskip hg hc hrepeats =>
    exact .drawn hclose (hskip.append u) (hg.append hu) hc (hrepeats.append hu)

end Appending

/-! ### Where path data begins -/

lemma isNumeralChar_letterOf (v : Verb) (relative : Bool) :
    isNumeralChar (letterOf v relative) = false := by
  cases v <;> cases relative <;> decide

lemma isNumeralChar_of_isBlank {c : Char} (h : Text.isBlank c = true) :
    isNumeralChar c = false := by
  by_contra hchar
  simp only [Bool.not_eq_false, isNumeralChar, Numeral.continues, Bool.or_eq_true,
    decide_eq_true_eq] at hchar
  have hstart (hc : c.isDigit = true ∨ c = '.' ∨ c = '-' ∨ c = '+') : False := by
    rw [(isBlank_of_startsNumeral hc).1] at h
    contradiction
  rcases hchar with ((((hdigit | rfl) | rfl) | rfl) | rfl) | rfl
  · exact hstart (.inl hdigit)
  all_goals exact absurd h (by decide)

variable {s t : List Char} {a b : List (Command Float)}

lemma Skips.avoids_isNumeralChar (hskip : Skips Text.isBlank s t)
    (ht : Avoids isNumeralChar t) : Avoids isNumeralChar s := by
  obtain ⟨w, rfl, hw⟩ := hskip
  cases w with
  | nil => exact ht
  | cons c w => exact Text.avoids_cons (isNumeralChar_of_isBlank (hw c (by simp)))

/-- Path data does not go on with a numeral that stands before it. -/
lemma Commands.avoids_isNumeralChar (h : Commands s a) : Avoids isNumeralChar s := by
  cases h with
  | done hskip => exact hskip.avoids_isNumeralChar Text.avoids_nil
  | item hskip hitem _ =>
    obtain ⟨v, relative, w, rfl⟩ := hitem.exists_letter
    exact hskip.avoids_isNumeralChar (Text.avoids_cons (isNumeralChar_letterOf v relative))

/-- The commands of a text are followed by those of the text behind it. -/
lemma Commands.append (hs : Commands s a) (ht : Commands t b) : Commands (s ++ t) (a ++ b) := by
  induction hs with
  | done hskip => exact ht.of_skips (hskip.append t)
  | item hskip hitem _ ih =>
    rw [List.append_assoc]
    exact .item (hskip.append t) (hitem.append ht.avoids_isNumeralChar) ih

/-- Two pieces of path data can be put one behind the other: nothing of the second is taken for a part of
the last command of the first. -/
theorem read_append {s t : String} {a b : List (Command Float)} (hs : read s = .ok a)
    (ht : read t = .ok b) : read (s ++ t) = .ok (a ++ b) := by
  have hcommands := (commands_of_read hs).append (commands_of_read ht)
  rw [← String.toList_append] at hcommands
  exact read_of_commands hcommands

/-- A text that ends with a point and a comma, before one that begins with a wide space. -/
theorem read_append_packed :
    ∃ a b, read "M1 2.," = .ok a ∧ read "\u2003l.5-3e1 4 5z" = .ok b ∧
      a.length = 1 ∧ b.length = 3 ∧ read ("M1 2.," ++ "\u2003l.5-3e1 4 5z") = .ok (a ++ b) := by
  have hfirst : (read "M1 2.,").toOption.map List.length = some 1 := by decide +kernel
  have hsecond : (read "\u2003l.5-3e1 4 5z").toOption.map List.length = some 3 := by decide +kernel
  obtain ⟨a, ha, hone⟩ := Option.map_eq_some_iff.mp hfirst
  obtain ⟨b, hb, hthree⟩ := Option.map_eq_some_iff.mp hsecond
  have hs := toOption_eq_some.mp ha
  have ht := toOption_eq_some.mp hb
  exact ⟨a, b, hs, ht, hone, hthree, read_append hs ht⟩

end PathData

end Iconsmith
