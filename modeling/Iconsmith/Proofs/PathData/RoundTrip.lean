import Iconsmith.PathData.Writer
import Iconsmith.Proofs.Decimal.ReadBack
import Iconsmith.Proofs.Graphic.Numbers
import Iconsmith.Proofs.PathData.Grammar
import Mathlib.Tactic

/-!
# Path data read back

What is written for a list of commands follows the grammar: every command is an item of its own, with
a space between any two operands. So it is read back as the same commands.
-/

namespace Iconsmith

open Numeral (continues)
open Text (Avoids)

lemma Operand.argument_text {a : Operand Float} (ha : ∀ x, a = .number x → x.isFinite = true)
    {r : List Char} (hr : Avoids continues r) :
    PathData.Argument a.kind (a.text.toList ++ r) (a.map Double.unsigned) r := by
  cases a with
  | number x =>
    obtain ⟨n, hspells, hvalue⟩ := Decimal.spells_unsignedZero (ha x rfl)
    have hread := Numeral.read?_append hspells hr
    rw [Operand.map, ← hvalue]
    exact .number (Numeral.read?_eq_some_iff.mp hread)
  | flag on =>
    cases on with
    | false => exact .off
    | true => exact .on

namespace PathData

/-! ### Characters of texts -/

/-- The texts of operands, with a space between any two. -/
lemma toList_intercalate_cons_cons (a b : Operand Float) (as : List (Operand Float)) :
    (" ".intercalate ((a :: b :: as).map Operand.text)).toList =
      a.text.toList ++ ' ' :: (" ".intercalate ((b :: as).map Operand.text)).toList := by
  rw [List.map_cons, List.map_cons, String.intercalate_cons_cons]
  simp

lemma toList_text (c : Command Float) :
    c.text.toList =
      letterOf c.verb c.isRelative :: (" ".intercalate (c.operands.map Operand.text)).toList := by
  rw [Command.text]
  simp
  rfl

lemma toList_write (cs : List (Command Float)) :
    (write cs).toList = cs.flatMap fun c => c.text.toList := by
  rw [write, String.toList_join, List.flatMap_map]

lemma toList_write_cons (c : Command Float) (cs : List (Command Float)) :
    (write (c :: cs)).toList = c.text.toList ++ (write cs).toList := by
  rw [toList_write, toList_write, List.flatMap_cons]

lemma avoids_letterOf (v : Verb) (relative : Bool) (r : List Char) :
    Avoids continues (letterOf v relative :: r) := by
  rintro _ ⟨⟩
  cases v <;> cases relative <;> decide

lemma avoids_write (cs : List (Command Float)) :
    Avoids Numeral.continues (write cs).toList := by
  cases cs with
  | nil => nofun
  | cons c cs =>
    rw [toList_write_cons, toList_text]
    exact avoids_letterOf c.verb c.isRelative _

/-! ### What is read -/

lemma group_text {as : List (Operand Float)} (hne : as ≠ [])
    (has : ∀ x, .number x ∈ as → x.isFinite = true) {r : List Char} (hr : Avoids continues r) :
    Group (as.map Operand.kind) ((" ".intercalate (as.map Operand.text)).toList ++ r)
      (as.map (Operand.map Double.unsigned)) r := by
  induction as with
  | nil => contradiction
  | cons a as ih =>
    have ha : ∀ x, a = .number x → x.isFinite = true := by
      rintro x rfl
      exact has x (by simp)
    cases as with
    | nil =>
      simp only [List.map_cons, List.map_nil, String.intercalate_singleton]
      exact .last (Operand.argument_text ha hr)
    | cons b as =>
      have hrest := ih (List.cons_ne_nil b as) fun x hx => has x (List.mem_cons_of_mem a hx)
      have hspace : Avoids continues
          (' ' :: ((" ".intercalate ((b :: as).map Operand.text)).toList ++ r)) := by
        rintro _ ⟨⟩
        rfl
      have hfirst := Operand.argument_text ha hspace
      rw [toList_intercalate_cons_cons, List.append_assoc, List.cons_append]
      refine .more hfirst (.blanks ⟨[' '], rfl, ?_⟩) hrest
      decide

lemma item_text {c : Command Float} (hc : ∀ x ∈ c.numbers, x.isFinite = true) {r : List Char}
    (hr : Avoids continues r) :
    Item (c.text.toList ++ r) [c.map Double.unsigned] r := by
  rw [toList_text, List.cons_append]
  by_cases hclose : c = .close
  · subst hclose
    exact .close
  · have hgroup := group_text (mt Command.operands_eq_nil_iff.mp hclose)
      (fun x hx => hc x (Command.mem_numbers.mpr hx)) hr
    rw [← Command.operands_verb] at hgroup
    have hmade := Command.command?_operands (c.map Double.unsigned)
    rw [Command.verb_map, Command.isRelative_map, Command.operands_map] at hmade
    have hverb : c.verb ≠ .close := by
      intro hverb
      apply hclose
      cases c <;> first | rfl | contradiction
    exact .drawn hverb ⟨[], rfl, nofun⟩ hgroup hmade (.done (.blanks ⟨[], rfl, nofun⟩))

theorem commands_write {cs : List (Command Float)}
    (hcs : ∀ c ∈ cs, ∀ x ∈ c.numbers, x.isFinite = true) :
    Commands (write cs).toList (cs.map (Command.map Double.unsigned)) := by
  induction cs with
  | nil => exact .done ⟨[], rfl, nofun⟩
  | cons c cs ih =>
    have hrest := ih fun c' hc' => hcs c' (List.mem_cons_of_mem c hc')
    rw [toList_write_cons]
    exact .item ⟨[], rfl, nofun⟩ (item_text (hcs c (by simp)) (avoids_write cs)) hrest

/-- Commands of finite numbers are read back, but for the signs of zeros. -/
theorem read_write {cs : List (Command Float)}
    (hcs : ∀ c ∈ cs, ∀ x ∈ c.numbers, x.isFinite = true) :
    read (write cs) = .ok (cs.map (Command.map Double.unsigned)) :=
  read_of_commands (commands_write hcs)

end PathData

end Iconsmith
