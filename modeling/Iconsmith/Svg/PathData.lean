import Iconsmith.Graphic.Command
import Iconsmith.Svg.Measure

/-!
# Path data in SVG documents

Path data begins with a move. What is wrong with it ends it: the commands before the first fault are
drawn, and the rest is not.
-/

namespace Iconsmith.Svg.PathData

/-- The operand at the start of a text. -/
def readOperand? : Operand.Kind → List Char → Option (Operand Float × List Char)
  | .number, s => (readItem? s).map fun (x, r) => (.number x, r)
  | .flag, s =>
    match s.dropWhile Text.isLayout with
    | '0' :: r => some (.flag false, afterItem r)
    | '1' :: r => some (.flag true, afterItem r)
    | _ => none

/-- Operands of the given kinds, and the rest. -/
def readOperands? : List Operand.Kind → List Char → Option (List (Operand Float) × List Char)
  | [], s => some ([], s)
  | kind :: kinds, s => do
    let (a, r) ← readOperand? kind s
    let (as, r) ← readOperands? kinds r
    return (a :: as, r)

/-- The command that a verb and the operands at the start of a text make, and the rest. -/
def readCommand? (v : Verb) (relative : Bool) (s : List Char) :
    Option (Command Float × List Char) := do
  let (operands, r) ← readOperands? v.operands s
  return (← v.command? relative operands, r)

theorem length_readOperand?_lt {kind : Operand.Kind} {s r : List Char} {a : Operand Float}
    (h : readOperand? kind s = some (a, r)) : r.length < s.length := by
  cases kind with
  | number =>
    simp only [readOperand?, Option.map_eq_some_iff, Prod.mk.injEq, Prod.exists] at h
    obtain ⟨x, t, hx, -, rfl⟩ := h
    exact length_readItem?_lt hx
  | flag =>
    have hs := (List.dropWhile_sublist Text.isLayout (l := s)).length_le
    simp only [readOperand?] at h
    split at h
    all_goals first | contradiction | skip
    all_goals
      rename_i t ht
      simp only [Option.some.injEq, Prod.mk.injEq] at h
      obtain ⟨-, rfl⟩ := h
      have := length_afterItem_le t
      rw [ht] at hs
      simp only [List.length_cons] at hs
      omega

theorem length_readOperands?_le {kinds : List Operand.Kind} {s r : List Char}
    {as : List (Operand Float)} (h : readOperands? kinds s = some (as, r)) :
    r.length + kinds.length ≤ s.length := by
  induction kinds generalizing s as r with
  | nil =>
    simp only [readOperands?, Option.some.injEq, Prod.mk.injEq] at h
    simp [h.2]
  | cons kind kinds ih =>
    simp only [readOperands?, Option.bind_eq_bind, Option.bind_eq_some_iff, Option.pure_def,
      Option.some.injEq, Prod.mk.injEq, Prod.exists] at h
    obtain ⟨a, t, ha, as', u, has, -, rfl⟩ := h
    have h₁ := length_readOperand?_lt ha
    have h₂ := ih has
    simp only [List.length_cons]
    omega

theorem length_readCommand?_le {v : Verb} {relative : Bool} {s r : List Char} {c : Command Float}
    (h : readCommand? v relative s = some (c, r)) : r.length + v.operands.length ≤ s.length := by
  simp only [readCommand?, Option.bind_eq_bind, Option.bind_eq_some_iff, Option.pure_def,
    Option.some.injEq, Prod.mk.injEq, Prod.exists] at h
  obtain ⟨as, t, has, _, _, -, rfl⟩ := h
  exact length_readOperands?_le has

theorem operands_length_pos {v : Verb} (h : v ≠ .close) : 0 < v.operands.length := by
  cases v <;> first | contradiction | decide

/-- The commands before the first fault of a text. `last` is the verb and the mode that a further
group of operands repeats, once there was a command. -/
def readAll (last : Option (Verb × Bool)) (s : List Char) : List (Command Float) :=
  match _hs : s.dropWhile Text.isLayout with
  | [] => []
  | c :: t =>
    match Verb.ofLetter? c, last with
    | none, none => []
    | none, some (v, relative) =>
      if _hv : v = .close then []
      else
        match _h : readCommand? v relative (c :: t) with
        | none => []
        | some (command, r) => command :: readAll last r
    | some v, _ =>
      if last.isNone && v ≠ .move then []
      else
        match _h : readCommand? v c.isLower t with
        | none => []
        | some (command, r) => command :: readAll (some (v.repeated, c.isLower)) r
termination_by s.length
decreasing_by
  all_goals
    have h₁ := length_readCommand?_le _h
    have h₂ := (List.dropWhile_sublist Text.isLayout (l := s)).length_le
    rw [_hs] at h₂
    first
      | have h₃ := operands_length_pos _hv; omega
      | simp only [List.length_cons] at h₂; omega

/-- The commands of a piece of path data. -/
def read (text : String) : List (Command Float) :=
  readAll none text.toList

end Iconsmith.Svg.PathData
