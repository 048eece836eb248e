import Iconsmith.Decimal.Numeral
import Iconsmith.Graphic.Command
import Iconsmith.Text.Letter

/-!
# Reading path data

Path data is a sequence of command letters, each with one or more groups of operands. A further
group repeats the command, except that a move is repeated as a line. Operands and groups are kept
apart by blanks with at most one comma, or by nothing where the next one begins.

`PathData.read` gives the commands, or the first `Fault` with the byte at which it lies.
-/

namespace Iconsmith.PathData

/-- What is wrong with a piece of path data. -/
inductive Fault where
  /-- A letter that is no command. -/
  | unknownCommand (letter : Char)
  /-- A group of operands that is cut short. -/
  | missingOperands (letter : Char)
  /-- Something else than a letter in the place of a command. -/
  | unexpected (found : String)
  deriving DecidableEq, Repr

/-- A fault and the number of bytes before it. -/
structure Error where
  fault : Fault
  offset : Nat
  deriving DecidableEq, Repr

/-- The message of a fault. -/
def Error.message (e : Error) : String :=
  match e.fault with
  | .unknownCommand c => s!"unknown path command '{c}' at offset {e.offset}"
  | .missingOperands c => s!"path command '{c}' at offset {e.offset} is missing operands"
  | .unexpected found => s!"unexpected path data '{found}' at offset {e.offset}"

/-- A fault with the text that was still to be read there. -/
structure Stop where
  fault : Fault
  rest : List Char
  deriving DecidableEq, Repr

/-! ### Operands -/

/-- Drops layout with at most one comma in it. -/
def skipSeparator (s : List Char) : List Char :=
  match s.dropWhile Text.isLayout with
  | ',' :: r => r.dropWhile Text.isLayout
  | r => r

/-- A flag is a single digit. -/
def readFlag? : List Char → Option (Bool × List Char)
  | '0' :: s => some (false, s)
  | '1' :: s => some (true, s)
  | _ => none

/-- Reads one operand of a given kind. -/
def readOperand? : Operand.Kind → List Char → Option (Operand Float × List Char)
  | .number, s => do
    let (n, r) ← Numeral.read? s
    return (.number n.toFloat, r)
  | .flag, s => do
    let (on, r) ← readFlag? s
    return (.flag on, r)

/-- Reads a group of operands; a group has at least one. -/
def readGroup? : List Operand.Kind → List Char → Option (List (Operand Float) × List Char)
  | [], _ => none
  | [kind], s => do
    let (a, r) ← readOperand? kind s
    return ([a], r)
  | kind :: kinds, s => do
    let (a, r) ← readOperand? kind s
    let (as, r) ← readGroup? kinds (skipSeparator r)
    return (a :: as, r)

/-- Reads the operands of a verb and makes the command, under another verb when it is repeated. -/
def readCommand? (v made : Verb) (relative : Bool) (s : List Char) :
    Option (Command Float × List Char) := do
  let (operands, r) ← readGroup? v.operands s
  let c ← made.command? relative operands
  return (c, r)

/-! ### What is read gets shorter -/

theorem length_skipSeparator_le (s : List Char) : (skipSeparator s).length ≤ s.length := by
  have h := (List.dropWhile_sublist Text.isLayout (l := s)).length_le
  unfold skipSeparator
  split
  · rename_i r heq
    have h' := (List.dropWhile_sublist Text.isLayout (l := r)).length_le
    rw [heq] at h
    simp only [List.length_cons] at h
    omega
  · exact h

theorem length_readOperand?_lt {kind : Operand.Kind} {s r : List Char} {a : Operand Float}
    (h : readOperand? kind s = some (a, r)) : r.length < s.length := by
  cases kind with
  | number =>
    simp only [readOperand?, Option.bind_eq_bind, Option.bind_eq_some_iff, Option.pure_def,
      Option.some.injEq, Prod.mk.injEq, Prod.exists] at h
    obtain ⟨n, t, hn, -, rfl⟩ := h
    exact Numeral.length_read?_lt hn
  | flag =>
    simp only [readOperand?, Option.bind_eq_bind, Option.bind_eq_some_iff, Option.pure_def,
      Option.some.injEq, Prod.mk.injEq, Prod.exists] at h
    obtain ⟨on, t, hf, -, rfl⟩ := h
    unfold readFlag? at hf
    split at hf <;> simp_all

theorem length_readGroup?_lt {kinds : List Operand.Kind} {s r : List Char}
    {as : List (Operand Float)} (h : readGroup? kinds s = some (as, r)) : r.length < s.length := by
  fun_induction readGroup? kinds s generalizing as r with
  | case1 => contradiction
  | case2 kind s =>
    simp only [Option.bind_eq_bind, Option.bind_eq_some_iff, Option.pure_def, Option.some.injEq,
      Prod.mk.injEq, Prod.exists] at h
    obtain ⟨a, t, ha, -, rfl⟩ := h
    exact length_readOperand?_lt ha
  | case3 kind kinds s _ ih =>
    simp only [Option.bind_eq_bind, Option.bind_eq_some_iff, Option.pure_def, Option.some.injEq,
      Prod.mk.injEq, Prod.exists] at h
    obtain ⟨a, t, ha, as', t', has, -, rfl⟩ := h
    have h₁ := length_readOperand?_lt ha
    have h₂ := length_skipSeparator_le t
    have h₃ := ih t has
    omega

theorem length_readCommand?_lt {v made : Verb} {relative : Bool} {s r : List Char}
    {c : Command Float} (h : readCommand? v made relative s = some (c, r)) :
    r.length < s.length := by
  simp only [readCommand?, Option.bind_eq_bind, Option.bind_eq_some_iff, Option.pure_def,
    Option.some.injEq, Prod.mk.injEq, Prod.exists] at h
  obtain ⟨as, t, hg, _, _, -, rfl⟩ := h
  exact length_readGroup?_lt hg

/-! ### Commands -/

/-- Reads the groups that repeat a command, and the separator after the last one. -/
def readRepeats (v : Verb) (letter : Char) (s : List Char) :
    Except Stop (List (Command Float) × List Char) :=
  let s' := skipSeparator s
  if Numeral.startsNumeral s' then
    match _h : readCommand? v v.repeated letter.isLower s' with
    | none => .error ⟨.missingOperands letter, s'⟩
    | some (c, r) => do
      let (cs, r) ← readRepeats v letter r
      return (c :: cs, r)
  else return ([], s')
termination_by s.length
decreasing_by
  have h₁ := length_readCommand?_lt _h
  have h₂ := length_skipSeparator_le s
  exact Nat.lt_of_lt_of_le h₁ h₂

/-- Reads what follows a command letter: nothing after a close, and otherwise one group of
operands and those that repeat it. `start` is the text from the letter on. -/
def readOperands (v : Verb) (letter : Char) (start s : List Char) :
    Except Stop (List (Command Float) × List Char) :=
  if v = .close then return ([.close], s)
  else
    match readCommand? v v letter.isLower (Text.trimStart s) with
    | none => .error ⟨.missingOperands letter, start⟩
    | some (c, r) => do
      let (cs, r) ← readRepeats v letter r
      return (c :: cs, r)

/-- Reads a command letter and everything that belongs to it. -/
def readStep (letter : Char) (s : List Char) : Except Stop (List (Command Float) × List Char) :=
  if !Text.isLetter letter then
    .error ⟨.unexpected (String.ofList ((letter :: s).take 12)), letter :: s⟩
  else
    match Verb.ofLetter? letter with
    | none => .error ⟨.unknownCommand letter, letter :: s⟩
    | some v => readOperands v letter (letter :: s) s

theorem length_readRepeats_le {v : Verb} {letter : Char} {s r : List Char}
    {cs : List (Command Float)} (h : readRepeats v letter s = .ok (cs, r)) :
    r.length ≤ s.length := by
  induction hn : s.length using Nat.strongRecOn generalizing s cs r with
  | ind n ih =>
    unfold readRepeats at h
    have hs := length_skipSeparator_le s
    simp only at h
    split at h
    · split at h
      · contradiction
      · rename_i c t hc
        have ht := length_readCommand?_lt hc
        cases hr : readRepeats v letter t with
        | error e => simp [hr, bind, Except.bind] at h
        | ok x =>
          obtain ⟨xs, u⟩ := x
          simp only [hr, bind, Except.bind, pure, Except.pure, Except.ok.injEq,
            Prod.mk.injEq] at h
          obtain ⟨-, rfl⟩ := h
          have := ih t.length (by omega) hr rfl
          omega
    · simp only [pure, Except.pure, Except.ok.injEq, Prod.mk.injEq] at h
      obtain ⟨-, rfl⟩ := h
      omega

theorem length_readStep_le {letter : Char} {s r : List Char} {cs : List (Command Float)}
    (h : readStep letter s = .ok (cs, r)) : r.length ≤ s.length := by
  unfold readStep at h
  split at h
  · contradiction
  · split at h
    · contradiction
    · rename_i v _
      unfold readOperands at h
      split at h
      · simp only [pure, Except.pure, Except.ok.injEq, Prod.mk.injEq] at h
        simp [← h.2]
      · split at h
        · contradiction
        · rename_i c t hc
          have h₁ := length_readCommand?_lt hc
          have h₂ := Text.length_trimStart_le s
          cases hr : readRepeats v letter t with
          | error e => simp [hr, bind, Except.bind] at h
          | ok x =>
            obtain ⟨xs, u⟩ := x
            simp only [hr, bind, Except.bind, pure, Except.pure, Except.ok.injEq,
              Prod.mk.injEq] at h
            obtain ⟨-, rfl⟩ := h
            have := length_readRepeats_le hr
            omega

/-- Reads all commands of a text, or stops at its first fault. -/
def readAll (s : List Char) : Except Stop (List (Command Float)) :=
  match _hs : Text.trimStart s with
  | [] => return []
  | letter :: t =>
    match _h : readStep letter t with
    | .error e => .error e
    | .ok (cs, r) => do
      let more ← readAll r
      return cs ++ more
termination_by s.length
decreasing_by
  have h₁ := length_readStep_le _h
  have h₂ := Text.length_trimStart_le s
  rw [_hs] at h₂
  exact Nat.lt_of_le_of_lt h₁ h₂

/-- The commands of a piece of path data. -/
def read (s : String) : Except Error (List (Command Float)) :=
  match readAll s.toList with
  | .ok cs => .ok cs
  | .error stop => .error ⟨stop.fault, Text.byteSize s.toList - Text.byteSize stop.rest⟩

end Iconsmith.PathData
