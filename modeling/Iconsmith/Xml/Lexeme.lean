import Iconsmith.Xml.Reference

/-!
# Names, values and remarks

The parts that tags and declarations are made of, each with what it leaves of a text. Comments and
processing instructions mean nothing and are skipped.
-/

namespace Iconsmith.Xml

/-- A name as it is written, with a possibly empty qualifier before the colon. -/
structure QName where
  qualifier : String
  name : String
  deriving DecidableEq, Repr

/-- Drops leading layout. -/
def skipLayout (s : List Char) : List Char :=
  s.dropWhile Text.isLayout

/-- Splits a text at the first occurrence of a mark, which belongs to neither part. -/
def breakAt? (mark : List Char) : List Char → Option (List Char × List Char)
  | [] => none
  | c :: s =>
    match Text.dropLeading? mark (c :: s) with
    | some r => some ([], r)
    | none => (breakAt? mark s).map fun (before, after) => (c :: before, after)

/-- Whether a mark occurs in a text. -/
def occurs (mark s : List Char) : Bool :=
  (breakAt? mark s).isSome

/-! ### Names, values and attributes -/

/-- Splits a name at its colon, of which there may be only one. Both parts begin like names, and
only the qualifier may be empty. -/
def qname? (s : List Char) : Option QName :=
  let (qualifier, name) :=
    match s.dropWhile (· ≠ ':') with
    | _ :: name => (s.takeWhile (· ≠ ':'), name)
    | [] => ([], s)
  if name.contains ':' || !(name.take 1).any isNameStart || !(qualifier.take 1).all isNameStart
  then none
  else some ⟨String.ofList qualifier, String.ofList name⟩

/-- Reads a name. -/
def readName? (s : List Char) : Option (QName × List Char) := do
  let n ← qname? (s.takeWhile isNameChar)
  return (n, s.dropWhile isNameChar)

/-- Reads an equals sign with layout around it. -/
def readEquals? (s : List Char) : Option (List Char) :=
  match skipLayout s with
  | '=' :: r => some (skipLayout r)
  | _ => none

/-- Reads a quoted value as it is written. -/
def readQuoted? : List Char → Option (List Char × List Char)
  | q :: s =>
    if q = '"' || q = '\'' then
      match s.dropWhile (fun c => c ≠ q && c ≠ '<') with
      | c :: r =>
        let value := s.takeWhile fun c => c ≠ q && c ≠ '<'
        if c = q && value.all isDocumentChar then some (value, r) else none
      | [] => none
    else none
  | [] => none

/-- Reads a name and the value it is given, as it is written. -/
def readSetting? (s : List Char) : Option (QName × List Char × List Char) := do
  let (name, r) ← readName? s
  let r ← readEquals? r
  let (value, r) ← readQuoted? r
  return (name, value, r)

/-! ### Remarks -/

/-- Skips a comment behind its beginning. It holds no two hyphens in a row, nor one at its end. -/
def skipComment? (s : List Char) : Option (List Char) := do
  let (inside, r) ← breakAt? "-->".toList s
  if occurs "--".toList (inside ++ ['-']) || !inside.all isDocumentChar then none else return r

/-- Skips a processing instruction behind its beginning. It begins with a name. -/
def skipInstruction? (s : List Char) : Option (List Char) := do
  if !(s.take 1).any isNameStart || (Text.dropLeading? "xml ".toList s).isSome then none
  let (inside, r) ← breakAt? "?>".toList (s.dropWhile isNameChar)
  if inside.all isDocumentChar then return r else none

/-! ### Sizes -/

theorem length_skipLayout_le (s : List Char) : (skipLayout s).length ≤ s.length :=
  (List.dropWhile_sublist _).length_le

theorem length_breakAt? {mark s a b : List Char} (h : breakAt? mark s = some (a, b)) :
    b.length + mark.length ≤ s.length := by
  induction s generalizing a with
  | nil => simp [breakAt?] at h
  | cons c s ih =>
    simp only [breakAt?] at h
    split at h
    · rename_i r hr
      simp only [Option.some.injEq, Prod.mk.injEq] at h
      obtain ⟨-, rfl⟩ := h
      exact Nat.le_of_eq (Text.length_dropLeading? hr)
    · simp only [Option.map_eq_some_iff, Prod.mk.injEq, Prod.exists] at h
      obtain ⟨a', b', h', -, rfl⟩ := h
      have := ih h'
      simp only [List.length_cons]
      omega

theorem length_breakAt?_le {mark s a b : List Char} (h : breakAt? mark s = some (a, b)) :
    b.length ≤ s.length := by
  have := length_breakAt? h
  omega

theorem length_breakAt?_lt {mark s a b : List Char} (hm : 0 < mark.length)
    (h : breakAt? mark s = some (a, b)) : b.length < s.length := by
  have := length_breakAt? h
  omega

theorem length_readName?_le {s r : List Char} {n : QName} (h : readName? s = some (n, r)) :
    r.length ≤ s.length := by
  simp only [readName?, Option.bind_eq_bind, Option.bind_eq_some_iff, Option.pure_def,
    Option.some.injEq, Prod.mk.injEq] at h
  obtain ⟨_, -, -, rfl⟩ := h
  exact (List.dropWhile_sublist _).length_le

theorem length_readEquals?_lt {s r : List Char} (h : readEquals? s = some r) :
    r.length < s.length := by
  have h₁ := (List.dropWhile_sublist Text.isLayout (l := s)).length_le
  unfold readEquals? skipLayout at h
  split at h
  · rename_i t ht
    simp only [Option.some.injEq] at h
    have h₂ := (List.dropWhile_sublist Text.isLayout (l := t)).length_le
    rw [ht] at h₁
    simp only [List.length_cons] at h₁
    rw [← h]
    omega
  · contradiction

theorem length_readQuoted?_lt {s v r : List Char} (h : readQuoted? s = some (v, r)) :
    r.length < s.length := by
  cases s with
  | nil => simp [readQuoted?] at h
  | cons q s =>
    simp only [readQuoted?] at h
    split at h
    · split at h
      · rename_i c t ht
        have := (List.dropWhile_sublist (fun c => c ≠ q && c ≠ '<') (l := s)).length_le
        rw [ht] at this
        split at h
        · simp only [Option.some.injEq, Prod.mk.injEq] at h
          obtain ⟨-, rfl⟩ := h
          simp only [List.length_cons] at this ⊢
          omega
        · contradiction
      · contradiction
    · contradiction

theorem length_readSetting?_lt {s v r : List Char} {n : QName}
    (h : readSetting? s = some (n, v, r)) : r.length < s.length := by
  simp only [readSetting?, Option.bind_eq_bind, Option.bind_eq_some_iff, Option.pure_def,
    Option.some.injEq, Prod.mk.injEq, Prod.exists] at h
  obtain ⟨_, t, hn, u, he, _, _, hq, -, -, rfl⟩ := h
  have h₁ := length_readName?_le hn
  have h₂ := length_readEquals?_lt he
  have h₃ := length_readQuoted?_lt hq
  omega

theorem length_skipComment?_le {s r : List Char} (h : skipComment? s = some r) :
    r.length ≤ s.length := by
  simp only [skipComment?, Option.bind_eq_bind, Option.bind_eq_some_iff, Prod.exists] at h
  obtain ⟨_, t, ht, h⟩ := h
  have := length_breakAt?_le ht
  split at h
  · contradiction
  · simp only [Option.pure_def, Option.some.injEq] at h
    rw [← h]
    exact this

theorem length_skipInstruction?_le {s r : List Char} (h : skipInstruction? s = some r) :
    r.length ≤ s.length := by
  simp only [skipInstruction?, Option.bind_eq_bind] at h
  split at h
  · simp at h
  · simp only [Option.pure_def, Option.bind_eq_some_iff, Prod.exists] at h
    obtain ⟨_, t, ht, h⟩ := h
    have h₁ := length_breakAt?_le ht
    have h₂ := (List.dropWhile_sublist isNameChar (l := s)).length_le
    split at h
    · simp only [Option.some.injEq] at h
      rw [← h]
      omega
    · contradiction

end Iconsmith.Xml
