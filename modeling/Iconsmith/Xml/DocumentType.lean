import Iconsmith.Xml.Lexeme

/-!
# The type of a document

A document may declare its type, and with it entities: texts that stand for their names. Other
declarations mean nothing and are skipped, and so are entities whose text is kept elsewhere.
-/

namespace Iconsmith.Xml

/-- The texts that a document declares, by name. Of several with one name the first one counts. -/
abbrev Entities := List (String × List Char)

namespace Entities

/-! ### Parts of declarations -/

/-- Skips layout, of which there must be some. -/
def skipGap? (s : List Char) : Option (List Char) :=
  if (s.take 1).any Text.isLayout then some (skipLayout s) else none

/-- Skips the bracket at the end of a declaration, with layout before it. -/
def skipEnd? (s : List Char) : Option (List Char) :=
  match skipLayout s with
  | '>' :: r => some r
  | _ => none

/-- Reads a quoted text, in which all other characters may stand. -/
def readLiteral? : List Char → Option (List Char × List Char)
  | q :: s => if q = '"' || q = '\'' then breakAt? [q] s else none
  | [] => none

/-- Skips a name. -/
def skipName? (s : List Char) : Option (List Char) :=
  if (s.take 1).any isNameStart then some (s.dropWhile isNameChar) else none

/-- Skips the place where a text is kept elsewhere: one quoted text or two. -/
def skipPlace? (s : List Char) : Option (List Char) :=
  match Text.dropLeading? "SYSTEM".toList s with
  | some r => do
    let (_, r) ← readLiteral? (← skipGap? r)
    return r
  | none => do
    let r ← Text.dropLeading? "PUBLIC".toList s
    let (_, r) ← readLiteral? (← skipGap? r)
    let (_, r) ← readLiteral? (← skipGap? r)
    return r

/-- Skips the place where a text is kept elsewhere, if there is one. -/
def skipOptionalPlace? (s : List Char) : Option (List Char) :=
  if ["SYSTEM", "PUBLIC"].any fun word => (Text.dropLeading? word.toList s).isSome
  then skipPlace? s
  else some s

/-- Skips the form of data that are no text, if there is one. Parameters have none. -/
def skipForm? (isParameter : Bool) (s : List Char) : Option (List Char) :=
  match Text.dropLeading? "NDATA".toList (skipLayout s) with
  | some r => if isParameter then none else skipGap? r >>= skipName?
  | none => some s

/-! ### Declarations -/

/-- Reads the name and the text of an entity behind a gap. -/
def readText? (isParameter : Bool) (s : List Char) : Option (Entities × List Char) := do
  let r ← skipName? s
  let r ← skipGap? r
  match readLiteral? r with
  | some (text, r) => return ([(String.ofList (s.takeWhile isNameChar), text)], ← skipEnd? r)
  | none =>
    let r ← skipForm? isParameter (← skipPlace? r)
    return ([], ← skipEnd? r)

/-- Reads the declaration of an entity behind its beginning. A percent sign before the name makes
no difference to the text. -/
def readEntity? (s : List Char) : Option (Entities × List Char) := do
  match ← skipGap? s with
  | '%' :: r => readText? true (← skipGap? r)
  | r => readText? false r

/-- The beginnings of declarations that mean nothing. -/
def idleBeginnings : List String :=
  ["<!ELEMENT", "<!ATTLIST", "<!NOTATION"]

/-- Skips a declaration that means nothing, from its beginning up to the first closing bracket. -/
def skipIdle? (s : List Char) : Option (List Char) :=
  if idleBeginnings.any fun word => (Text.dropLeading? word.toList s).isSome
  then (breakAt? ['>'] s).map (·.2)
  else none

/-- Reads one declaration or remark. -/
def readOne? (s : List Char) : Option (Entities × List Char) :=
  match Text.dropLeading? "<!ENTITY".toList s with
  | some r => readEntity? r
  | none =>
    match Text.dropLeading? "<!--".toList s with
    | some r => (skipComment? r).map ([], ·)
    | none =>
      match Text.dropLeading? "<?".toList s with
      | some r => (skipInstruction? r).map ([], ·)
      | none => (skipIdle? s).map ([], ·)

/-! ### Sizes -/

theorem length_skipGap?_le {s r : List Char} (h : skipGap? s = some r) :
    r.length ≤ s.length := by
  unfold skipGap? at h
  split at h
  · simp only [Option.some.injEq] at h
    rw [← h]
    exact length_skipLayout_le s
  · contradiction

theorem length_skipEnd?_le {s r : List Char} (h : skipEnd? s = some r) :
    r.length ≤ s.length := by
  have hs := length_skipLayout_le s
  unfold skipEnd? at h
  split at h
  · rename_i t ht
    simp only [Option.some.injEq] at h
    rw [ht] at hs
    simp only [List.length_cons] at hs
    rw [← h]
    omega
  · contradiction

theorem length_readLiteral?_le {s a r : List Char} (h : readLiteral? s = some (a, r)) :
    r.length ≤ s.length := by
  unfold readLiteral? at h
  split at h
  · split at h
    · have := length_breakAt?_le h
      simp only [List.length_cons]
      omega
    · contradiction
  · contradiction

theorem length_skipName?_le {s r : List Char} (h : skipName? s = some r) :
    r.length ≤ s.length := by
  unfold skipName? at h
  split at h
  · simp only [Option.some.injEq] at h
    rw [← h]
    exact (List.dropWhile_sublist _).length_le
  · contradiction

theorem length_skipPlace?_le {s r : List Char} (h : skipPlace? s = some r) :
    r.length ≤ s.length := by
  unfold skipPlace? at h
  split at h
  · rename_i t ht
    simp only [Option.bind_eq_bind, Option.bind_eq_some_iff, Option.pure_def, Option.some.injEq,
      Prod.exists] at h
    obtain ⟨u, hu, _, v, hv, rfl⟩ := h
    have h₁ := Text.length_dropLeading?_le ht
    have h₂ := length_skipGap?_le hu
    have h₃ := length_readLiteral?_le hv
    omega
  · simp only [Option.bind_eq_bind, Option.bind_eq_some_iff, Option.pure_def, Option.some.injEq,
      Prod.exists] at h
    obtain ⟨t, ht, u, hu, _, v, hv, w, hw, _, x, hx, rfl⟩ := h
    have h₁ := Text.length_dropLeading?_le ht
    have h₂ := length_skipGap?_le hu
    have h₃ := length_readLiteral?_le hv
    have h₄ := length_skipGap?_le hw
    have h₅ := length_readLiteral?_le hx
    omega

theorem length_skipOptionalPlace?_le {s r : List Char} (h : skipOptionalPlace? s = some r) :
    r.length ≤ s.length := by
  unfold skipOptionalPlace? at h
  split at h
  · exact length_skipPlace?_le h
  · simp only [Option.some.injEq] at h
    simp [h]

theorem length_skipForm?_le {s r : List Char} {isParameter : Bool}
    (h : skipForm? isParameter s = some r) : r.length ≤ s.length := by
  unfold skipForm? at h
  split at h
  · rename_i t ht
    split at h
    · contradiction
    · simp only [Option.bind_eq_bind, Option.bind_eq_some_iff] at h
      obtain ⟨u, hu, hr⟩ := h
      have h₁ := length_skipLayout_le s
      have h₂ := Text.length_dropLeading?_le ht
      have h₃ := length_skipGap?_le hu
      have h₄ := length_skipName?_le hr
      omega
  · simp only [Option.some.injEq] at h
    simp [h]

theorem length_readText?_le {s r : List Char} {isParameter : Bool} {es : Entities}
    (h : readText? isParameter s = some (es, r)) : r.length ≤ s.length := by
  simp only [readText?, Option.bind_eq_bind, Option.bind_eq_some_iff] at h
  obtain ⟨t, ht, u, hu, h⟩ := h
  have h₁ := length_skipName?_le ht
  have h₂ := length_skipGap?_le hu
  split at h
  · rename_i v hv
    simp only [Option.bind_eq_some_iff, Option.pure_def, Option.some.injEq, Prod.mk.injEq] at h
    obtain ⟨w, hw, -, rfl⟩ := h
    have h₃ := length_readLiteral?_le hv
    have h₄ := length_skipEnd?_le hw
    omega
  · simp only [Option.bind_eq_some_iff, Option.pure_def, Option.some.injEq, Prod.mk.injEq] at h
    obtain ⟨v, hv, w, hw, x, hx, -, rfl⟩ := h
    have h₃ := length_skipPlace?_le hv
    have h₄ := length_skipForm?_le hw
    have h₅ := length_skipEnd?_le hx
    omega

theorem length_readEntity?_le {s r : List Char} {es : Entities}
    (h : readEntity? s = some (es, r)) : r.length ≤ s.length := by
  simp only [readEntity?, Option.bind_eq_bind, Option.bind_eq_some_iff] at h
  obtain ⟨t, ht, h⟩ := h
  have h₁ := length_skipGap?_le ht
  split at h
  · rename_i u
    simp only [Option.bind_eq_some_iff] at h
    obtain ⟨v, hv, h⟩ := h
    have h₂ := length_skipGap?_le hv
    have h₃ := length_readText?_le h
    simp only [List.length_cons] at h₁
    omega
  · have h₂ := length_readText?_le h
    omega

theorem length_skipIdle?_lt {s r : List Char} (h : skipIdle? s = some r) :
    r.length < s.length := by
  unfold skipIdle? at h
  split at h
  · simp only [Option.map_eq_some_iff, Prod.exists] at h
    obtain ⟨_, t, ht, rfl⟩ := h
    exact length_breakAt?_lt (by simp) ht
  · contradiction

theorem length_readOne?_lt {s r : List Char} {es : Entities} (h : readOne? s = some (es, r)) :
    r.length < s.length := by
  have shorter {word : String} {t : List Char} (hw : 0 < word.toList.length)
      (ht : Text.dropLeading? word.toList s = some t) : t.length < s.length := by
    have := Text.length_dropLeading? ht
    omega
  unfold readOne? at h
  split at h
  · rename_i t ht
    have h₁ := length_readEntity?_le h
    have h₂ := shorter (by simp) ht
    omega
  · split at h
    · rename_i t ht
      simp only [Option.map_eq_some_iff, Prod.mk.injEq] at h
      obtain ⟨u, hu, -, rfl⟩ := h
      have h₁ := length_skipComment?_le hu
      have h₂ := shorter (by simp) ht
      omega
    · split at h
      · rename_i t ht
        simp only [Option.map_eq_some_iff, Prod.mk.injEq] at h
        obtain ⟨u, hu, -, rfl⟩ := h
        have h₁ := length_skipInstruction?_le hu
        have h₂ := shorter (by simp) ht
        omega
      · simp only [Option.map_eq_some_iff, Prod.mk.injEq] at h
        obtain ⟨u, hu, -, rfl⟩ := h
        exact length_skipIdle?_lt hu

/-! ### The declaration of the type -/

/-- Reads declarations and remarks up to the bracket that ends them. -/
def readInside? (s : List Char) : Option (Entities × List Char) :=
  match _hs : skipLayout s with
  | ']' :: r => some ([], r)
  | t =>
    match _h : readOne? t with
    | none => none
    | some (es, r) => do
      let (more, r) ← readInside? r
      return (es ++ more, r)
termination_by s.length
decreasing_by
  have h₁ := length_readOne?_lt _h
  have h₂ := length_skipLayout_le s
  rw [_hs] at h₂
  omega

/-- Reads a declaration of the type of a document behind its beginning. Brackets in it hold other
declarations. -/
def readType? (s : List Char) : Option (Entities × List Char) := do
  let r ← skipName? (← skipGap? s)
  let r ← skipOptionalPlace? (skipLayout r)
  match skipLayout r with
  | '[' :: r => do
    let (es, r) ← readInside? r
    return (es, ← skipEnd? r)
  | r => return ([], ← skipEnd? r)

theorem length_readInside?_le {s r : List Char} {es : Entities}
    (h : readInside? s = some (es, r)) : r.length ≤ s.length := by
  induction hn : s.length using Nat.strongRecOn generalizing s es r with
  | ind n ih =>
    have hs := length_skipLayout_le s
    rw [readInside?] at h
    split at h
    · rename_i t ht
      simp only [Option.some.injEq, Prod.mk.injEq] at h
      rw [ht] at hs
      simp only [List.length_cons] at hs
      rw [← h.2]
      omega
    · split at h
      · contradiction
      · rename_i t u ht
        have h₁ := length_readOne?_lt ht
        simp only [Option.bind_eq_bind, Option.bind_eq_some_iff, Option.pure_def,
          Option.some.injEq, Prod.mk.injEq, Prod.exists] at h
        obtain ⟨_, v, hv, -, rfl⟩ := h
        have := ih u.length (by omega) hv rfl
        omega

theorem length_readType?_le {s r : List Char} {es : Entities} (h : readType? s = some (es, r)) :
    r.length ≤ s.length := by
  simp only [readType?, Option.bind_eq_bind, Option.bind_eq_some_iff] at h
  obtain ⟨t, ht, u, hu, v, hv, h⟩ := h
  have h₁ := length_skipGap?_le ht
  have h₂ := length_skipName?_le hu
  have h₃ := length_skipLayout_le u
  have h₄ := length_skipOptionalPlace?_le hv
  have h₅ := length_skipLayout_le v
  split at h
  · rename_i w hw
    simp only [Option.bind_eq_some_iff, Option.pure_def, Option.some.injEq, Prod.mk.injEq,
      Prod.exists] at h
    obtain ⟨_, x, hx, y, hy, -, rfl⟩ := h
    have h₆ := length_readInside?_le hx
    have h₇ := length_skipEnd?_le hy
    rw [hw] at h₅
    simp only [List.length_cons] at h₅
    omega
  · simp only [Option.bind_eq_some_iff, Option.pure_def, Option.some.injEq, Prod.mk.injEq] at h
    obtain ⟨y, hy, -, rfl⟩ := h
    have h₇ := length_skipEnd?_le hy
    omega

end Entities

end Iconsmith.Xml
