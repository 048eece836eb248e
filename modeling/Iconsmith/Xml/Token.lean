import Iconsmith.Xml.DocumentType

/-!
# Tokens of markup

A document is cut into tags, text and remarks before it is made a tree. `Token.readAll?` fails on a
text that cannot be cut so. Comments and processing instructions mean nothing and become remarks.
-/

namespace Iconsmith.Xml

/-- A piece of a document. -/
inductive Token where
  /-- A start tag with its attributes as they are written, which is `empty` when it is an end tag
  too. -/
  | startTag (name : QName) (attributes : List (QName × List Char)) (empty : Bool)
  | endTag (name : QName)
  /-- Text in which references stand. -/
  | text (raw : List Char)
  /-- Text in which nothing has a meaning of its own. -/
  | verbatim (raw : List Char)
  /-- A comment or a processing instruction. -/
  | remark
  /-- A declaration of the type of the document. -/
  | typeDeclaration (entities : Entities)
  deriving Repr

namespace Token

/-- Whether a token begins an element. -/
def isStartTag : Token → Bool
  | startTag .. => true
  | _ => false

/-- Whether a token is an end tag. -/
def isEndTag : Token → Bool
  | endTag _ => true
  | _ => false

/-- Whether a token may stand outside of all elements. -/
def isOutside : Token → Bool
  | text raw => raw.all Text.isLayout
  | remark => true
  | _ => false

/-- Splits tokens behind the end tag that ends one more element than begin among them and than the
given number. -/
def splitAtEnd (within : Nat) : List Token → List Token × List Token
  | [] => ([], [])
  | t :: ts =>
    let continued (within : Nat) : List Token × List Token :=
      let (own, rest) := splitAtEnd within ts
      (t :: own, rest)
    match t, within with
    | startTag _ _ false, n => continued (n + 1)
    | endTag _, 0 => ([t], ts)
    | endTag _, n + 1 => continued n
    | _, n => continued n

/-! ### Tags -/

/-- Reads the attributes of a start tag up to its end, and whether it is an end tag too. -/
def readAttributes? (s : List Char) :
    Option (List (QName × List Char) × Bool × List Char) :=
  match skipLayout s with
  | '/' :: '>' :: r => some ([], true, r)
  | '>' :: r => some ([], false, r)
  | _ =>
    -- an attribute stands apart from what is before it
    if (s.take 1).any Text.isLayout then
      match _h : readSetting? (skipLayout s) with
      | none => none
      | some (name, raw, r) => do
        let (attributes, empty, r) ← readAttributes? r
        return ((name, raw) :: attributes, empty, r)
    else none
termination_by s.length
decreasing_by
  have h₁ := length_readSetting?_lt _h
  have h₂ := (List.dropWhile_sublist Text.isLayout (l := s)).length_le
  unfold skipLayout at h₁
  omega

/-- Reads a start tag behind its bracket. -/
def readStartTag? (s : List Char) : Option (Token × List Char) := do
  let (name, r) ← readName? s
  let (attributes, empty, r) ← readAttributes? r
  return (.startTag name attributes empty, r)

/-- Reads an end tag behind its bracket and slash. -/
def readEndTag? (s : List Char) : Option (Token × List Char) := do
  let (name, r) ← readName? s
  match skipLayout r with
  | '>' :: r => return (.endTag name, r)
  | _ => none

/-! ### The other tokens -/

/-- Reads verbatim text behind its beginning. -/
def readVerbatim? (s : List Char) : Option (Token × List Char) := do
  let (inside, r) ← breakAt? "]]>".toList s
  if inside.all isDocumentChar then return (.verbatim inside, r) else none

/-- Reads text up to the next bracket. -/
def readPlain? (s : List Char) : Option (Token × List Char) :=
  let raw := s.takeWhile (· ≠ '<')
  if occurs "]]>".toList raw || !raw.all isDocumentChar then none
  else some (.text raw, s.dropWhile (· ≠ '<'))

/-- Reads a token behind its bracket and exclamation mark. -/
def readMarked? (s : List Char) : Option (Token × List Char) :=
  match Text.dropLeading? "--".toList s with
  | some r => (skipComment? r).map (.remark, ·)
  | none =>
    match Text.dropLeading? "[CDATA[".toList s with
    | some r => readVerbatim? r
    | none => do
      let (entities, r) ← Entities.readType? (← Text.dropLeading? "DOCTYPE".toList s)
      return (.typeDeclaration entities, r)

/-- Reads one token. -/
def read? : List Char → Option (Token × List Char)
  | [] => none
  | '<' :: '/' :: s => readEndTag? s
  | '<' :: '?' :: s => (skipInstruction? s).map (.remark, ·)
  | '<' :: '!' :: s => readMarked? s
  | '<' :: s => readStartTag? s
  | c :: s => readPlain? (c :: s)

/-! ### Sizes -/

theorem length_readAttributes?_le {s r : List Char} {as : List (QName × List Char)} {e : Bool}
    (h : readAttributes? s = some (as, e, r)) : r.length ≤ s.length := by
  induction hn : s.length using Nat.strongRecOn generalizing s as e r with
  | ind n ih =>
    have hs := (List.dropWhile_sublist Text.isLayout (l := s)).length_le
    unfold readAttributes? skipLayout at h
    split at h
    · rename_i t ht
      simp only [Option.some.injEq, Prod.mk.injEq] at h
      rw [ht] at hs
      simp only [List.length_cons] at hs
      rw [← h.2.2]
      omega
    · rename_i t ht
      simp only [Option.some.injEq, Prod.mk.injEq] at h
      rw [ht] at hs
      simp only [List.length_cons] at hs
      rw [← h.2.2]
      omega
    · split at h
      · split at h
        · contradiction
        · rename_i name raw t ht
          have h₁ := length_readSetting?_lt ht
          simp only [Option.bind_eq_bind, Option.bind_eq_some_iff, Option.pure_def,
            Option.some.injEq, Prod.mk.injEq, Prod.exists] at h
          obtain ⟨as', e', u, hu, -, -, rfl⟩ := h
          have := ih t.length (by omega) hu rfl
          omega
      · contradiction

theorem length_readMarked?_le {s r : List Char} {t : Token} (h : readMarked? s = some (t, r)) :
    r.length ≤ s.length := by
  unfold readMarked? at h
  split at h
  · rename_i u hu
    simp only [Option.map_eq_some_iff, Prod.mk.injEq] at h
    obtain ⟨v, hv, -, rfl⟩ := h
    have h₁ := Text.length_dropLeading?_le hu
    have h₂ := length_skipComment?_le hv
    omega
  · split at h
    · rename_i u hu
      have h₁ := Text.length_dropLeading?_le hu
      simp only [readVerbatim?, Option.bind_eq_bind, Option.bind_eq_some_iff, Prod.exists] at h
      obtain ⟨_, v, hb, h⟩ := h
      have h₂ := length_breakAt?_le hb
      split at h
      · simp only [Option.pure_def, Option.some.injEq, Prod.mk.injEq] at h
        rw [← h.2]
        omega
      · contradiction
    · simp only [Option.bind_eq_bind, Option.bind_eq_some_iff, Option.pure_def,
        Option.some.injEq, Prod.mk.injEq, Prod.exists] at h
      obtain ⟨u, hu, _, v, hv, -, rfl⟩ := h
      have h₁ := Text.length_dropLeading?_le hu
      have h₂ := Entities.length_readType?_le hv
      omega

theorem length_readPlain?_lt {c : Char} {s r : List Char} {t : Token} (hc : c ≠ '<')
    (h : readPlain? (c :: s) = some (t, r)) : r.length < (c :: s).length := by
  simp only [readPlain?] at h
  split at h
  · contradiction
  · simp only [Option.some.injEq, Prod.mk.injEq] at h
    have := (List.dropWhile_sublist (· ≠ '<') (l := s)).length_le
    rw [← h.2]
    simp only [ne_eq] at this
    simp only [List.dropWhile_cons, hc, ne_eq, not_false_eq_true, decide_true, if_true,
      List.length_cons]
    omega

theorem length_read?_lt {s r : List Char} {t : Token} (h : read? s = some (t, r)) :
    r.length < s.length := by
  unfold read? at h
  split at h
  · contradiction
  · rename_i s
    simp only [readEndTag?, Option.bind_eq_bind, Option.bind_eq_some_iff, Prod.exists] at h
    obtain ⟨_, u, hn, h⟩ := h
    have h₁ := length_readName?_le hn
    have h₂ := length_skipLayout_le u
    split at h
    · rename_i v hv
      simp only [Option.pure_def, Option.some.injEq, Prod.mk.injEq] at h
      rw [hv] at h₂
      simp only [List.length_cons] at h₂ ⊢
      rw [← h.2]
      omega
    · contradiction
  · simp only [Option.map_eq_some_iff, Prod.mk.injEq] at h
    obtain ⟨u, hu, -, rfl⟩ := h
    have := length_skipInstruction?_le hu
    simp only [List.length_cons]
    omega
  · have := length_readMarked?_le h
    simp only [List.length_cons]
    omega
  · rename_i s _ _ _
    simp only [readStartTag?, Option.bind_eq_bind, Option.bind_eq_some_iff, Option.pure_def,
      Option.some.injEq, Prod.mk.injEq, Prod.exists] at h
    obtain ⟨_, u, hn, _, _, v, ha, -, rfl⟩ := h
    have h₁ := length_readName?_le hn
    have h₂ := length_readAttributes?_le ha
    simp only [List.length_cons]
    omega
  · rename_i hne
    exact length_readPlain?_lt hne h

/-- The tokens of a text, or nothing if it cannot be cut into tokens. -/
def readAll? (s : List Char) : Option (List Token) :=
  match s with
  | [] => some []
  | c :: s =>
    match _h : read? (c :: s) with
    | none => none
    | some (t, r) => do
      let ts ← readAll? r
      return t :: ts
termination_by s.length
decreasing_by
  exact length_read?_lt _h

/-! ### The declaration -/

/-- Reads a setting whose name begins with the given word, and the layout after it. A setting that
is not there is passed over. -/
def skipSetting? (word : String) (s : List Char) : Option (List Char) :=
  match Text.dropLeading? word.toList s with
  | none => some s
  | some _ => do
    let (_, _, r) ← readSetting? s
    if (r.take 1).all Text.isLayout || (Text.dropLeading? "?>".toList r).isSome then
      return skipLayout r
    else none

/-- Drops the declaration at the start of a document, if there is one: its version, and then
possibly the encoding and whether the document stands alone. -/
def skipDeclaration? (s : List Char) : Option (List Char) :=
  match Text.dropLeading? "<?xml ".toList s with
  | none => some s
  | some r => do
    let r := skipLayout r
    let _ ← Text.dropLeading? "version".toList r
    let r ← skipSetting? "version" r
    let r ← skipSetting? "encoding" r
    let r ← skipSetting? "standalone" r
    Text.dropLeading? "?>".toList r

end Token

end Iconsmith.Xml
