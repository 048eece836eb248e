import Iconsmith.Proofs.Naming.Identifiers
import Iconsmith.Source.Basic

/-!
# Reserved words

An identifier that would be a reserved word gets a low line before it, and a name that is taken gets
a number after it. Neither makes a reserved word of another name, as long as no reserved word begins
with a low line or holds a digit. So whatever a file is called, its identifier can be declared and is
not reserved.
-/

namespace Iconsmith.Naming

/-- No word of a list holds a digit or begins with a low line. -/
def ArePlain (ws : List String) : Prop :=
  ∀ w ∈ ws, (∀ c ∈ w.toList, c.isDigit = false) ∧ w.toList.head? ≠ some '_'

instance (ws : List String) : Decidable (ArePlain ws) :=
  List.decidableBAll _ ws

lemma arePlain_packageKeywords : ArePlain packageKeywords := by
  decide

lemma arePlain_reserved (b : Source.Backend) : ArePlain b.reserved := by
  cases b <;> decide

/-! ### Low lines -/

/-- No word of a list begins with a low line. -/
def NoneLowLine (ws : List String) : Prop :=
  ∀ w ∈ ws, w.toList.head? ≠ some '_'

instance (ws : List String) : Decidable (NoneLowLine ws) :=
  List.decidableBAll _ ws

namespace NoneLowLine

variable {ws : List String}

lemma lowLine_notMem (h : NoneLowLine ws) (name : String) : "_" ++ name ∉ ws := by
  intro hmem
  exact h _ hmem (by simp)

/-- The identifier of a name is no reserved word. A low line is put before it at most once, and there is
no reserved word that it could lead to. -/
lemma identifier_notMem (h : NoneLowLine ws) (raw : String) : identifier ws raw ∉ ws := by
  unfold identifier
  dsimp only
  split
  · exact h.lowLine_notMem "Unnamed"
  · split_ifs with hescape
    · exact h.lowLine_notMem _
    · simp only [Bool.or_eq_true, not_or, List.contains_eq_mem, decide_eq_true_eq] at hescape
      exact hescape.2

end NoneLowLine

/-! ### Numbers -/

namespace ArePlain

variable {ws : List String}

lemma noneLowLine (h : ArePlain ws) : NoneLowLine ws :=
  fun w hw => (h w hw).2

lemma numbered_notMem (h : ArePlain ws) (name : String) (k : Nat) :
    Allocator.numbered name k ∉ ws := by
  intro hmem
  obtain ⟨d, hd⟩ := List.exists_mem_of_ne_nil (Nat.toDigits 10 k) Nat.toDigits_ne_nil
  have hdigit : d.isDigit = true := Nat.isDigit_of_mem_toDigits (by decide) (by decide) hd
  have hno := (h _ hmem).1 d (by simp [Allocator.toList_numbered, hd])
  exact absurd (hdigit.symm.trans hno) (by decide)

end ArePlain

/-- A number after a name makes no reserved word. -/
lemma Allocator.Answers.notMem {request name : String} (h : Answers request name)
    {ws : List String} (hws : ArePlain ws) (hrequest : request ∉ ws) : name ∉ ws := by
  rcases h with rfl | ⟨k, -, rfl⟩
  · exact hrequest
  · exact hws.numbered_notMem request k

/-! ### Identifiers that are not reserved -/

/-- A nonempty word of letters and digits, possibly behind a low line. -/
def IsLowered (name : String) : Prop :=
  ∃ word, (name = word ∨ name = "_" ++ word) ∧ word ≠ "" ∧ AreAlphanumeric word.toList

lemma isLowered_identifier (ws : List String) (raw : String) : IsLowered (identifier ws raw) := by
  unfold identifier
  have hname := areAlphanumeric_words (stem (fileName (Text.trim raw.toList)))
  dsimp only
  generalize String.ofList _ = name at hname ⊢
  split
  · refine ⟨"Unnamed", Or.inr (by decide), by decide, ?_⟩
    unfold AreAlphanumeric
    decide
  · rename_i c s hcons
    have hne : name ≠ "" := by
      rintro rfl
      contradiction
    split_ifs
    · exact ⟨name, Or.inr rfl, hne, hname⟩
    · exact ⟨name, Or.inl rfl, hne, hname⟩

/-- A name that can be declared, is none of some reserved words, and has no characters but letters and
digits behind its low line. -/
structure IsDeclarable (ws : List String) (name : String) : Prop where
  isIdentifier : isIdentifier name = true
  notMem : name ∉ ws
  isLowered : IsLowered name

/-- Whatever a file is called, its identifier can be declared, as long as no reserved word begins with a
low line. No word begins with one that either framework reserves. -/
theorem isDeclarable_identifier (ws : List String) (h : NoneLowLine ws) (raw : String) :
    IsDeclarable ws (identifier ws raw)
    ∧ ∀ b : Source.Backend, NoneLowLine b.reserved ∧ IsDeclarable b.reserved (b.identifier raw) := by
  have hall (vs : List String) (hvs : NoneLowLine vs) : IsDeclarable vs (identifier vs raw) :=
    ⟨isIdentifier_identifier vs raw, hvs.identifier_notMem raw, isLowered_identifier vs raw⟩
  refine ⟨hall ws h, fun b => ?_⟩
  have hb := (arePlain_reserved b).noneLowLine
  exact ⟨hb, hall b.reserved hb⟩

/-- Of a location between blanks only what is behind the last slash counts. Here that is a reserved word,
once it has a capital. -/
theorem isDeclarable_path :
    identifier ["path", "Path"] "\u2003icons\\sub/-path.svg " = "_Path"
    ∧ IsDeclarable ["path", "Path"] "_Path" := by
  have hname : identifier ["path", "Path"] "\u2003icons\\sub/-path.svg " = "_Path" := by decide
  refine ⟨hname, ?_⟩
  rw [← hname]
  exact (isDeclarable_identifier ["path", "Path"] (by decide) _).1

end Iconsmith.Naming
