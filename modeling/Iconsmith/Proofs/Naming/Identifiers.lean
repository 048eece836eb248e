import Mathlib
import Iconsmith.Naming.Siblings
import Iconsmith.Proofs.Naming.Freshness
import Iconsmith.Proofs.Text.Runs

/-!
# Identifiers can be declared

The identifier made of a file name can be declared, whatever the name is, and a number after it
changes nothing about that. So every name that an `Allocator` gives for an identifier can be declared.
-/

namespace Iconsmith.Naming

/-- Characters that can follow the first one of an identifier. -/
def AreNameChars (s : List Char) : Prop :=
  ∀ c ∈ s, isAlphanumeric c = true ∨ c = '_'

lemma isIdentifier_iff {name : String} :
    isIdentifier name = true ↔
      ∃ c s, name.toList = c :: s ∧ (c.isAlpha = true ∨ c = '_') ∧ AreNameChars s := by
  unfold isIdentifier AreNameChars
  split <;> rename_i h <;> simp [h]

/-! ### Words -/

/-- The characters of a word. -/
def AreAlphanumeric (s : List Char) : Prop :=
  ∀ c ∈ s, isAlphanumeric c = true

lemma areAlphanumeric_nil : AreAlphanumeric [] := by
  simp [AreAlphanumeric]

lemma isAlphanumeric_toLower (c : Char) : isAlphanumeric c.toLower = isAlphanumeric c := by
  by_cases h : c.isUpper = true
  · have halpha : c.isAlpha = true := by simp [Char.isAlpha, h]
    simp [isAlphanumeric, halpha]
  · rw [Char.toLower_eq_of_not_isUpper h]

lemma isAlphanumeric_toUpper (c : Char) : isAlphanumeric c.toUpper = isAlphanumeric c := by
  by_cases h : c.isLower = true
  · have halpha : c.isAlpha = true := by simp [Char.isAlpha, h]
    simp [isAlphanumeric, halpha]
  · rw [Char.toUpper_eq_of_not_isLower h]

lemma areAlphanumeric_capitalize {s : List Char} (h : AreAlphanumeric s) :
    AreAlphanumeric (capitalize s) := by
  cases s with
  | nil => exact h
  | cons c s =>
    obtain ⟨hc, hs⟩ := List.forall_mem_cons.mp h
    refine List.forall_mem_cons.mpr ⟨(isAlphanumeric_toUpper c).trans hc, fun d hd => ?_⟩
    obtain ⟨e, he, rfl⟩ := List.mem_map.mp hd
    exact (isAlphanumeric_toLower e).trans (hs e he)

/-- The word that is done when no more characters belong to it. -/
lemma areAlphanumeric_done {word : List Char} (h : AreAlphanumeric word) :
    ∀ v ∈ (if word.isEmpty then [] else [word.reverse]), AreAlphanumeric v := by
  split_ifs
  · simp
  · intro v hv
    rw [List.mem_singleton.mp hv]
    exact fun c hc => h c (List.mem_reverse.mp hc)

lemma areAlphanumeric_wordsFrom {word s : List Char} (h : AreAlphanumeric word) :
    ∀ v ∈ wordsFrom word s, AreAlphanumeric v := by
  induction s generalizing word with
  | nil => exact areAlphanumeric_done h
  | cons c s ih =>
    have hdone := areAlphanumeric_done h
    unfold wordsFrom
    dsimp only
    generalize (if word.isEmpty then [] else [word.reverse]) = done at hdone ⊢
    by_cases hc : isAlphanumeric c = true
    · have hone : AreAlphanumeric [c] := by simp [AreAlphanumeric, hc]
      simp only [hc, Bool.not_true, Bool.false_eq_true, if_false]
      split
      · split_ifs
        · exact List.forall_mem_append.mpr ⟨hdone, ih hone⟩
        · exact ih (List.forall_mem_cons.mpr ⟨hc, h⟩)
      · exact ih hone
    · simp only [hc, Bool.not_false, if_true]
      exact List.forall_mem_append.mpr ⟨hdone, ih areAlphanumeric_nil⟩

/-! ### Identifiers of files -/

/-- Letters and digits are an identifier behind a low line, and also without one if they do not begin
with a digit. -/
lemma isIdentifier_lowLine {name : String} (h : AreAlphanumeric name.toList) :
    isIdentifier ("_" ++ name) = true :=
  isIdentifier_iff.mpr ⟨'_', name.toList, by simp, Or.inr rfl, fun c hc => Or.inl (h c hc)⟩

lemma isIdentifier_of_alphanumeric {name : String} {c : Char} {s : List Char}
    (h : AreAlphanumeric name.toList) (hname : name.toList = c :: s) (hc : c.isDigit = false) :
    isIdentifier name = true := by
  rw [hname] at h
  obtain ⟨hfirst, hrest⟩ := List.forall_mem_cons.mp h
  have halpha : c.isAlpha = true := by simpa [isAlphanumeric, hc] using hfirst
  exact isIdentifier_iff.mpr ⟨c, s, hname, Or.inl halpha, fun d hd => Or.inl (hrest d hd)⟩

/-- The words of a text, joined to one. -/
lemma areAlphanumeric_words (s : List Char) :
    AreAlphanumeric (String.ofList ((words s).flatMap capitalize)).toList := by
  intro c hc
  rw [String.toList_ofList] at hc
  obtain ⟨v, hv, hc⟩ := List.mem_flatMap.mp hc
  have hword := areAlphanumeric_wordsFrom areAlphanumeric_nil v hv
  exact areAlphanumeric_capitalize hword c hc

/-- The identifier made of any name can be declared. -/
theorem isIdentifier_identifier (reserved : List String) (raw : String) :
    isIdentifier (identifier reserved raw) = true := by
  unfold identifier
  have hname := areAlphanumeric_words (stem (fileName (Text.trim raw.toList)))
  dsimp only
  split
  · decide
  · rename_i c s hcons
    split_ifs with hescape
    · exact isIdentifier_lowLine hname
    · simp only [Bool.or_eq_true, not_or, Bool.not_eq_true] at hescape
      exact isIdentifier_of_alphanumeric hname hcons hescape.1

/-! ### Identifiers with numbers -/

lemma isIdentifier_numbered {name : String} (h : isIdentifier name = true) (k : Nat) :
    isIdentifier (Allocator.numbered name k) = true := by
  obtain ⟨c, s, hname, hc, hs⟩ := isIdentifier_iff.mp h
  refine isIdentifier_iff.mpr ⟨c, s ++ Nat.toDigits 10 k, ?_, hc, fun d hd => ?_⟩
  · rw [Allocator.toList_numbered, hname, List.cons_append]
  · rcases List.mem_append.mp hd with hd | hd
    · exact hs d hd
    · have hdigit : d.isDigit = true := Nat.isDigit_of_mem_toDigits (by decide) (by decide) hd
      exact Or.inl (by simp [isAlphanumeric, hdigit])

lemma Allocator.Answers.isIdentifier {request name : String} (h : Answers request name)
    (hrequest : isIdentifier request = true) : isIdentifier name = true := by
  rcases h with rfl | ⟨k, -, rfl⟩
  · exact hrequest
  · exact isIdentifier_numbered hrequest k

/-! ### Low lines -/

/-- A name in which nothing but its first character can be a low line. -/
def IsSymbol (name : String) : Prop :=
  AreAlphanumeric name.toList.tail

lemma isSymbol_identifier (reserved : List String) (raw : String) :
    IsSymbol (identifier reserved raw) := by
  unfold identifier
  have hname := areAlphanumeric_words (stem (fileName (Text.trim raw.toList)))
  dsimp only
  split
  · unfold IsSymbol AreAlphanumeric
    decide
  · split_ifs
    · simpa [IsSymbol] using hname
    · exact fun c hc => hname c (List.mem_of_mem_tail hc)

lemma Allocator.Answers.isSymbol {request name : String} (h : Answers request name)
    (hidentifier : Naming.isIdentifier request = true) (hrequest : IsSymbol request) :
    IsSymbol name := by
  rcases h with rfl | ⟨k, -, rfl⟩
  · exact hrequest
  · obtain ⟨c, s, hname, -, -⟩ := isIdentifier_iff.mp hidentifier
    rw [IsSymbol, hname, List.tail_cons] at hrequest
    rw [IsSymbol, toList_numbered, hname, List.cons_append, List.tail_cons]
    refine List.forall_mem_append.mpr ⟨hrequest, fun d hd => ?_⟩
    have hdigit : d.isDigit = true := Nat.isDigit_of_mem_toDigits (by decide) (by decide) hd
    simp [isAlphanumeric, hdigit]

/-! ### First characters -/

/-- A name that does not begin with a small letter. -/
def IsCapital (name : String) : Prop :=
  ∀ c ∈ name.toList.head?, c.isLower = false

/-- The words of an identifier begin with capital letters. -/
lemma head?_flatMap_capitalize (ws : List (List Char)) :
    ∀ c ∈ (ws.flatMap capitalize).head?, c.isLower = false := by
  induction ws with
  | nil => nofun
  | cons word ws ih =>
    cases word with
    | nil => exact ih
    | cons c s =>
      rintro _ ⟨⟩
      exact Text.isLower_toUpper c

lemma isCapital_identifier (reserved : List String) (raw : String) :
    IsCapital (identifier reserved raw) := by
  have hlowLine : Char.isLower '_' = false := by decide
  have hwords := head?_flatMap_capitalize (words (stem (fileName (Text.trim raw.toList))))
  unfold identifier
  dsimp only
  split
  · rintro c ⟨⟩
    exact hlowLine
  · split_ifs
    · simp [IsCapital, hlowLine]
    · rwa [IsCapital, String.toList_ofList]

lemma Allocator.Answers.isCapital {request name : String} (h : Answers request name)
    (hidentifier : Naming.isIdentifier request = true) (hrequest : IsCapital request) :
    IsCapital name := by
  rcases h with rfl | ⟨k, -, rfl⟩
  · exact hrequest
  · obtain ⟨c, s, hname, -, -⟩ := isIdentifier_iff.mp hidentifier
    rw [IsCapital, hname] at hrequest
    rwa [IsCapital, toList_numbered, hname, List.cons_append, List.head?_cons]

/-- Characters that are no small letters differ if their small letters do. -/
lemma toLower_inj {c d : Char} (hc : c.isLower = false) (hd : d.isLower = false)
    (h : c.toLower = d.toLower) : c = d := by
  have hback {a : Char} (ha : a.isLower = false) : a.toLower.toUpper = a := by
    by_cases hupper : a.isUpper = true
    · exact Text.toUpper_toLower hupper
    · rw [Char.toLower_eq_of_not_isUpper hupper, Char.toUpper_eq_of_not_isLower (by simp [ha])]
  rw [← hback hc, h, hback hd]

lemma uncapitalize_inj {name name' : String} (h : IsCapital name) (h' : IsCapital name')
    (heq : uncapitalize name = uncapitalize name') : name = name' := by
  unfold uncapitalize at heq
  apply String.toList_inj.mp
  cases hname : name.toList with
  | nil =>
    cases hname' : name'.toList with
    | nil => rfl
    | cons d t => simp [hname, hname', ← String.toList_inj] at heq
  | cons c s =>
    cases hname' : name'.toList with
    | nil => simp [hname, hname', ← String.toList_inj] at heq
    | cons d t =>
      simp only [hname, hname', ← String.toList_inj, String.toList_ofList, List.cons.injEq] at heq
      rw [IsCapital, hname] at h
      rw [IsCapital, hname'] at h'
      rw [toLower_inj (h c rfl) (h' d rfl) heq.1, heq.2]

end Iconsmith.Naming
