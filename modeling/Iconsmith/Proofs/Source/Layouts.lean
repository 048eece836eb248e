import Iconsmith.Proofs.Naming.Segments
import Iconsmith.Source.Code

/-!
# Layouts that can be undone

Code is laid out in lines, and the lines of its text are the same again as long as none of them holds a
line feed. Lines are the same if they are the same when indented, and a block ends where a line is not
indented. Parts without commas are the same if they are the same with commas between them.
-/

namespace Iconsmith.Source

/-! ### Lines -/

section Lines

/-- The lines of a text. -/
def linesOf (text : String) : List String :=
  (text.toList.splitOn '\n').map String.ofList

/-- A text without line feeds. -/
def IsLine (line : String) : Prop :=
  '\n' ∉ line.toList

instance : DecidablePred IsLine := fun line => inferInstanceAs (Decidable ('\n' ∉ line.toList))

variable {xs ys : List String}

lemma notMem_intercalate {c : Char} {separator : List Char} {parts : List (List Char)}
    (hseparator : c ∉ separator) (hparts : ∀ p ∈ parts, c ∉ p) :
    c ∉ separator.intercalate parts := by
  induction parts with
  | nil => simp
  | cons p parts ih =>
    obtain ⟨hp, hparts⟩ := List.forall_mem_cons.mp hparts
    rcases eq_or_ne parts [] with rfl | hne
    · simpa using hp
    · rw [List.intercalate_cons_of_ne_nil hne]
      simp [hp, hseparator, ih hparts]

lemma isLine_append {s t : String} : IsLine (s ++ t) ↔ IsLine s ∧ IsLine t := by
  simp [IsLine, not_or]

lemma isLine_intercalate {separator : String} (hseparator : IsLine separator)
    (hxs : ∀ x ∈ xs, IsLine x) : IsLine (separator.intercalate xs) := by
  rw [IsLine, String.toList_intercalate]
  exact notMem_intercalate hseparator (List.forall_mem_map.mpr hxs)

lemma isLine_of_isWord {name : String} (h : Naming.IsWord name) : IsLine name := by
  intro hmem
  have := h.2 '\n' hmem
  revert this
  decide

lemma mem_indent {line : String} (h : line ∈ xs) (hne : line ≠ "") : "    " ++ line ∈ indent xs :=
  List.mem_map.mpr ⟨line, h, if_neg (mt String.isEmpty_iff.mp hne)⟩

lemma mem_block {line : String} (head : String) (h : line ∈ xs) (hne : line ≠ "") :
    "    " ++ line ∈ block head xs :=
  List.mem_append_left _ (List.mem_cons_of_mem _ (mem_indent h hne))

lemma linesOf_textOf_append (hxs : xs ≠ []) (hys : ys ≠ []) :
    linesOf (textOf (xs ++ ys)) = linesOf (textOf xs) ++ linesOf (textOf ys) := by
  have hfeed : "\n".toList = ['\n'] := rfl
  rw [textOf, String.intercalate_append_of_ne_nil hxs hys]
  simp only [linesOf, String.toList_append, hfeed, List.append_assoc, List.singleton_append,
    List.splitOn_append_cons_self, List.map_append, textOf]

lemma linesOf_textOf (hxs : ∀ x ∈ xs, IsLine x) (hne : xs ≠ []) : linesOf (textOf xs) = xs := by
  have hlines : ∀ l ∈ xs.map String.toList, '\n' ∉ l := List.forall_mem_map.mpr hxs
  have hfeed : "\n".toList = ['\n'] := rfl
  rw [linesOf, textOf, String.toList_intercalate, hfeed,
    List.splitOn_intercalate '\n' hlines (by simpa using hne), List.map_map]
  simp [Function.comp_def]

/-- The first lines of a text are not changed by what the other lines hold. -/
lemma linesOf_textOf_lines (hxs : ∀ x ∈ xs, IsLine x) (hys : ys ≠ []) :
    linesOf (textOf (xs ++ ys)) = xs ++ linesOf (textOf ys) := by
  rcases eq_or_ne xs [] with rfl | hne
  · rfl
  · rw [linesOf_textOf_append hne hys, linesOf_textOf hxs hne]

/-- A line is among those of the text, whatever the other lines hold. -/
lemma mem_linesOf_textOf {line : String} (h : line ∈ xs) (hline : IsLine line) :
    line ∈ linesOf (textOf xs) := by
  have hone : linesOf (textOf [line]) = [line] := linesOf_textOf (by simpa using hline) (by simp)
  induction xs with
  | nil => contradiction
  | cons x xs ih =>
    rcases eq_or_ne xs [] with rfl | hne
    · rw [List.mem_singleton.mp h] at hone ⊢
      rw [hone]
      exact List.mem_singleton_self x
    · rw [← List.singleton_append, linesOf_textOf_append (by simp) hne, List.mem_append]
      rcases List.mem_cons.mp h with rfl | h
      · left
        rw [hone]
        exact List.mem_singleton_self line
      · exact Or.inr (ih h)

/-- Lists of lines with the same text are the same. -/
lemma textOf_injOn (hxs : ∀ x ∈ xs, IsLine x) (hys : ∀ y ∈ ys, IsLine y) (hxs' : xs ≠ [])
    (hys' : ys ≠ []) (h : textOf xs = textOf ys) : xs = ys := by
  rw [← linesOf_textOf hxs hxs', ← linesOf_textOf hys hys', h]

/-! ### Around a line -/

/-- There is a line more than there are line feeds. -/
lemma length_linesOf (text : String) : (linesOf text).length = text.toList.count '\n' + 1 := by
  have hsplit (s : List Char) : (s.splitOn '\n').length = s.count '\n' + 1 := by
    induction s with
    | nil => rfl
    | cons c s ih =>
      rw [List.splitOn, List.splitOnP_cons_eq_if_modifyHead, List.count_cons]
      split_ifs with hc
      · rw [List.length_cons, ← List.splitOn, ih]
      · rw [List.length_modifyHead, ← List.splitOn, ih, Nat.add_zero]
  rw [linesOf, List.length_map, hsplit]

/-- What follows the first of some texts does not depend on it. -/
lemma exists_intercalate_cons (separator : String) (xs : List String) :
    ∃ after, ∀ x, separator.intercalate (x :: xs) = x ++ after := by
  rcases eq_or_ne xs [] with rfl | hxs
  · exact ⟨"", fun x => by simp⟩
  · refine ⟨separator ++ separator.intercalate xs, fun x => ?_⟩
    rw [← List.singleton_append, String.intercalate_append_of_ne_nil (by simp) hxs,
      String.intercalate_singleton, String.append_assoc]

/-- What stands around a line in a text does not depend on it. -/
lemma exists_textOf (above below : List String) :
    ∃ before after, ∀ line, textOf (above ++ [line] ++ below) = before ++ line ++ after := by
  obtain ⟨after, hafter⟩ := exists_intercalate_cons "\n" below
  rcases eq_or_ne above [] with rfl | habove
  · exact ⟨"", after, fun line => by simpa [textOf] using hafter line⟩
  · refine ⟨textOf above ++ "\n", after, fun line => ?_⟩
    rw [List.append_assoc, List.singleton_append, textOf,
      String.intercalate_append_of_ne_nil habove (List.cons_ne_nil line below), hafter]
    simp only [textOf, String.append_assoc]

/-- Another line in the place of a line leaves as many lines. -/
lemma length_linesOf_append {line line' : String} (hline : IsLine line) (hline' : IsLine line')
    (before after : String) : (linesOf (before ++ line ++ after)).length
      = (linesOf (before ++ line' ++ after)).length := by
  simp only [length_linesOf, String.toList_append, List.count_append,
    List.count_eq_zero_of_not_mem hline, List.count_eq_zero_of_not_mem hline']

end Lines

/-! ### Separators -/

/-- A text can be cut in one place only where a character stands for the first time. -/
lemma append_cons_inj {α : Type} {a : α} {xs ys s t : List α} (hxs : a ∉ xs) (hys : a ∉ ys)
    (h : xs ++ a :: s = ys ++ a :: t) : xs = ys ∧ s = t := by
  induction xs generalizing ys with
  | nil =>
    cases ys with
    | nil => exact ⟨rfl, (List.cons.inj h).2⟩
    | cons y ys =>
      obtain ⟨rfl, -⟩ := List.cons.inj h
      exact absurd List.mem_cons_self hys
  | cons x xs ih =>
    cases ys with
    | nil =>
      obtain ⟨rfl, -⟩ := List.cons.inj h
      exact absurd List.mem_cons_self hxs
    | cons y ys =>
      obtain ⟨rfl, htail⟩ := List.cons.inj h
      obtain ⟨rfl, rfl⟩ := ih (List.not_mem_of_not_mem_cons hxs)
        (List.not_mem_of_not_mem_cons hys) htail
      exact ⟨rfl, rfl⟩

/-- A text without commas. -/
def IsPart (s : String) : Prop :=
  ',' ∉ s.toList

instance : DecidablePred IsPart := fun s => inferInstanceAs (Decidable (',' ∉ s.toList))

variable {xs ys : List String}

lemma commaList_cons {x : String} (hne : xs ≠ []) :
    commaList (x :: xs) = x ++ ", " ++ commaList xs := by
  obtain ⟨y, ys, rfl⟩ := List.exists_cons_of_ne_nil hne
  rw [commaList, String.intercalate_cons_cons, commaList]

lemma commaList_singleton (x : String) : commaList [x] = x :=
  String.intercalate_singleton

lemma toList_commaList_cons {x : String} (hne : xs ≠ []) :
    (commaList (x :: xs)).toList = x.toList ++ ',' :: ' ' :: (commaList xs).toList := by
  rw [commaList_cons hne]
  simp

/-- The parts of a list are those between the commas. -/
lemma commaList_inj (hxs : ∀ x ∈ xs, IsPart x) (hys : ∀ y ∈ ys, IsPart y) (hxs₀ : xs ≠ [])
    (hys₀ : ys ≠ []) (h : commaList xs = commaList ys) : xs = ys := by
  induction xs generalizing ys with
  | nil => contradiction
  | cons x xs ih =>
    obtain ⟨y, ys, rfl⟩ := List.exists_cons_of_ne_nil hys₀
    obtain ⟨hx, hrest⟩ := List.forall_mem_cons.mp hxs
    obtain ⟨hy, hrest'⟩ := List.forall_mem_cons.mp hys
    rcases eq_or_ne xs [] with rfl | hne <;> rcases eq_or_ne ys [] with rfl | hne'
    · simpa [commaList_singleton] using h
    · rw [commaList_singleton] at h
      rw [IsPart, h, toList_commaList_cons hne'] at hx
      simp at hx
    · rw [commaList_singleton] at h
      rw [IsPart, ← h, toList_commaList_cons hne] at hy
      simp at hy
    · have h := congrArg String.toList h
      rw [toList_commaList_cons hne, toList_commaList_cons hne'] at h
      obtain ⟨hhead, htail⟩ := append_cons_inj hx hy h
      have heq := ih hrest hrest' hne hne' (String.toList_inj.mp (List.cons.inj htail).2)
      rw [String.toList_inj.mp hhead, heq]

/-- What follows a text in a list of texts. -/
def afterText (xs : List String) : List Char :=
  if xs = [] then [] else ',' :: ' ' :: (commaList xs).toList

lemma toList_commaList (x : String) (xs : List String) :
    (commaList (x :: xs)).toList = x.toList ++ afterText xs := by
  unfold afterText
  split_ifs with hnil
  · rw [hnil, commaList_singleton, List.append_nil]
  · exact toList_commaList_cons hnil

lemma afterText_inj (hxs : ∀ x ∈ xs, IsPart x) (hys : ∀ y ∈ ys, IsPart y)
    (h : afterText xs = afterText ys) : xs = ys := by
  unfold afterText at h
  split_ifs at h with hx hy hy
  · rw [hx, hy]
  · simp only [List.cons.injEq, true_and, String.toList_inj] at h
    exact commaList_inj hxs hys hx hy h

/-! ### Lines -/

lemma indent_cons {x : String} (hx : x ≠ "") : indent (x :: xs) = ("    " ++ x) :: indent xs := by
  simp [indent, hx]

lemma indent_injective : Function.Injective indent := by
  refine List.map_injective_iff.mpr fun x y h => ?_
  by_cases hx : x = "" <;> by_cases hy : y = ""
  · rw [hx, hy]
  · subst hx
    simp [hy] at h
  · subst hy
    simp [hx] at h
  · simpa [hx, hy] using h

lemma isLine_indent (h : ∀ x ∈ xs, IsLine x) : ∀ x ∈ indent xs, IsLine x := by
  refine List.forall_mem_map.mpr fun x hx => ?_
  by_cases hempty : x.isEmpty = true
  · simpa [hempty] using h x hx
  · have hblanks : IsLine "    " := by decide
    simpa [hempty, isLine_append, hblanks] using h x hx

lemma isLine_block {head : String} (hhead : IsLine head) (h : ∀ x ∈ xs, IsLine x) :
    ∀ x ∈ block head xs, IsLine x := by
  have hopen : IsLine (head ++ " \x7b") := isLine_append.mpr ⟨hhead, by decide⟩
  refine List.forall_mem_append.mpr ⟨List.forall_mem_cons.mpr ⟨hopen, isLine_indent h⟩, ?_⟩
  decide

lemma isLine_commaList (h : ∀ x ∈ xs, IsLine x) : IsLine (commaList xs) :=
  isLine_intercalate (by decide) h

lemma block_injective (head : String) : Function.Injective (block head) := by
  intro xs ys h
  exact indent_injective (List.append_cancel_right (List.cons.inj h).2)

/-- Lines that all hold something. -/
def Filled (lines : List String) : Prop :=
  ∀ l ∈ lines, l ≠ "" ∧ IsLine l

instance : DecidablePred Filled := fun lines => inferInstanceAs (Decidable (∀ l ∈ lines, _))

lemma Filled.ne_empty (h : Filled xs) : ∀ x ∈ xs, x ≠ "" :=
  fun x hx => (h x hx).1

lemma Filled.isLine (h : Filled xs) : ∀ x ∈ xs, IsLine x :=
  fun x hx => (h x hx).2

lemma filled_append : Filled (xs ++ ys) ↔ Filled xs ∧ Filled ys :=
  List.forall_mem_append

lemma filled_cons {x : String} : Filled (x :: xs) ↔ (x ≠ "" ∧ IsLine x) ∧ Filled xs :=
  List.forall_mem_cons

lemma Filled.indent (h : Filled xs) : Filled (indent xs) := by
  intro l hl
  refine ⟨?_, isLine_indent h.isLine l hl⟩
  obtain ⟨x, hx, rfl⟩ := List.mem_map.mp hl
  simp [h.ne_empty x hx]

/-- A line that ends a block: it does not begin with a blank. -/
def EndsBlock (line : String) : Prop :=
  line.toList.head? ≠ some ' '

instance : DecidablePred EndsBlock :=
  fun line => inferInstanceAs (Decidable (line.toList.head? ≠ some ' '))

/-- Lines that are not empty are all indented, so a block ends at the first line that is not. -/
lemma indent_append_inj {line line' : String} {s t : List String} (hxs : ∀ x ∈ xs, x ≠ "")
    (hys : ∀ y ∈ ys, y ≠ "") (hline : EndsBlock line) (hline' : EndsBlock line')
    (h : indent xs ++ line :: s = indent ys ++ line' :: t) : xs = ys ∧ line = line' ∧ s = t := by
  have hblank (x : String) : ¬ EndsBlock ("    " ++ x) := by
    simp [EndsBlock]
  induction xs generalizing ys with
  | nil =>
    cases ys with
    | nil =>
      obtain ⟨rfl, rfl⟩ := List.cons.inj h
      exact ⟨rfl, rfl, rfl⟩
    | cons y ys =>
      rw [indent_cons (hys y List.mem_cons_self)] at h
      obtain ⟨rfl, -⟩ := List.cons.inj h
      exact absurd hline (hblank y)
  | cons x xs ih =>
    obtain ⟨hx, hxs⟩ := List.forall_mem_cons.mp hxs
    rw [indent_cons hx] at h
    cases ys with
    | nil =>
      obtain ⟨rfl, -⟩ := List.cons.inj h
      exact absurd hline' (hblank x)
    | cons y ys =>
      obtain ⟨hy, hys⟩ := List.forall_mem_cons.mp hys
      rw [indent_cons hy] at h
      obtain ⟨hhead, htail⟩ := List.cons.inj h
      obtain ⟨rfl, rfl, rfl⟩ := ih hxs hys htail
      obtain rfl := (String.append_right_inj "    ").mp hhead
      exact ⟨rfl, rfl, rfl⟩

end Iconsmith.Source
