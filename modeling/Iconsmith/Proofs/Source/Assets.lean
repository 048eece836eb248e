import Iconsmith.Proofs.Source.Layouts
import Iconsmith.Proofs.Source.Places
import Iconsmith.Proofs.Text.Runs

/-!
# Expressions for lists of icons

The accessor of a group has an expression for the list of all its icons, which is a sum: one summand
lists the icons of the group itself, and each of the others refers to the list of a group below. A
reader that knows only how a framework writes lists finds the summands in the text again.
-/

namespace Iconsmith.Source

/-- A summand of the expression for a list of icons. -/
inductive AssetsPart where
  /-- The icons of the group itself, as the accessor names them. -/
  | own (items : List String)
  /-- The list of a group below, by the name of that group. -/
  | below (child : String)
  deriving DecidableEq, Repr

/-- A summand with something in it, made of names. -/
def AssetsPart.Plain : AssetsPart → Prop
  | own items => items ≠ [] ∧ ∀ i ∈ items, i ≠ "" ∧ ∀ c ∈ i.toList, c ∉ [' ', '+', ',']
  | below child => Naming.IsWord child

/-- How a framework writes lists. -/
structure AssetsStyle where
  opening : String
  closing : Char
  /-- The list without items. -/
  nothing : String
  /-- The property that lists all icons of a group. -/
  reference : String

namespace AssetsStyle

variable (s : AssetsStyle)

/-! ### Writing -/

/-- The text of a summand. -/
def partText : AssetsPart → String
  | .own items => s.opening ++ commaList items ++ String.singleton s.closing
  | .below child => child ++ "." ++ s.reference

/-- The expression for some summands. -/
def text (parts : List AssetsPart) : String :=
  if parts.isEmpty then s.nothing else " + ".intercalate (parts.map s.partText)

/-! ### Reading -/

/-- The items between commas. -/
def readItems (inside : List Char) : List String :=
  if inside.isEmpty then [] else (inside.splitOn ',').map String.ofList

/-- Reads a summand without spaces. -/
def readPart? (part : List Char) : Option AssetsPart :=
  match Text.dropLeading? s.opening.toList part with
  | some inside =>
    if inside.getLast? = some s.closing then some (.own (readItems inside.dropLast)) else none
  | none =>
    if part = s.nothing.toList then some (.own [])
    else
      match part.splitOn '.' with
      | [child, reference] =>
        if reference = s.reference.toList then some (.below (String.ofList child)) else none
      | _ => none

/-- Reads the summands of an expression, in which spaces do not count. -/
def read? (expression : List Char) : Option (List AssetsPart) :=
  ((expression.filter (· ≠ ' ')).splitOn '+').mapM s.readPart?

/-! ### Reading what was written -/

/-- A style whose lists can be told from references. -/
structure Regular : Prop where
  opening : ∀ c ∈ s.opening.toList, c ∉ [' ', '+']
  bracket : ∃ c ∈ s.opening.toList, Naming.isSegmentChar c = false ∧ c ≠ '.'
    ∧ c ∉ s.reference.toList
  closing : s.closing ∉ [' ', '+']
  nothing : ∀ c ∈ s.nothing.toList, c ∉ [' ', '+', '.']
  empty : s.readPart? s.nothing.toList = some (.own [])
  reference : ∀ c ∈ s.reference.toList, c ∉ [' ', '+', '.']

/-- The characters of a summand but the spaces. -/
def compact : AssetsPart → List Char
  | .own items => s.opening.toList ++ [','].intercalate (items.map String.toList) ++ [s.closing]
  | .below child => child.toList ++ '.' :: s.reference.toList

lemma filter_intercalate {α : Type} (p : α → Bool) (separator : List α) (parts : List (List α)) :
    (separator.intercalate parts).filter p
      = (separator.filter p).intercalate (parts.map (·.filter p)) := by
  induction parts with
  | nil => simp
  | cons x parts ih =>
    rcases eq_or_ne parts [] with rfl | hne
    · simp
    · rw [List.intercalate_cons_of_ne_nil hne, List.map_cons,
        List.intercalate_cons_of_ne_nil (by simpa using hne), List.filter_append,
        List.filter_append, ih]

variable {s} {p : AssetsPart}

lemma filter_partText (hs : s.Regular) (hp : p.Plain) :
    (s.partText p).toList.filter (· ≠ ' ') = s.compact p := by
  have hkeep {t : List Char} (h : ' ' ∉ t) : t.filter (· ≠ ' ') = t := by
    refine List.filter_eq_self.mpr fun c hc => ?_
    rw [decide_eq_true_eq]
    rintro rfl
    exact h hc
  cases p with
  | own items =>
    have hopening : ' ' ∉ s.opening.toList := fun h => hs.opening _ h (by simp)
    have hclosing : ' ' ∉ [s.closing] := by
      rw [List.mem_singleton]
      rintro h
      exact hs.closing (by simp [← h])
    have hitems : (items.map String.toList).map (·.filter (· ≠ ' ')) = items.map String.toList := by
      rw [List.map_map]
      refine List.map_congr_left fun i hi => hkeep fun h => ?_
      exact (hp.2 i hi).2 ' ' h (by simp)
    have hcomma : ", ".toList.filter (· ≠ ' ') = [','] := by decide
    rw [partText, commaList, String.toList_append, String.toList_append, String.toList_intercalate,
      String.toList_singleton, List.filter_append, List.filter_append, filter_intercalate, hcomma,
      hitems, hkeep hopening, hkeep hclosing, compact]
  | below child =>
    have hword : Naming.IsWord child := hp
    have hdot : ' ' ∉ ".".toList := by decide
    have hreference : ' ' ∉ s.reference.toList := fun h => hs.reference _ h (by simp)
    have hchild : ' ' ∉ child.toList := hword.notMem (by decide)
    rw [partText, String.toList_append, String.toList_append, List.filter_append,
      List.filter_append, hkeep hchild, hkeep hdot, hkeep hreference, compact, List.append_assoc]
    rfl

lemma notMem_compact (hs : s.Regular) (hp : p.Plain) : '+' ∉ s.compact p := by
  cases p with
  | own items =>
    have hitems : '+' ∉ [','].intercalate (items.map String.toList) := by
      refine notMem_intercalate (by decide) (List.forall_mem_map.mpr fun i hi h => ?_)
      exact (hp.2 i hi).2 '+' h (by simp)
    have hopening : '+' ∉ s.opening.toList := fun h => hs.opening _ h (by simp)
    have hclosing : '+' ≠ s.closing := fun h => hs.closing (by simp [← h])
    simp [compact, hitems, hopening, hclosing]
  | below child =>
    have hword : Naming.IsWord child := hp
    have hchild : '+' ∉ child.toList := hword.notMem (by decide)
    have hreference : '+' ∉ s.reference.toList := fun h => hs.reference _ h (by simp)
    simp [compact, hchild, hreference]

lemma readItems_intercalate {items : List String} (hne : items ≠ [])
    (h : ∀ i ∈ items, i ≠ "" ∧ ',' ∉ i.toList) :
    readItems ([','].intercalate (items.map String.toList)) = items := by
  have hcommas : ∀ l ∈ items.map String.toList, ',' ∉ l :=
    List.forall_mem_map.mpr fun i hi => (h i hi).2
  have hsplit := List.splitOn_intercalate ',' hcommas (by simpa using hne)
  have hfilled : [','].intercalate (items.map String.toList) ≠ [] := by
    intro hempty
    rw [hempty] at hsplit
    obtain ⟨i, rest, rfl⟩ := List.exists_cons_of_ne_nil hne
    have hi : i.toList = [] := (List.cons.inj hsplit).1.symm
    exact (h i List.mem_cons_self).1 (String.toList_eq_nil_iff.mp hi)
  rw [readItems, if_neg (by simpa using hfilled), hsplit, List.map_map]
  simp [Function.comp_def]

lemma readPart?_compact (hs : s.Regular) (hp : p.Plain) : s.readPart? (s.compact p) = some p := by
  cases p with
  | own items =>
    have hitems : readItems ([','].intercalate (items.map String.toList)) = items :=
      readItems_intercalate hp.1 fun i hi => ⟨(hp.2 i hi).1, fun h => (hp.2 i hi).2 ',' h (by simp)⟩
    rw [readPart?, compact, List.append_assoc, Text.dropLeading?_append]
    dsimp only
    rw [List.getLast?_concat, if_pos rfl, List.dropLast_concat, hitems]
  | below child =>
    have hword : Naming.IsWord child := hp
    have hchild : '.' ∉ child.toList := hword.notMem (by decide)
    have hreference : '.' ∉ s.reference.toList := fun h => hs.reference _ h (by simp)
    have hopening : Text.dropLeading? s.opening.toList (s.compact (.below child)) = none := by
      obtain ⟨c, hc, hsegment, hdot, href⟩ := hs.bracket
      refine Text.dropLeading?_eq_none ⟨c, hc, ?_⟩
      simp [compact, hword.notMem hsegment, hdot, href]
    have hnothing : s.compact (.below child) ≠ s.nothing.toList := by
      intro h
      exact hs.nothing '.' (by simp [← h, compact]) (by simp)
    have hsplit : (s.compact (.below child)).splitOn '.' = [child.toList, s.reference.toList] := by
      have hparts : ∀ l ∈ [child.toList, s.reference.toList], '.' ∉ l := by
        simp [hchild, hreference]
      have := List.splitOn_intercalate '.' hparts (by simp)
      simpa [compact, List.intercalate] using this
    rw [readPart?, hopening]
    dsimp only
    rw [if_neg hnothing, hsplit]
    simp

/-- The summands of an expression are those that it was written from. Without any it is the list
without items. -/
lemma read?_text (hs : s.Regular) {parts : List AssetsPart} (hparts : ∀ p ∈ parts, p.Plain) :
    s.read? (s.text parts).toList = some (if parts.isEmpty then [.own []] else parts) := by
  unfold read? text
  by_cases hempty : parts.isEmpty = true
  · have hkeep : s.nothing.toList.filter (· ≠ ' ') = s.nothing.toList := by
      refine List.filter_eq_self.mpr fun c hc => ?_
      have := hs.nothing c hc
      simp only [List.mem_cons, not_or] at this
      simp [this.1]
    have hsplit : s.nothing.toList.splitOn '+' = [s.nothing.toList] :=
      List.splitOn_eq_singleton fun h => hs.nothing _ h (by simp)
    rw [if_pos hempty, if_pos hempty, hkeep, hsplit, List.mapM_cons, hs.empty]
    rfl
  · have hne : parts ≠ [] := by simpa using hempty
    have hplus : " + ".toList.filter (· ≠ ' ') = ['+'] := by decide
    have hcompact : ((parts.map s.partText).map String.toList).map (·.filter (· ≠ ' '))
        = parts.map s.compact := by
      rw [List.map_map, List.map_map]
      exact List.map_congr_left fun p hp => filter_partText hs (hparts p hp)
    have hsplit : (['+'].intercalate (parts.map s.compact)).splitOn '+' = parts.map s.compact :=
      List.splitOn_intercalate '+'
        (List.forall_mem_map.mpr fun p hp => notMem_compact hs (hparts p hp)) (by simpa using hne)
    rw [if_neg hempty, if_neg hempty, String.toList_intercalate, filter_intercalate, hplus, hcompact,
      hsplit, List.mapM_map]
    have hmap : parts.mapM (s.readPart? ∘ s.compact) = some (parts.map id) :=
      mapM_eq_pure fun p hp => readPart?_compact hs (hparts p hp)
    rwa [List.map_id] at hmap

/-- The expression begins with its first summand. -/
lemma text_cons (p : AssetsPart) (parts : List AssetsPart) :
    ∃ rest, s.text (p :: parts) = s.partText p ++ rest := by
  rw [text, if_neg (by simp), List.map_cons]
  cases parts with
  | nil => exact ⟨"", by simp⟩
  | cons q parts =>
    refine ⟨" + " ++ " + ".intercalate ((q :: parts).map s.partText), ?_⟩
    apply String.toList_inj.mp
    simp only [String.toList_append, String.toList_intercalate, List.map_cons]
    rw [List.intercalate_cons_cons, List.append_assoc]

lemma isLine_text (hnothing : IsLine s.nothing) {parts : List AssetsPart}
    (hparts : ∀ p ∈ parts, IsLine (s.partText p)) : IsLine (s.text parts) := by
  unfold text
  split_ifs
  · exact hnothing
  · exact isLine_intercalate (by decide) (List.forall_mem_map.mpr hparts)

end AssetsStyle

/-! ### Lines without indentation -/

/-- Lines without the blanks at their start. -/
def trimmed (lines : List String) : List (List Char) :=
  lines.map fun l => Text.trimStart l.toList

/-- The lines of a text without the blanks at their start. -/
def trimmedLines (text : String) : List (List Char) :=
  trimmed (linesOf text)

variable {xs ys : List String}

lemma trimmedLines_textOf (hxs : ∀ x ∈ xs, IsLine x) (hne : xs ≠ []) :
    trimmedLines (textOf xs) = trimmed xs := by
  rw [trimmedLines, linesOf_textOf hxs hne]

lemma trimmed_append (xs ys : List String) : trimmed (xs ++ ys) = trimmed xs ++ trimmed ys :=
  List.map_append

lemma trimmed_cons (x : String) (xs : List String) :
    trimmed (x :: xs) = Text.trimStart x.toList :: trimmed xs := rfl

lemma trimmed_indent (xs : List String) : trimmed (indent xs) = trimmed xs := by
  rw [trimmed, indent, List.map_map]
  refine List.map_congr_left fun x _ => ?_
  have hblank : Text.isBlank ' ' = true := by decide
  dsimp only [Function.comp]
  split_ifs
  · rfl
  · simp [Text.trimStart, hblank]

lemma trimmed_block (head : String) (xs : List String) :
    trimmed (block head xs)
      = Text.trimStart (head ++ " \x7b").toList :: trimmed xs ++ [['\x7d']] := by
  have hend : trimmed ["\x7d"] = [['\x7d']] := by decide
  rw [block, List.cons_append, trimmed_cons, trimmed_append, trimmed_indent, hend]
  rfl

/-- What follows the first character that is not blank does not change it. -/
lemma head?_trimStart_append {lead : String} {c : Char} (rest : String)
    (h : (Text.trimStart lead.toList).head? = some c) :
    (Text.trimStart (lead ++ rest).toList).head? = some c := by
  have hne : (List.dropWhile Text.isBlank lead.toList).isEmpty = false := by
    rw [List.isEmpty_eq_false_iff]
    rintro hnil
    simp [Text.trimStart, hnil] at h
  rw [String.toList_append, Text.trimStart, List.dropWhile_append, hne]
  simpa [List.head?_append, Text.trimStart] using Or.inl h

lemma trimStart_cons {c : Char} {t : List Char} (h : Text.isBlank c = false) :
    Text.trimStart (c :: t) = c :: t :=
  Text.dropWhile_of_avoids (Text.avoids_cons h)

end Iconsmith.Source
