import Iconsmith.Proofs.Source.Layouts
import Iconsmith.Proofs.Source.Places

/-!
# Headers of files of code

The header of a file is what stands before the first declaration: its package and its imports. The
header of a generated text holds the package and the imports of the `CodeFile` it was written from,
whatever the body holds.
-/

namespace Iconsmith.ImageVector

open Source (IsLine linesOf textOf)

/-! ### Packages -/

/-- The parts of a package between its points. -/
def packageParts (package : String) : List String :=
  (package.toList.splitOn '.').map String.ofList

/-- A package of words. -/
def IsPackage (package : String) : Prop :=
  ∀ d ∈ packageParts package, Naming.IsWord d

lemma isPackage_of_options {package : String} (h : Options.isPackage package = true) :
    IsPackage package := by
  intro d hd
  obtain ⟨s, hs, rfl⟩ := List.mem_map.mp hd
  exact Naming.isWord_of_isIdentifier (List.all_eq_true.mp h s hs)

lemma IsPackage.ne_empty {package : String} (h : IsPackage package) : package ≠ "" := by
  rintro rfl
  exact (h "" (by decide)).1 rfl

lemma IsPackage.isEmpty {package : String} (h : IsPackage package) : package.isEmpty = false := by
  simpa using h.ne_empty

lemma IsPackage.isLine {package : String} (h : IsPackage package) : IsLine package := by
  have hparts : ∀ s ∈ package.toList.splitOn '.', '\n' ∉ s := by
    intro s hs
    have := Source.isLine_of_isWord (h (String.ofList s) (List.mem_map_of_mem hs))
    rwa [IsLine, String.toList_ofList] at this
  have hjoined : ['.'].intercalate (package.toList.splitOn '.') = package.toList :=
    List.intercalate_splitOn '.'
  rw [IsLine, ← hjoined]
  exact Source.notMem_intercalate (by decide) hparts

lemma packageParts_joinPackage {package segment : String} (h : package ≠ "")
    (hsegment : Naming.IsWord segment) :
    packageParts (Group.joinPackage package segment) = packageParts package ++ [segment] := by
  have hempty : package.isEmpty = false := by simpa using h
  have hdot : ".".toList = ['.'] := rfl
  rw [Group.joinPackage, hempty]
  simp only [packageParts, Bool.false_eq_true, if_false, String.toList_append, hdot,
    List.append_assoc, List.singleton_append, List.splitOn_append_cons_self, List.map_append,
    List.splitOn_eq_singleton (hsegment.notMem (c := '.') (by decide)), List.map_singleton,
    String.ofList_toList]

lemma isPackage_packageOf {basePackage : String} (h : IsPackage basePackage)
    (names : List String) : IsPackage (Group.packageOf basePackage names) := by
  induction names generalizing basePackage with
  | nil => exact h
  | cons name names ih =>
    rw [Group.packageOf_cons]
    refine ih ?_
    have hsegment := Naming.isWord_packageSegment name
    unfold IsPackage
    rw [packageParts_joinPackage h.ne_empty hsegment]
    exact List.forall_mem_append.mpr ⟨h, by simpa using hsegment⟩

/-- Names below a package that has no line feed lead to one that has none. -/
lemma isLine_packageOf {basePackage : String} (h : IsLine basePackage) (names : List String) :
    IsLine (Group.packageOf basePackage names) := by
  induction names generalizing basePackage with
  | nil => exact h
  | cons name names ih =>
    rw [Group.packageOf_cons]
    refine ih ?_
    have hsegment := Source.isLine_of_isWord (Naming.isWord_packageSegment name)
    unfold Group.joinPackage
    split_ifs
    · exact hsegment
    · exact Source.isLine_append.mpr ⟨Source.isLine_append.mpr ⟨h, by decide⟩, hsegment⟩

lemma packageDirectories_of_ne_empty {package : String}
    (h : ∀ part ∈ packageParts package, part ≠ "") :
    packageDirectories package = packageParts package :=
  List.filter_eq_self.mpr fun part hpart => by simpa using h part hpart

lemma packageDirectories_eq {package : String} (h : IsPackage package) :
    packageDirectories package = packageParts package :=
  packageDirectories_of_ne_empty fun part hpart => (h part hpart).isName.nonempty

/-! ### Imports -/

lemma mem_insertName {name n : String} {names : List String} :
    n ∈ insertName name names ↔ n = name ∨ n ∈ names := by
  induction names with
  | nil => simp [insertName]
  | cons a names ih =>
    unfold insertName
    split_ifs with hlt heq
    · simp
    · simp [heq]
    · simp only [List.mem_cons, ih]
      tauto

lemma mem_sortNames {n : String} {names : List String} : n ∈ sortNames names ↔ n ∈ names := by
  induction names with
  | nil => simp [sortNames]
  | cons a names ih =>
    rw [sortNames, List.foldr_cons, mem_insertName]
    exact (or_congr_right ih).trans List.mem_cons.symm

lemma pairwise_insertName {name : String} {names : List String} (h : names.Pairwise (· < ·)) :
    (insertName name names).Pairwise (· < ·) := by
  induction names with
  | nil => exact List.pairwise_singleton _ _
  | cons a names ih =>
    obtain ⟨hhead, hrest⟩ := List.pairwise_cons.mp h
    unfold insertName
    split_ifs with hlt heq
    · refine List.pairwise_cons.mpr ⟨List.forall_mem_cons.mpr ⟨hlt, fun n hn => ?_⟩, h⟩
      exact lt_trans hlt (hhead n hn)
    · exact h
    · refine List.pairwise_cons.mpr ⟨fun n hn => ?_, ih hrest⟩
      rcases mem_insertName.mp hn with rfl | hn
      · exact lt_of_le_of_ne (not_lt.mp hlt) (Ne.symm heq)
      · exact hhead n hn

/-- The names of a list are put in order, each once. -/
lemma pairwise_sortNames (names : List String) : (sortNames names).Pairwise (· < ·) := by
  induction names with
  | nil => exact List.Pairwise.nil
  | cons a names ih => exact pairwise_insertName ih

lemma nodup_sortNames (names : List String) : (sortNames names).Nodup :=
  (pairwise_sortNames names).imp fun h => ne_of_lt h

/-! ### Headers -/

/-- Whether a line can stand before the first declaration. -/
def isHeaderLine (line : String) : Bool :=
  line.isEmpty || "package ".toList.isPrefixOf line.toList || "import ".toList.isPrefixOf line.toList

/-- The lines of a text before the first declaration. -/
def headerOf (text : String) : List String :=
  (linesOf text).takeWhile isHeaderLine

/-- A text begins with the name of its package. -/
def HasPackage (text package : String) : Prop :=
  (linesOf text).head? = some ("package " ++ package)

/-- The header of a text imports a name. -/
def Imports (text name : String) : Prop :=
  "import " ++ name ∈ headerOf text

namespace CodeFile

/-- A file with a header of lines and a body that begins with a declaration. -/
structure Regular (f : CodeFile) : Prop where
  package : IsPackage f.package
  imports : ∀ n ∈ f.imports, IsLine n
  body : ∃ first rest, f.body = first :: rest ∧ IsLine first ∧ isHeaderLine first = false

/-- A file whose header can be read from its text, if it has a package or none. -/
structure Readable (f : CodeFile) : Prop where
  package : IsLine f.package
  imports : ∀ n ∈ f.imports, IsLine n
  body : ∃ first rest, f.body = first :: rest ∧ IsLine first ∧ isHeaderLine first = false

/-- The lines of a file before its body. -/
def header (f : CodeFile) : List String :=
  (if f.package.isEmpty then [] else ["package " ++ f.package, ""])
    ++ f.imports.map ("import " ++ ·) ++ (if f.imports.isEmpty then [] else [""])

lemma lines_eq (f : CodeFile) : f.lines = f.header ++ f.body := rfl

variable {f : CodeFile}

lemma mem_header {line : String} (h : IsPackage f.package) :
    line ∈ f.header ↔ line = "package " ++ f.package ∨ line = ""
      ∨ ∃ n ∈ f.imports, "import " ++ n = line := by
  rw [header, h.isEmpty]
  by_cases himports : f.imports.isEmpty = true
  · simp [List.isEmpty_iff.mp himports]
  · simp [himports, or_comm, or_left_comm]

lemma isLine_header (hpackage : IsLine f.package) (himports : ∀ n ∈ f.imports, IsLine n) :
    ∀ line ∈ f.header, IsLine line := by
  have hword : IsLine ("package " ++ f.package) := Source.isLine_append.mpr ⟨by decide, hpackage⟩
  have hempty : IsLine "" := by decide
  refine List.forall_mem_append.mpr ⟨List.forall_mem_append.mpr ⟨?_, ?_⟩, ?_⟩
  · split_ifs <;> simp [hword, hempty]
  · exact List.forall_mem_map.mpr fun n hn =>
      Source.isLine_append.mpr ⟨by decide, himports n hn⟩
  · split_ifs <;> simp [hempty]

lemma isHeaderLine_header (f : CodeFile) : ∀ line ∈ f.header, isHeaderLine line = true := by
  have hpackage : isHeaderLine ("package " ++ f.package) = true := by
    simp [isHeaderLine, List.isPrefixOf]
  have himport (n : String) : isHeaderLine ("import " ++ n) = true := by
    simp [isHeaderLine, List.isPrefixOf]
  have hempty : isHeaderLine "" = true := by decide
  refine List.forall_mem_append.mpr ⟨List.forall_mem_append.mpr
    ⟨?_, List.forall_mem_map.mpr fun n _ => himport n⟩, ?_⟩
  · split_ifs <;> simp [hpackage, hempty]
  · split_ifs <;> simp [hempty]

lemma Regular.readable (h : f.Regular) : f.Readable :=
  ⟨h.package.isLine, h.imports, h.body⟩

lemma Regular.isLine_header (h : f.Regular) : ∀ line ∈ f.header, IsLine line :=
  CodeFile.isLine_header h.package.isLine h.imports

/-- Files with imports end their header at the first empty line after the package. -/
lemma body_eq_of_lines_eq {f f' : CodeFile} (hpackage : f.package = f'.package)
    (himports : f.imports ≠ []) (himports' : f'.imports ≠ []) (h : f.lines = f'.lines) :
    f.body = f'.body := by
  have hline (names : List String) : "" ∉ names.map ("import " ++ ·) := by
    simp
  simp only [lines, hpackage, List.isEmpty_iff, himports, himports', if_false, List.append_assoc,
    List.singleton_append] at h
  exact (Source.append_cons_inj (hline _) (hline _) (List.append_cancel_left h)).2

/-- The lines of the text begin with those of the header and the first line of the body. -/
lemma Readable.linesOf_text (h : f.Readable) :
    ∃ first others, linesOf f.text = f.header ++ first :: others ∧ isHeaderLine first = false := by
  obtain ⟨first, rest, hbody, hfirst, hheader⟩ := h.body
  have hone : ∀ line ∈ [first], IsLine line := by simpa using hfirst
  rw [text, lines_eq, Source.linesOf_textOf_lines (isLine_header h.package h.imports)
    (by simp [hbody]), hbody]
  rcases eq_or_ne rest [] with rfl | hne
  · exact ⟨first, [], by rw [Source.linesOf_textOf hone (by simp)], hheader⟩
  · rw [← List.singleton_append, Source.linesOf_textOf_lines hone hne]
    exact ⟨first, _, rfl, hheader⟩

/-- The header of the text is that of the file. -/
lemma Readable.headerOf_text (h : f.Readable) : headerOf f.text = f.header := by
  obtain ⟨first, others, hlines, hfirst⟩ := h.linesOf_text
  rw [headerOf, hlines, List.takeWhile_append_of_pos f.isHeaderLine_header, List.takeWhile_cons,
    hfirst]
  simp

lemma Regular.hasPackage (h : f.Regular) : HasPackage f.text f.package := by
  obtain ⟨first, others, hlines, -⟩ := h.readable.linesOf_text
  simp [HasPackage, hlines, header, h.package.isEmpty]

/-- The text has the lines of the body that hold no line feed. -/
lemma mem_linesOf_text {line : String} (hmem : line ∈ f.body) (hline : IsLine line) :
    line ∈ linesOf f.text :=
  Source.mem_linesOf_textOf (List.mem_append_right _ hmem) hline

/-- The text imports what the file imports, and nothing else. -/
lemma Regular.imports_iff (h : f.Regular) {n : String} : Imports f.text n ↔ n ∈ f.imports := by
  rw [Imports, h.readable.headerOf_text, mem_header h.package]
  constructor
  · rintro (heq | heq | ⟨m, hm, heq⟩)
    · have := congrArg String.toList heq
      simp at this
    · simp at heq
    · rwa [← (String.append_right_inj "import ").mp heq]
  · exact fun hn => Or.inr (Or.inr ⟨n, hn, rfl⟩)

end CodeFile

end Iconsmith.ImageVector
