import Iconsmith.Proofs.ImageVector.Links
import Iconsmith.Proofs.Source.Assets

/-!
# Lists of image vectors

The accessor of a group keeps the list of all its icons in a variable, and the line that sets the
variable holds the expression for the list. The summands of that expression are the groups below and
then the icons of the group itself.
-/

namespace Iconsmith.ImageVector

open Source (AssetsPart AssetsStyle IsLine block indent isLine_append isLine_of_isWord linesOf
  trimmed trimmedLines)

/-- How lists of image vectors are written. -/
def assetsStyle (allAssets : String) : AssetsStyle where
  opening := "listOf("
  closing := ')'
  nothing := "emptyList()"
  reference := allAssets

/-- The summands of the list of all icons of a group. -/
def assetsParts (m : Source.Members) : List AssetsPart :=
  m.children.map .below
    ++ if m.icons.isEmpty then [] else [.own (m.icons.map fun icon => m.group.name ++ "." ++ icon)]

/-- Reads the list of all icons from the text of an accessor. -/
def assetsOf? (allAssets text : String) : Option (List AssetsPart) :=
  ((trimmedLines text).findSome? (Text.dropLeading? ("__" ++ allAssets ++ " = ").toList)).bind
    (assetsStyle allAssets).read?

/-- The icon that an item of a list stands for, in the accessor of a group. -/
def symbolOf? (group : Group) (item : String) : Option String :=
  match item.toList.splitOn '.' with
  | [object, symbol] => if object = group.name.toList then some (String.ofList symbol) else none
  | _ => none

variable {allAssets : String} {m : Source.Members}

lemma regular_assetsStyle (h : Naming.IsWord allAssets) : (assetsStyle allAssets).Regular where
  opening := by
    change ∀ c ∈ "listOf(".toList, c ∉ [' ', '+']
    decide
  bracket := by
    refine ⟨'(', ?_, by decide, by decide, h.notMem (by decide)⟩
    change '(' ∈ "listOf(".toList
    decide
  closing := by
    change ')' ∉ [' ', '+']
    decide
  nothing := by
    change ∀ c ∈ "emptyList()".toList, c ∉ [' ', '+', '.']
    decide
  empty := by
    have hopening : Text.dropLeading? "listOf(".toList "emptyList()".toList = none := by decide
    rw [AssetsStyle.readPart?, assetsStyle, hopening]
    exact if_pos rfl
  reference c hc := by
    have := h.2 c hc
    intro hmem
    simp only [List.mem_cons, List.not_mem_nil, or_false] at hmem
    rcases hmem with rfl | rfl | rfl <;> revert this <;> decide

lemma assetsExpression_eq :
    assetsExpression allAssets m = (assetsStyle allAssets).text (assetsParts m) := by
  by_cases hicons : m.icons.isEmpty = true
  · simp [assetsExpression, AssetsStyle.text, assetsParts, hicons, Function.comp_def,
      AssetsStyle.partText, assetsStyle]
  · simp [assetsExpression, AssetsStyle.text, assetsParts, hicons, Function.comp_def,
      AssetsStyle.partText, assetsStyle]

lemma plain_assetsParts (h : NamedMembers allAssets m) : ∀ p ∈ assetsParts m, p.Plain := by
  have hplain {name : String} (hname : Naming.isIdentifier name = true) {c : Char}
      (hc : c ∈ name.toList) : c ∉ [' ', '+', ','] := by
    have := (Naming.isWord_of_isIdentifier hname).2 c hc
    intro hmem
    simp only [List.mem_cons, List.not_mem_nil, or_false] at hmem
    rcases hmem with rfl | rfl | rfl <;> revert this <;> decide
  refine List.forall_mem_append.mpr ⟨List.forall_mem_map.mpr fun c hc => ?_, ?_⟩
  · exact Naming.isWord_of_isIdentifier (h.children c hc)
  · split_ifs with hempty
    · nofun
    · refine List.forall_mem_singleton.mpr ⟨by simpa using hempty, ?_⟩
      refine List.forall_mem_map.mpr fun icon hicon => ⟨?_, fun c hc => ?_⟩
      · exact fun hnil => by simpa using congrArg String.toList hnil
      · simp only [String.toList_append, List.mem_append] at hc
        rcases hc with (hc | hc) | hc
        · exact hplain h.group.name hc
        · rw [show ".".toList = ['.'] from rfl, List.mem_singleton] at hc
          rw [hc]
          decide
        · exact hplain (h.icons icon hicon) hc

/-! ### The line with the expression -/

/-- The line that sets the variable behind the list of all icons. -/
def assetsAssignment (allAssets : String) (m : Source.Members) : String :=
  "__" ++ allAssets ++ " = " ++ assetsExpression allAssets m

lemma isLine_assetsExpression (h : NamedMembers allAssets m) :
    IsLine (assetsExpression allAssets m) := by
  have hline {name : String} (hname : Naming.isIdentifier name = true) : IsLine name :=
    isLine_of_isWord (Naming.isWord_of_isIdentifier hname)
  have hdot : IsLine "." := by decide
  have hopening : IsLine "listOf(" := by decide
  have hclosing : IsLine (String.singleton ')') := by decide
  have hnothing : IsLine "emptyList()" := by decide
  rw [assetsExpression_eq]
  refine AssetsStyle.isLine_text hnothing (List.forall_mem_append.mpr ⟨?_, ?_⟩)
  · refine List.forall_mem_map.mpr fun c hc => ?_
    simp only [AssetsStyle.partText, assetsStyle, isLine_append, hline (h.children c hc), hdot,
      hline h.allAssets, and_self]
  · split_ifs
    · exact List.forall_mem_nil _
    · have hitems := Source.isLine_commaList (List.forall_mem_map.mpr fun icon hicon =>
        isLine_append.mpr ⟨isLine_append.mpr ⟨hline h.group.name, hdot⟩, hline (h.icons icon hicon)⟩)
      refine List.forall_mem_singleton.mpr ?_
      simp only [AssetsStyle.partText, assetsStyle, isLine_append, hopening, hclosing, true_and,
        and_true]
      exact hitems

lemma isLine_parentProperty (h : NamedMembers allAssets m) :
    ∀ line ∈ parentProperty m.group, IsLine line := by
  unfold parentProperty
  split
  · next p hp =>
    have hname := isLine_of_isWord (Naming.isWord_of_isIdentifier h.group.name)
    have hparent := isLine_of_isWord (Naming.isWord_of_isIdentifier (h.parent p hp).name)
    have hval : IsLine "public val " := by decide
    have hdot : IsLine "." := by decide
    have hcolon : IsLine ": " := by decide
    have hget : IsLine "    get() = " := by decide
    have hempty : IsLine "" := by decide
    simp only [List.forall_mem_cons, isLine_append, hname, hparent, hval, hdot, hcolon, hget, hempty,
      and_self, true_and]
    nofun
  · nofun

lemma isLine_accessorFile (h : NamedMembers allAssets m) :
    ∀ line ∈ (accessorFile allAssets m).lines, IsLine line := by
  have hassets := isLine_of_isWord (Naming.isWord_of_isIdentifier h.allAssets)
  have hbacking : IsLine ("__" ++ allAssets) := isLine_append.mpr ⟨by decide, hassets⟩
  have hreturn : IsLine ("return " ++ ("__" ++ allAssets) ++ "!!") :=
    isLine_append.mpr ⟨isLine_append.mpr ⟨by decide, hbacking⟩, by decide⟩
  have hif : IsLine ("if (" ++ ("__" ++ allAssets) ++ " != null)") :=
    isLine_append.mpr ⟨isLine_append.mpr ⟨by decide, hbacking⟩, by decide⟩
  have hset : IsLine ("__" ++ allAssets ++ " = " ++ assetsExpression allAssets m) :=
    isLine_append.mpr ⟨isLine_append.mpr ⟨hbacking, by decide⟩, isLine_assetsExpression h⟩
  have hvariable : IsLine ("private var " ++ ("__" ++ allAssets) ++ ": List<ImageVector>? = null") :=
    isLine_append.mpr ⟨isLine_append.mpr ⟨by decide, hbacking⟩, by decide⟩
  have hempty : ∀ line ∈ [""], IsLine line := by decide
  refine List.forall_mem_append.mpr ⟨(regular_accessorFile h).isLine_header, ?_⟩
  refine List.forall_mem_append.mpr ⟨List.forall_mem_append.mpr ⟨List.forall_mem_append.mpr
    ⟨List.forall_mem_append.mpr ⟨?_, isLine_parentProperty h⟩, ?_⟩, ?_⟩, hempty⟩
  · exact List.forall_mem_cons.mpr ⟨isLine_objectLine h.group.name, hempty⟩
  · exact List.forall_mem_cons.mpr ⟨hvariable, List.forall_mem_cons.mpr ⟨by decide,
      List.forall_mem_singleton.mpr (isLine_assetsLine h.group.name h.allAssets)⟩⟩
  · refine Source.isLine_indent (Source.isLine_block (by decide) ?_)
    refine List.forall_mem_append.mpr ⟨List.forall_mem_append.mpr ⟨?_, ?_⟩, ?_⟩
    · exact Source.isLine_block hif (List.forall_mem_singleton.mpr hreturn)
    · exact List.forall_mem_singleton.mpr hset
    · exact List.forall_mem_singleton.mpr hreturn

/-- The lines of an accessor before the one with the expression. -/
def linesBefore (allAssets : String) (m : Source.Members) : List String :=
  (accessorFile allAssets m).header
    ++ ["public object " ++ m.group.name, ""]
    ++ parentProperty m.group
    ++ ["private var " ++ ("__" ++ allAssets) ++ ": List<ImageVector>? = null", "",
      "public val " ++ m.group.name ++ "." ++ allAssets ++ ": List<ImageVector>", "get() \x7b"]
    ++ block ("if (" ++ ("__" ++ allAssets) ++ " != null)") ["return " ++ ("__" ++ allAssets) ++ "!!"]

/-- The line with the expression comes behind those, apart from how the lines are indented. -/
lemma trimmed_accessorFile : ∃ after, trimmed (accessorFile allAssets m).lines
    = trimmed (linesBefore allAssets m) ++ Text.trimStart (assetsAssignment allAssets m).toList
      :: after := by
  refine ⟨trimmed (["return " ++ ("__" ++ allAssets) ++ "!!"] ++ ["\x7d", ""]), ?_⟩
  have hend : trimmed ["\x7d", ""] = ['\x7d'] :: trimmed [""] := by decide
  have hget : Text.trimStart ("get()" ++ " \x7b").toList = Text.trimStart "get() \x7b".toList := by
    decide
  change trimmed ((accessorFile allAssets m).header ++ (accessorDraft allAssets m).lines) = _
  simp only [accessorDraft, cachedGetter, linesBefore, Source.trimmed_append, Source.trimmed_cons,
    Source.trimmed_indent, Source.trimmed_block, hend, hget, assetsAssignment, List.append_assoc,
    List.cons_append, List.nil_append]
  rfl

/-- A line that does not begin with a low line behind its indentation. -/
def BeginsElse (line : String) : Prop :=
  (Text.trimStart line.toList).head? ≠ some '_'

lemma beginsElse_append {lead : String} (rest : String)
    (h : ∃ c, (Text.trimStart lead.toList).head? = some c ∧ c ≠ '_') : BeginsElse (lead ++ rest) := by
  obtain ⟨c, hlead, hc⟩ := h
  rw [BeginsElse, Source.head?_trimStart_append rest hlead]
  simpa using hc

lemma beginsElse_empty : BeginsElse "" := by
  unfold BeginsElse
  decide

/-- No line before the one with the expression begins like it. -/
lemma head?_linesBefore (h : NamedMembers allAssets m) :
    ∀ l ∈ trimmed (linesBefore allAssets m), l.head? ≠ some '_' := by
  have hlines {lines : List String} (hall : ∀ line ∈ lines, BeginsElse line) :
      ∀ l ∈ trimmed lines, l.head? ≠ some '_' :=
    List.forall_mem_map.mpr hall
  have hval : ∃ c, (Text.trimStart "public val ".toList).head? = some c ∧ c ≠ '_' :=
    ⟨'p', by decide, by decide⟩
  have hheader : ∀ line ∈ (accessorFile allAssets m).header, BeginsElse line := by
    intro line hline
    rcases (CodeFile.mem_header (regular_accessorFile h).package).mp hline with
      rfl | rfl | ⟨n, -, rfl⟩
    · exact beginsElse_append _ ⟨'p', by decide, by decide⟩
    · exact beginsElse_empty
    · exact beginsElse_append _ ⟨'i', by decide, by decide⟩
  have hparent : ∀ line ∈ parentProperty m.group, BeginsElse line := by
    unfold parentProperty
    split
    · simp only [List.forall_mem_cons, String.append_assoc]
      refine ⟨beginsElse_append _ hval, beginsElse_append _ ⟨'g', by decide, by decide⟩,
        beginsElse_empty, nofun⟩
    · nofun
  have hfront : ∀ line ∈ ["public object " ++ m.group.name, ""], BeginsElse line := by
    simp only [List.forall_mem_cons]
    exact ⟨beginsElse_append _ ⟨'p', by decide, by decide⟩, beginsElse_empty, nofun⟩
  have hgetter : ∀ line ∈ ["private var " ++ ("__" ++ allAssets) ++ ": List<ImageVector>? = null", "",
      "public val " ++ m.group.name ++ "." ++ allAssets ++ ": List<ImageVector>", "get() \x7b"],
      BeginsElse line := by
    have hget : BeginsElse "get() \x7b" := by
      unfold BeginsElse
      decide
    simp only [List.forall_mem_cons, String.append_assoc]
    exact ⟨beginsElse_append _ ⟨'p', by decide, by decide⟩, beginsElse_empty,
      beginsElse_append _ hval, hget, nofun⟩
  have hreturn : ∀ line ∈ ["return " ++ ("__" ++ allAssets) ++ "!!"], BeginsElse line := by
    simp only [List.forall_mem_cons, String.append_assoc]
    exact ⟨beginsElse_append _ ⟨'r', by decide, by decide⟩, nofun⟩
  have hif : BeginsElse ("if (" ++ ("__" ++ allAssets) ++ " != null)" ++ " \x7b") := by
    simp only [String.append_assoc]
    exact beginsElse_append _ ⟨'i', by decide, by decide⟩
  simp only [linesBefore, Source.trimmed_append, Source.trimmed_block, List.forall_mem_append]
  refine ⟨⟨⟨⟨hlines hheader, hlines hfront⟩, hlines hparent⟩, hlines hgetter⟩, ?_⟩
  exact ⟨List.forall_mem_cons.mpr ⟨hif, hlines hreturn⟩, by decide⟩

/-- The list of all icons that is read from an accessor has the groups below and the icons of the
group as its summands. -/
lemma assetsOf?_accessorFile (h : NamedMembers allAssets m) :
    assetsOf? allAssets (accessorFile allAssets m).text
      = some (if (assetsParts m).isEmpty then [.own []] else assetsParts m) := by
  have hword := Naming.isWord_of_isIdentifier h.allAssets
  have hne : (accessorFile allAssets m).lines ≠ [] := by
    simp [CodeFile.lines, accessorFile, CodeFile.ofDraft, accessorDraft]
  obtain ⟨after, hlines⟩ := @trimmed_accessorFile allAssets m
  have hnone : (trimmed (linesBefore allAssets m)).findSome?
      (Text.dropLeading? ("__" ++ allAssets ++ " = ").toList) = none := by
    rw [List.findSome?_eq_none_iff]
    intro l hl
    rw [String.toList_append, String.toList_append]
    exact Text.dropLeading?_of_head?_ne (head?_linesBefore h l hl)
  have hsome : Text.dropLeading? ("__" ++ allAssets ++ " = ").toList
      (Text.trimStart (assetsAssignment allAssets m).toList)
        = some (assetsExpression allAssets m).toList := by
    have htrim : Text.trimStart (assetsAssignment allAssets m).toList
        = ("__" ++ allAssets ++ " = ").toList ++ (assetsExpression allAssets m).toList := by
      have hblank : Text.isBlank '_' = false := by decide
      rw [← String.toList_append, ← assetsAssignment]
      simp [assetsAssignment, Text.trimStart, hblank]
    rw [htrim]
    exact Text.dropLeading?_append _ _
  rw [assetsOf?, CodeFile.text, Source.trimmedLines_textOf (isLine_accessorFile h) hne, hlines,
    List.findSome?_append, hnone, Option.none_or, List.findSome?_cons, hsome]
  dsimp only [Option.bind]
  rw [assetsExpression_eq, AssetsStyle.read?_text (regular_assetsStyle hword) (plain_assetsParts h)]

/-! ### The property -/

/-- The property with a list of image vectors that a line declares. -/
def listProperty? (line : String) : Option String :=
  (Text.dropLeading? "public val ".toList line.toList).bind fun rest =>
    let declared := (rest.dropWhile (· ≠ '.')).drop 1
    if declared.dropWhile (· ≠ ':') = ": List<ImageVector>".toList then
      some (String.ofList (declared.takeWhile (· ≠ ':')))
    else none

/-- The properties with lists of image vectors that a text declares. -/
def listPropertiesOf (text : String) : List String :=
  (linesOf text).filterMap listProperty?

lemma listProperty?_of_head? {line : String} (h : line.toList.head? ≠ some 'p') :
    listProperty? line = none := by
  have hlead : "public val ".toList = 'p' :: "ublic val ".toList := by decide
  rw [listProperty?, hlead, Text.dropLeading?_of_head?_ne h]
  rfl

/-- Only a line that begins like a public value declares a property. -/
lemma listProperty?_of_else {lead : String} (rest : String)
    (h : lead = "package " ∨ lead = "public object " ∨ lead = "private var ") :
    listProperty? (lead ++ rest) = none := by
  have hdrop : Text.dropLeading? "public val ".toList (lead ++ rest).toList = none := by
    rcases h with rfl | rfl | rfl <;> simp [Text.dropLeading?]
  rw [listProperty?, hdrop]
  rfl

lemma listProperty?_append {name declared : String} (hname : '.' ∉ name.toList)
    (hdeclared : ':' ∉ declared.toList) (type : String) :
    listProperty? ("public val " ++ name ++ "." ++ declared ++ ":" ++ type)
      = if type = " List<ImageVector>" then some declared else none := by
  have hbut {c : Char} {t : List Char} (ht : c ∉ t) : ∀ d ∈ t, decide (d ≠ c) = true := by
    intro d hd
    rw [decide_eq_true_eq]
    rintro rfl
    exact ht hd
  have hstop {c : Char} (t : List Char) : Text.Avoids (fun d => decide (d ≠ c)) (c :: t) :=
    Text.avoids_cons (by simp)
  have hline : ("public val " ++ name ++ "." ++ declared ++ ":" ++ type).toList
      = "public val ".toList ++ (name.toList ++ '.' :: (declared.toList ++ ':' :: type.toList)) := by
    simp
  have htype : (':' :: type.toList = ": List<ImageVector>".toList)
      = (type = " List<ImageVector>") := by
    rw [← String.toList_inj]
    simp
  rw [listProperty?, hline, Text.dropLeading?_append, Option.bind_some]
  dsimp only
  rw [Text.dropWhile_append (hbut hname) (hstop _), List.drop_succ_cons, List.drop_zero,
    Text.dropWhile_append (hbut hdeclared) (hstop _), Text.takeWhile_append (hbut hdeclared) (hstop _),
    String.ofList_toList]
  simp only [htype]

lemma listProperty?_empty : listProperty? "" = none := by
  decide

lemma filterMap_listProperty?_header (h : NamedMembers allAssets m) :
    (accessorFile allAssets m).header.filterMap listProperty? = [] := by
  refine List.filterMap_eq_nil_iff.mpr fun line hline => ?_
  rcases (CodeFile.mem_header (regular_accessorFile h).package).mp hline with
    rfl | rfl | ⟨n, -, rfl⟩
  · exact listProperty?_of_else _ (Or.inl rfl)
  · exact listProperty?_empty
  · exact listProperty?_of_head? (by simp)

/-- The property with the group above is of another type than that of lists. -/
lemma filterMap_listProperty?_parent (h : NamedMembers allAssets m) :
    (parentProperty m.group).filterMap listProperty? = [] := by
  unfold parentProperty
  split
  · next p hp =>
    have hname := h.group.name
    have hparent := Naming.isWord_of_isIdentifier (h.parent p hp).name
    have hproperty := listProperty?_append (hparent.notMem (c := '.') (by decide))
      ((Naming.isWord_of_isIdentifier hname).notMem (c := ':') (by decide)) (" " ++ m.group.name)
    have htype : " " ++ m.group.name ≠ " List<ImageVector>" := by
      intro heq
      rw [(String.append_right_inj " ").mp (heq.trans (by decide : _ = " " ++ "List<ImageVector>"))]
        at hname
      exact absurd hname (by decide)
    have hline : "public val " ++ p.name ++ "." ++ m.group.name ++ ": " ++ m.group.name
        = "public val " ++ p.name ++ "." ++ m.group.name ++ ":" ++ (" " ++ m.group.name) := by
      apply String.toList_inj.mp
      simp
    rw [if_neg htype, ← hline] at hproperty
    have hget : listProperty? ("    get() = " ++ m.group.name) = none :=
      listProperty?_of_head? (by simp)
    simp [hproperty, hget, listProperty?_empty]
  · rfl

lemma filterMap_listProperty?_indent (lines : List String) :
    (indent lines).filterMap listProperty? = [] := by
  refine List.filterMap_eq_nil_iff.mpr (List.forall_mem_map.mpr fun line _ => ?_)
  split_ifs with hnone
  · rw [String.isEmpty_iff.mp hnone]
    exact listProperty?_empty
  · exact listProperty?_of_head? (by simp)

lemma listProperty?_assetsLine (h : NamedMembers allAssets m) :
    listProperty? (assetsLine m.group.name allAssets) = some allAssets := by
  have hgroup := Naming.isWord_of_isIdentifier h.group.name
  have hassets := Naming.isWord_of_isIdentifier h.allAssets
  have hproperty := listProperty?_append (hgroup.notMem (c := '.') (by decide))
    (hassets.notMem (c := ':') (by decide)) " List<ImageVector>"
  have hline : assetsLine m.group.name allAssets
      = "public val " ++ m.group.name ++ "." ++ allAssets ++ ":" ++ " List<ImageVector>" := by
    apply String.toList_inj.mp
    simp [assetsLine]
  rwa [if_pos rfl, ← hline] at hproperty

/-- The one property with a list in an accessor has the name that is chosen for it. -/
lemma listPropertiesOf_accessorFile (h : NamedMembers allAssets m) :
    listPropertiesOf (accessorFile allAssets m).text = [allAssets] := by
  have hobject := listProperty?_of_else m.group.name (Or.inr (Or.inl rfl))
  have hvariable : listProperty? ("private var " ++ ("__" ++ allAssets) ++ ": List<ImageVector>? = null")
      = none := by
    rw [String.append_assoc]
    exact listProperty?_of_else _ (Or.inr (Or.inr rfl))
  have hbody : (accessorDraft allAssets m).lines.filterMap listProperty? = [allAssets] := by
    change (["public object " ++ m.group.name, ""] ++ parentProperty m.group
      ++ ["private var " ++ ("__" ++ allAssets) ++ ": List<ImageVector>? = null", "",
        assetsLine m.group.name allAssets] ++ indent _ ++ [""]).filterMap listProperty? = _
    simp only [List.filterMap_append, List.filterMap_cons, List.filterMap_nil, hobject,
      listProperty?_empty, filterMap_listProperty?_parent h, hvariable, listProperty?_assetsLine h,
      filterMap_listProperty?_indent, List.nil_append, List.append_nil]
  have hne : (accessorFile allAssets m).lines ≠ [] := by
    simp [CodeFile.lines, accessorFile, CodeFile.ofDraft, accessorDraft]
  rw [listPropertiesOf, CodeFile.text, Source.linesOf_textOf (isLine_accessorFile h) hne,
    CodeFile.lines_eq, List.filterMap_append, filterMap_listProperty?_header h]
  exact hbody

/-- An item of the list stands for the icon that it was written for. -/
lemma symbolOf?_item {group : Group} {symbol : String} (hgroup : Naming.IsWord group.name)
    (hsymbol : Naming.IsWord symbol) : symbolOf? group (group.name ++ "." ++ symbol) = some symbol := by
  have hparts : ∀ l ∈ [group.name.toList, symbol.toList], '.' ∉ l := by
    simp [hgroup.notMem (c := '.') (by decide), hsymbol.notMem (c := '.') (by decide)]
  have hsplit := List.splitOn_intercalate '.' hparts (by simp)
  have hitem : (group.name ++ "." ++ symbol).toList
      = ['.'].intercalate [group.name.toList, symbol.toList] := by
    simp [List.intercalate]
  rw [symbolOf?, hitem, hsplit]
  simp

end Iconsmith.ImageVector
