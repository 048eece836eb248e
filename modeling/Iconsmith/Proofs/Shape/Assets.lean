import Iconsmith.Proofs.Naming.Identifiers
import Iconsmith.Proofs.Shape.Types
import Iconsmith.Proofs.Source.Assets

/-!
# Lists of shapes

The accessor of a group has a member for each icon, and after these a variable with the list of all
icons. The summands of its expression are the icons of the group itself, by their members, and then the
groups below. Members have different names, since symbols begin with a capital letter or a low line.
-/

namespace Iconsmith.Shape

open Naming (IsCapital IsWord isSegmentChar)
open Source (AssetsPart AssetsStyle IsLine block isLine_append trimmed trimmedLines)

/-! ### Names of members -/

/-- The member of a symbol is spelled with the characters of words, between backquotes or not. -/
lemma mem_memberName {name : String} (h : IsWord name) {c : Char}
    (hc : c ∈ (memberName name).toList) : isSegmentChar c = true ∨ c = '\x60' := by
  have hquote : "\x60".toList = ['\x60'] := rfl
  have hmember {d : Char} (hd : d ∈ (Naming.uncapitalize name).toList) : isSegmentChar d = true :=
    h.uncapitalize d hd
  unfold memberName at hc
  dsimp only at hc
  split at hc
  · simp only [String.toList_append, hquote, List.mem_append, List.mem_singleton] at hc
    rcases hc with (hc | hc) | hc
    · exact Or.inr hc
    · exact Or.inl (hmember hc)
    · exact Or.inr hc
  · exact Or.inl (hmember hc)

lemma notMem_memberName {name : String} (h : IsWord name) {c : Char}
    (hc : isSegmentChar c = false) (hquote : c ≠ '\x60') : c ∉ (memberName name).toList := by
  intro hmem
  rcases mem_memberName h hmem with hsegment | hsame
  · exact absurd (hc.symm.trans hsegment) (by decide)
  · exact hquote hsame

lemma memberName_ne_empty {name : String} (h : IsWord name) : memberName name ≠ "" := by
  unfold memberName Naming.uncapitalize
  obtain ⟨c, s, hname⟩ := List.exists_cons_of_ne_nil h.1
  rw [hname]
  dsimp only
  intro hempty
  have := congrArg String.toList hempty
  split_ifs at this <;> simp at this

/-- Members have the same name if the symbols are the same with a small letter at the start. -/
lemma memberName_eq_iff {name name' : String} (hword : IsWord name) (hword' : IsWord name') :
    memberName name = memberName name'
      ↔ Naming.uncapitalize name = Naming.uncapitalize name' := by
  have hquoted {n n' : String} (hn : IsWord n') :
      "\x60" ++ Naming.uncapitalize n ++ "\x60" ≠ Naming.uncapitalize n' := by
    intro hmember
    have hmem : '\x60' ∈ (Naming.uncapitalize n').toList := by
      rw [← hmember]
      simp
    exact absurd (hn.uncapitalize _ hmem) (by decide)
  constructor
  · intro heq
    unfold memberName at heq
    dsimp only at heq
    split_ifs at heq
    · exact (String.append_right_inj "\x60").mp ((String.append_left_inj "\x60").mp heq)
    · exact absurd heq (hquoted hword')
    · exact absurd heq.symm (hquoted hword)
    · exact heq
  · intro heq
    unfold memberName
    rw [heq]

lemma memberName_inj {name name' : String} (hword : IsWord name) (hword' : IsWord name')
    (h : IsCapital name) (h' : IsCapital name') (heq : memberName name = memberName name') :
    name = name' :=
  Naming.uncapitalize_inj h h' ((memberName_eq_iff hword hword').mp heq)

/-! ### Lists -/

/-- How lists of shapes are written. -/
def assetsStyle (allAssets : String) : AssetsStyle where
  opening := "["
  closing := ']'
  nothing := "[]"
  reference := memberName allAssets

/-- The summands of the list of all icons of a group. -/
def assetsParts (m : Source.Members) : List AssetsPart :=
  (if m.icons.isEmpty then [] else [.own (m.icons.map memberName)]) ++ m.children.map .below

/-- The line that opens the variable with the list of all icons. -/
def variableLine (allAssets : String) : String :=
  "static var " ++ memberName allAssets ++ ": [any Shape] \x7b"

/-- Reads the list of all icons from the text of an accessor: the line after the one that opens the
variable holds it. -/
def assetsOf? (allAssets text : String) : Option (List AssetsPart) :=
  ((trimmedLines text).dropWhile (· ≠ (variableLine allAssets).toList))[1]?.bind
    (assetsStyle allAssets).read?

/-- The icon that a line makes a member for, if it declares the member of that name. -/
def memberOf? (member : String) (line : List Char) : Option String :=
  (Text.dropLeading? ("static let " ++ member ++ " = ").toList line).map fun rest =>
    String.ofList (rest.takeWhile isSegmentChar)

/-- The icon that an item of the list stands for: the accessor has a member of that name. -/
def symbolOf? (text item : String) : Option String :=
  (trimmedLines text).findSome? (memberOf? item)

variable {allAssets : String} {m : Source.Members}

lemma regular_assetsStyle (h : IsWord allAssets) : (assetsStyle allAssets).Regular where
  opening := by
    change ∀ c ∈ "[".toList, c ∉ [' ', '+']
    decide
  bracket := by
    refine ⟨'[', ?_, by decide, by decide, fun hmem => ?_⟩
    · change '[' ∈ "[".toList
      decide
    · rcases mem_memberName h hmem with hc | hc <;> revert hc <;> decide
  closing := by
    change ']' ∉ [' ', '+']
    decide
  nothing := by
    change ∀ c ∈ "[]".toList, c ∉ [' ', '+', '.']
    decide
  empty := by
    have hopening : Text.dropLeading? "[".toList "[]".toList = some [']'] := by decide
    rw [AssetsStyle.readPart?, assetsStyle, hopening]
    exact if_pos rfl
  reference c hc := by
    intro hmem
    simp only [List.mem_cons, List.not_mem_nil, or_false] at hmem
    rcases mem_memberName h hc with hc | hc <;> rcases hmem with rfl | rfl | rfl <;> revert hc <;>
      decide

lemma assetsExpression_eq :
    assetsExpression allAssets m = (assetsStyle allAssets).text (assetsParts m) := by
  by_cases hicons : m.icons.isEmpty = true
  · simp [assetsExpression, AssetsStyle.text, assetsParts, hicons, Function.comp_def,
      AssetsStyle.partText, assetsStyle]
  · simp [assetsExpression, AssetsStyle.text, assetsParts, hicons, Function.comp_def,
      AssetsStyle.partText, assetsStyle]

lemma plain_assetsParts (h : Worded allAssets m) : ∀ p ∈ assetsParts m, p.Plain := by
  refine List.forall_mem_append.mpr ⟨?_, List.forall_mem_map.mpr fun c hc => h.children c hc⟩
  split_ifs with hempty
  · nofun
  · refine List.forall_mem_singleton.mpr ⟨by simpa using hempty, ?_⟩
    refine List.forall_mem_map.mpr fun icon hicon => ⟨memberName_ne_empty (h.icons icon hicon), ?_⟩
    intro c hc hmem
    simp only [List.mem_cons, List.not_mem_nil, or_false] at hmem
    rcases mem_memberName (h.icons icon hicon) hc with hc | hc <;>
      rcases hmem with rfl | rfl | rfl <;> revert hc <;> decide

/-- The expression begins with a bracket or the name of a group. -/
lemma trimStart_assetsExpression (h : Worded allAssets m) :
    Text.trimStart (assetsExpression allAssets m).toList = (assetsExpression allAssets m).toList := by
  rw [assetsExpression_eq]
  cases hparts : assetsParts m with
  | nil =>
    change Text.trimStart "[]".toList = "[]".toList
    decide
  | cons p parts =>
    obtain ⟨rest, htext⟩ := AssetsStyle.text_cons (s := assetsStyle allAssets) p parts
    have hplain := plain_assetsParts h p (by rw [hparts]; exact List.mem_cons_self)
    rw [htext]
    cases p with
    | own items =>
      simp only [AssetsStyle.partText, assetsStyle, String.append_assoc]
      rw [String.toList_append]
      exact Source.trimStart_cons (by decide)
    | below child =>
      have hword : IsWord child := hplain
      obtain ⟨c, s, hchild⟩ := List.exists_cons_of_ne_nil hword.1
      have hblank : Text.isBlank c = false :=
        Naming.isBlank_eq_false (hword.2 c (by rw [hchild]; exact List.mem_cons_self))
      simp only [AssetsStyle.partText, String.append_assoc]
      rw [String.toList_append, hchild]
      exact Source.trimStart_cons hblank

/-! ### The line with the expression -/

/-- The line of the member of an icon. -/
def memberLine (icon : String) : String :=
  "static let " ++ memberName icon ++ " = " ++ icon ++ "()"

/-- The lines of an accessor before its members. -/
def linesBefore (m : Source.Members) : List String :=
  ["import SwiftUI", ""] ++ (m.group.parent?.map fun p => extensionHead p ++ " \x7b").toList
    ++ ["enum " ++ m.group.name ++ " \x7b"]

/-- The line with the expression follows that of the variable, apart from how the lines are
indented, and nothing but braces follows that. -/
lemma trimmed_accessorLines : ∃ after, (∀ l ∈ after, l = [] ∨ l = ['\x7d']) ∧
    trimmed (accessorLines allAssets m)
      = trimmed (linesBefore m) ++ trimmed (iconMembers m.icons)
        ++ Text.trimStart (variableLine allAssets).toList
          :: Text.trimStart (assetsExpression allAssets m).toList :: after := by
  have hvariable : "static var " ++ memberName allAssets ++ ": [any Shape]" ++ " \x7b"
      = variableLine allAssets := by
    simp [variableLine, String.append_assoc]
  cases hparent : m.group.parent? with
  | none =>
    refine ⟨trimmed ["\x7d", "\x7d", ""], by decide, ?_⟩
    simp only [accessorLines, hparent, enumeration, members, linesBefore, Source.trimmed_append,
      Source.trimmed_block, Source.trimmed_cons, hvariable, Option.map_none, Option.toList_none]
    simp only [List.append_assoc, List.cons_append, List.nil_append]
    rfl
  | some p =>
    refine ⟨trimmed ["\x7d", "\x7d", "\x7d", ""], by decide, ?_⟩
    simp only [accessorLines, hparent, enumeration, members, linesBefore, Source.trimmed_append,
      Source.trimmed_block, Source.trimmed_cons, hvariable, Option.map_some, Option.toList_some,
      extensionHead]
    simp only [List.append_assoc, List.cons_append, List.nil_append]
    rfl

/-- A line that does not begin with a small s behind its indentation, as those of members do. -/
def BeginsElse (line : String) : Prop :=
  (Text.trimStart line.toList).head? ≠ some 's'

lemma beginsElse_linesBefore (m : Source.Members) : ∀ line ∈ linesBefore m, BeginsElse line := by
  have hlead {lead : String} (rest : String)
      (h : ∃ c, (Text.trimStart lead.toList).head? = some c ∧ c ≠ 's') : BeginsElse (lead ++ rest) := by
    obtain ⟨c, hc, hne⟩ := h
    rw [BeginsElse, Source.head?_trimStart_append rest hc]
    simpa using hne
  have hfront : ∀ line ∈ ["import SwiftUI", ""], BeginsElse line := by
    unfold BeginsElse
    decide
  refine List.forall_mem_append.mpr ⟨List.forall_mem_append.mpr ⟨hfront, ?_⟩, ?_⟩
  · intro line hline
    obtain ⟨p, -, rfl⟩ := Option.map_eq_some_iff.mp (Option.mem_toList.mp hline)
    rw [extensionHead, String.append_assoc]
    exact hlead _ ⟨'e', by decide, by decide⟩
  · rw [List.forall_mem_singleton, String.append_assoc]
    exact hlead _ ⟨'e', by decide, by decide⟩

lemma trimStart_static (rest : String) :
    Text.trimStart ("static " ++ rest).toList = ("static " ++ rest).toList := by
  rw [String.toList_append]
  exact Source.trimStart_cons (by decide)

lemma trimStart_variableLine (allAssets : String) :
    Text.trimStart (variableLine allAssets).toList = (variableLine allAssets).toList := by
  have hline : variableLine allAssets
      = "static " ++ ("var " ++ memberName allAssets ++ ": [any Shape] \x7b") := by
    apply String.toList_inj.mp
    simp [variableLine]
  rw [hline]
  exact trimStart_static _

lemma trimStart_memberLine (icon : String) :
    Text.trimStart (memberLine icon).toList = (memberLine icon).toList := by
  have hline : memberLine icon = "static " ++ ("let " ++ memberName icon ++ " = " ++ icon ++ "()") := by
    apply String.toList_inj.mp
    simp [memberLine]
  rw [hline]
  exact trimStart_static _

/-- An empty line follows the members of icons, if there are any. -/
lemma trimmed_iconMembers (icons : List String) : ∃ after, (∀ l ∈ after, l = []) ∧
    trimmed (iconMembers icons) = icons.map (fun icon => (memberLine icon).toList) ++ after := by
  unfold iconMembers
  split_ifs with hempty
  · refine ⟨[], nofun, ?_⟩
    rw [List.isEmpty_iff.mp hempty]
    rfl
  · refine ⟨[[]], by simp, ?_⟩
    rw [Source.trimmed_append, trimmed, List.map_map]
    congr 1
    exact List.map_congr_left fun icon _ => trimStart_memberLine icon

/-- No line before the variable opens it. -/
lemma ne_variableLine (allAssets : String) (m : Source.Members) {l : List Char}
    (hl : l ∈ trimmed (linesBefore m) ++ trimmed (iconMembers m.icons)) :
    l ≠ (variableLine allAssets).toList := by
  obtain ⟨after, hafter, hmembers⟩ := trimmed_iconMembers m.icons
  rw [hmembers, List.mem_append, List.mem_append] at hl
  rintro rfl
  rcases hl with hl | hl | hl
  · obtain ⟨line, hline, htrim⟩ := List.mem_map.mp hl
    apply beginsElse_linesBefore m line hline
    rw [htrim]
    simp [variableLine]
  · obtain ⟨icon, -, hicon⟩ := List.mem_map.mp hl
    simp [memberLine, variableLine] at hicon
  · simpa [variableLine] using hafter _ hl

/-- The list of all icons that is read from an accessor has the icons of the group and the groups
below as its summands. -/
lemma assetsOf?_accessorLines (h : Worded allAssets m) :
    assetsOf? allAssets (Source.textOf (accessorLines allAssets m))
      = some (if (assetsParts m).isEmpty then [.own []] else assetsParts m) := by
  have hne : accessorLines allAssets m ≠ [] := List.cons_ne_nil _ _
  obtain ⟨after, -, hlines⟩ := @trimmed_accessorLines allAssets m
  have hdrop : ((trimmed (accessorLines allAssets m)).dropWhile
      (· ≠ (variableLine allAssets).toList))
        = (variableLine allAssets).toList
          :: Text.trimStart (assetsExpression allAssets m).toList :: after := by
    rw [hlines, trimStart_variableLine, List.dropWhile_append_of_pos, List.dropWhile_cons_of_neg (by simp)]
    intro l hl
    rw [decide_eq_true_eq]
    exact ne_variableLine allAssets m hl
  rw [assetsOf?, Source.trimmedLines_textOf (isLine_accessorLines h) hne, hdrop]
  dsimp only [List.getElem?_cons_succ, List.getElem?_cons_zero, Option.bind]
  rw [trimStart_assetsExpression h, assetsExpression_eq,
    AssetsStyle.read?_text (regular_assetsStyle h.allAssets) (plain_assetsParts h)]

/-! ### Members of icons -/

/-- The member that a line declares has the name that the line is read for. -/
lemma memberOf?_memberLine {icon icon' : String} (hicon : IsWord icon) (hicon' : IsWord icon')
    (hcapital : IsCapital icon) (hcapital' : IsCapital icon') :
    memberOf? (memberName icon) (memberLine icon').toList = if icon' = icon then some icon else none := by
  unfold memberOf?
  split_ifs with heq
  · subst heq
    have hline : (memberLine icon').toList
        = ("static let " ++ memberName icon' ++ " = ").toList ++ (icon'.toList ++ ['(', ')']) := by
      simp [memberLine]
    have hrest : Text.Avoids isSegmentChar ['(', ')'] := Text.avoids_cons (by decide)
    rw [hline, Text.dropLeading?_append, Option.map_some, Text.takeWhile_append hicon.2 hrest,
      String.ofList_toList]
  · rw [Option.map_eq_none_iff, Option.eq_none_iff_forall_not_mem]
    intro rest hrest
    have hspace {n : String} (hn : IsWord n) : ' ' ∉ (memberName n).toList :=
      notMem_memberName hn (by decide) (by decide)
    have hlines := Text.eq_append_of_dropLeading? hrest
    simp only [memberLine, String.toList_append, List.append_assoc, List.append_cancel_left_eq] at hlines
    obtain ⟨hnames, -⟩ := Source.append_cons_inj (hspace hicon') (hspace hicon) hlines
    exact heq (memberName_inj hicon' hicon hcapital' hcapital (String.toList_inj.mp hnames))

lemma findSome?_memberLines {icons : List String} (hword : ∀ n ∈ icons, IsWord n)
    (hcapital : ∀ n ∈ icons, IsCapital n) {icon : String} (hicon : icon ∈ icons) :
    (icons.map fun n => (memberLine n).toList).findSome? (memberOf? (memberName icon)) = some icon := by
  have hheads : ∀ n ∈ icons, memberOf? (memberName icon) (memberLine n).toList
      = if n = icon then some icon else none := fun n hn =>
    memberOf?_memberLine (hword icon hicon) (hword n hn) (hcapital icon hicon) (hcapital n hn)
  clear hword hcapital
  induction icons with
  | nil => simp at hicon
  | cons n icons ih =>
    rw [List.forall_mem_cons] at hheads
    rw [List.map_cons, List.findSome?_cons, hheads.1]
    split_ifs with heq
    · rfl
    · exact ih ((List.mem_cons.mp hicon).resolve_left fun h => heq h.symm) hheads.2

/-- The member of an icon stands for that icon. -/
lemma symbolOf?_accessorLines (h : Worded allAssets m)
    (hcapital : ∀ icon ∈ m.icons, IsCapital icon) {icon : String} (hicon : icon ∈ m.icons) :
    symbolOf? (Source.textOf (accessorLines allAssets m)) (memberName icon) = some icon := by
  have hne : accessorLines allAssets m ≠ [] := List.cons_ne_nil _ _
  obtain ⟨after, -, hlines⟩ := @trimmed_accessorLines allAssets m
  obtain ⟨blank, -, hmembers⟩ := trimmed_iconMembers m.icons
  have hbefore : (trimmed (linesBefore m)).findSome? (memberOf? (memberName icon)) = none := by
    rw [List.findSome?_eq_none_iff]
    intro l hl
    obtain ⟨line, hline, rfl⟩ := List.mem_map.mp hl
    have hlead : ("static let " ++ memberName icon ++ " = ").toList
        = 's' :: ("tatic let " ++ memberName icon ++ " = ").toList := by simp
    rw [memberOf?, hlead, Text.dropLeading?_of_head?_ne (beginsElse_linesBefore m line hline)]
    rfl
  rw [symbolOf?, Source.trimmedLines_textOf (isLine_accessorLines h) hne, hlines, hmembers,
    List.findSome?_append, List.findSome?_append, List.findSome?_append, hbefore,
    findSome?_memberLines h.icons hcapital hicon]
  rfl

end Iconsmith.Shape
