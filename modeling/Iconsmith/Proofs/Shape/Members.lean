import Iconsmith.Proofs.Shape.Assets

/-!
# Members of accessors

The enumeration of a group declares a constant for each icon and a variable with the list of all icons.
The constants have different names, but the name of the variable is chosen with the options and does
not keep away from them: an icon takes it just if both are the same with a small letter at the start.
-/

namespace Iconsmith.Shape

open Naming (IsCapital IsWord)
open Source (AssetsPart AssetsStyle trimmed trimmedLines)

/-! ### Declared names -/

/-- The name that a line declares: what stands between an opening and a character behind the name. -/
def declared? (opening : String) (stop : Char) (line : List Char) : Option String :=
  (Text.dropLeading? opening.toList line).map fun rest => String.ofList (rest.takeWhile (· ≠ stop))

/-- The constant that a line declares. -/
def constantOf? (line : List Char) : Option String :=
  declared? "static let " ' ' line

/-- The variable that a line declares. -/
def variableOf? (line : List Char) : Option String :=
  declared? "static var " ':' line

/-- The names of the members that an accessor declares. -/
def memberNamesOf (text : String) : List String :=
  (trimmedLines text).filterMap fun line => constantOf? line <|> variableOf? line

/-- The names of the variables among the members. -/
def variablesOf (text : String) : List String :=
  (trimmedLines text).filterMap variableOf?

lemma declared?_append (opening : String) {stop : Char} {name : String}
    (hname : stop ∉ name.toList) (rest : List Char) :
    declared? opening stop (opening.toList ++ (name.toList ++ stop :: rest)) = some name := by
  have htake : ∀ c ∈ name.toList, decide (c ≠ stop) = true := by
    intro c hc
    rw [decide_eq_true_eq]
    rintro rfl
    exact hname hc
  have hstop : Text.Avoids (fun c => decide (c ≠ stop)) (stop :: rest) :=
    Text.avoids_cons (by simp)
  rw [declared?, Text.dropLeading?_append, Option.map_some, Text.takeWhile_append htake hstop,
    String.ofList_toList]

lemma declared?_of_head? {opening : String} {c : Char} {lead : List Char}
    (hopening : opening.toList = c :: lead) {stop : Char} {line : List Char}
    (h : line.head? ≠ some c) : declared? opening stop line = none := by
  rw [declared?, hopening, Text.dropLeading?_of_head?_ne h]
  rfl

/-! ### Lines of members -/

section Lines

variable {line : List Char}

lemma constantOf?_of_head? (h : line.head? ≠ some 's') : constantOf? line = none :=
  declared?_of_head? rfl h

lemma variableOf?_of_head? (h : line.head? ≠ some 's') : variableOf? line = none :=
  declared?_of_head? rfl h

lemma constantOf?_memberLine {icon : String} (h : IsWord icon) :
    constantOf? (memberLine icon).toList = some (memberName icon) := by
  have hline : (memberLine icon).toList = "static let ".toList
      ++ ((memberName icon).toList ++ ' ' :: ("= " ++ icon ++ "()").toList) := by
    simp [memberLine]
  rw [hline]
  exact declared?_append "static let " (notMem_memberName h (by decide) (by decide)) _

lemma variableOf?_memberLine (icon : String) : variableOf? (memberLine icon).toList = none := by
  simp [variableOf?, declared?, memberLine, Text.dropLeading?]

lemma constantOf?_variableLine (allAssets : String) :
    constantOf? (variableLine allAssets).toList = none := by
  simp [constantOf?, declared?, variableLine, Text.dropLeading?]

lemma variableOf?_variableLine {allAssets : String} (h : IsWord allAssets) :
    variableOf? (variableLine allAssets).toList = some (memberName allAssets) := by
  have hline : (variableLine allAssets).toList = "static var ".toList
      ++ ((memberName allAssets).toList ++ ':' :: " [any Shape] \x7b".toList) := by
    simp [variableLine]
  rw [hline]
  exact declared?_append "static var " (notMem_memberName h (by decide) (by decide)) _

end Lines

/-! ### Members of a group -/

section Members

variable {allAssets : String} {m : Source.Members}

/-- The expression begins with a bracket or with the name of a group, which has a capital letter. -/
lemma head?_assetsExpression (h : Worded allAssets m) (hcapital : ∀ c ∈ m.children, IsCapital c) :
    (assetsExpression allAssets m).toList.head? ≠ some 's' := by
  rw [assetsExpression_eq]
  cases hparts : assetsParts m with
  | nil =>
    change "[]".toList.head? ≠ some 's'
    decide
  | cons p parts =>
    obtain ⟨rest, htext⟩ := AssetsStyle.text_cons (s := assetsStyle allAssets) p parts
    rw [htext]
    cases p with
    | own items => simp [AssetsStyle.partText, assetsStyle]
    | below child =>
      have hchild : child ∈ m.children := by
        have hmem : AssetsPart.below child ∈ assetsParts m := by
          rw [hparts]
          exact List.mem_cons_self
        rcases List.mem_append.mp hmem with hown | hbelow
        · split_ifs at hown <;> simp at hown
        · simpa using hbelow
      obtain ⟨c, s, hname⟩ := List.exists_cons_of_ne_nil (h.children child hchild).1
      have hfirst := hcapital child hchild
      rw [IsCapital, hname] at hfirst
      simp only [AssetsStyle.partText, String.toList_append, hname, List.cons_append,
        List.head?_cons, ne_eq, Option.some.injEq]
      rintro rfl
      exact absurd (hfirst 's' rfl) (by decide)

/-- What is read of the lines of an accessor is what is read of its members. -/
lemma filterMap_accessorLines {f : List Char → Option String}
    (hf : ∀ line : List Char, line.head? ≠ some 's' → f line = none)
    (h : Worded allAssets m) (hcapital : ∀ c ∈ m.children, IsCapital c) :
    (trimmedLines (Source.textOf (accessorLines allAssets m))).filterMap f
      = m.icons.filterMap (fun icon => f (memberLine icon).toList)
        ++ (f (variableLine allAssets).toList).toList := by
  have hne : accessorLines allAssets m ≠ [] := List.cons_ne_nil _ _
  obtain ⟨after, hafter, hlines⟩ := @trimmed_accessorLines allAssets m
  obtain ⟨blank, hblank, hmembers⟩ := trimmed_iconMembers m.icons
  have hbefore : (trimmed (linesBefore m)).filterMap f = [] := by
    refine List.filterMap_eq_nil_iff.mpr (List.forall_mem_map.mpr fun line hline => ?_)
    exact hf _ (beginsElse_linesBefore m line hline)
  have hblank : blank.filterMap f = [] := by
    refine List.filterMap_eq_nil_iff.mpr fun line hline => hf _ ?_
    rw [hblank line hline]
    nofun
  have hafter : after.filterMap f = [] := by
    refine List.filterMap_eq_nil_iff.mpr fun line hline => hf _ ?_
    rcases hafter line hline with rfl | rfl <;> decide
  have hexpression : f (assetsExpression allAssets m).toList = none :=
    hf _ (head?_assetsExpression h hcapital)
  rw [Source.trimmedLines_textOf (isLine_accessorLines h) hne, hlines, hmembers,
    trimStart_variableLine, trimStart_assetsExpression h, List.filterMap_append,
    List.filterMap_append, hbefore, List.nil_append, List.filterMap_append, hblank,
    List.append_nil, List.filterMap_map, List.filterMap_cons, List.filterMap_cons, hexpression,
    hafter]
  cases f (variableLine allAssets).toList <;> rfl

/-- An accessor declares a member for each icon, and the list of all icons. -/
lemma memberNamesOf_accessorLines (h : Worded allAssets m)
    (hcapital : ∀ c ∈ m.children, IsCapital c) :
    memberNamesOf (Source.textOf (accessorLines allAssets m))
      = m.icons.map memberName ++ [memberName allAssets] := by
  have hicons : m.icons.filterMap (fun icon =>
      constantOf? (memberLine icon).toList <|> variableOf? (memberLine icon).toList)
        = m.icons.map memberName := by
    rw [← List.filterMap_eq_map]
    refine List.filterMap_congr fun icon hicon => ?_
    rw [constantOf?_memberLine (h.icons icon hicon)]
    rfl
  rw [memberNamesOf, filterMap_accessorLines _ h hcapital, hicons, constantOf?_variableLine,
    variableOf?_variableLine h.allAssets]
  · rfl
  · intro line hline
    rw [constantOf?_of_head? hline, variableOf?_of_head? hline]
    rfl

/-- The one variable of an accessor has the name that is chosen for the list of all icons. -/
lemma variablesOf_accessorLines (h : Worded allAssets m)
    (hcapital : ∀ c ∈ m.children, IsCapital c) :
    variablesOf (Source.textOf (accessorLines allAssets m)) = [memberName allAssets] := by
  have hicons : m.icons.filterMap (fun icon => variableOf? (memberLine icon).toList) = [] :=
    List.filterMap_eq_nil_iff.mpr fun icon _ => variableOf?_memberLine icon
  rw [variablesOf, filterMap_accessorLines (fun _ => variableOf?_of_head?) h hcapital, hicons,
    variableOf?_variableLine h.allAssets]
  rfl

/-- Members of one accessor have different names just if no symbol is the same as the name of the
list, with a small letter at the start of both. -/
lemma nodup_memberNames_iff (h : Worded allAssets m) (hcapital : ∀ icon ∈ m.icons, IsCapital icon)
    (hicons : m.icons.Nodup) :
    (m.icons.map memberName).Nodup ∧ ((m.icons.map memberName ++ [memberName allAssets]).Nodup
      ↔ ∀ icon ∈ m.icons, Naming.uncapitalize icon ≠ Naming.uncapitalize allAssets) := by
  have hmembers : (m.icons.map memberName).Nodup := by
    refine List.Nodup.map_on (fun icon hicon icon' hicon' heq => ?_) hicons
    exact memberName_inj (h.icons icon hicon) (h.icons icon' hicon') (hcapital icon hicon)
      (hcapital icon' hicon') heq
  refine ⟨hmembers, ?_⟩
  rw [List.nodup_append_comm, List.singleton_append, List.nodup_cons, and_iff_left hmembers]
  constructor
  · intro hnot icon hicon heq
    apply hnot
    rw [← (memberName_eq_iff (h.icons icon hicon) h.allAssets).mpr heq]
    exact List.mem_map_of_mem hicon
  · intro hne hmem
    obtain ⟨icon, hicon, heq⟩ := List.mem_map.mp hmem
    exact hne icon hicon ((memberName_eq_iff (h.icons icon hicon) h.allAssets).mp heq)

end Members

end Iconsmith.Shape
