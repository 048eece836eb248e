import Iconsmith.Proofs.ImageVector.Links
import Iconsmith.Proofs.Naming.Identifiers
import Iconsmith.Proofs.Text.Runs

/-!
# Simple names of imports

Code refers to what it imports by the part of the name after the last point. The fixed names differ in
that part, so only the object of the group can meet one of them.
-/

namespace Iconsmith.ImageVector

/-! ### Reading imports -/

/-- The name that a line imports. -/
def imported? (line : String) : Option String :=
  (Text.dropLeading? "import ".toList line.toList).map String.ofList

/-- The names that the header of a text imports, line by line. -/
def importsOf (text : String) : List String :=
  (headerOf text).filterMap imported?

/-- The part of a name after its last point. -/
def simpleName (name : String) : String :=
  (packageParts name).getLastD ""

lemma imported?_import (name : String) : imported? ("import " ++ name) = some name := by
  rw [imported?, String.toList_append, Text.dropLeading?_append, Option.map_some, String.ofList_toList]

lemma imported?_package (package : String) : imported? ("package " ++ package) = none := by
  have hlead : "import ".toList = 'i' :: "mport ".toList := by decide
  rw [imported?, hlead, Text.dropLeading?_of_head?_ne (by simp)]
  rfl

/-- The imports that are read from a text are those of its file. -/
lemma CodeFile.Readable.importsOf_text {f : CodeFile} (h : f.Readable) : importsOf f.text = f.imports := by
  have hempty : imported? "" = none := by decide
  have hnames : (f.imports.map ("import " ++ ·)).filterMap imported? = f.imports := by
    rw [List.filterMap_map]
    exact (List.filterMap_congr fun n _ => imported?_import n).trans (List.filterMap_some ..)
  have hend : (if f.imports.isEmpty then [] else [""]).filterMap imported? = [] := by
    split_ifs <;> simp [hempty]
  have hpackage : (if f.package.isEmpty then [] else ["package " ++ f.package, ""]).filterMap imported?
      = [] := by
    split_ifs <;> simp [imported?_package, hempty]
  rw [importsOf, h.headerOf_text, header, List.filterMap_append, List.filterMap_append, hpackage,
    hnames, hend, List.nil_append, List.append_nil]

lemma simpleName_of_isIdentifier {name : String} (h : Naming.isIdentifier name = true) :
    simpleName name = name := by
  have hdot : '.' ∉ name.toList := (Naming.isWord_of_isIdentifier h).notMem (by decide)
  rw [simpleName, packageParts, List.splitOn_eq_singleton hdot, List.map_singleton]
  exact String.ofList_toList

/-- The package does not matter for the simple name. -/
lemma simpleName_dot (package name : String) : simpleName (package ++ "." ++ name) = simpleName name := by
  have hname : (package ++ "." ++ name).toList = package.toList ++ '.' :: name.toList := by simp
  obtain ⟨init, last, hparts⟩ : ∃ init last, packageParts name = init ++ [last] :=
    ⟨_, _, (List.dropLast_append_getLast (by simp [packageParts, List.splitOn_ne_nil])).symm⟩
  have hall : packageParts (package ++ "." ++ name) = packageParts package ++ packageParts name := by
    rw [packageParts, hname, List.splitOn_append_cons_self, List.map_append, packageParts, packageParts]
  rw [simpleName, simpleName, hall, hparts, ← List.append_assoc, List.getLastD_concat,
    List.getLastD_concat]

lemma simpleName_append {name : String} (package : String) (h : Naming.isIdentifier name = true) :
    simpleName (package ++ "." ++ name) = name := by
  rw [simpleName_dot, simpleName_of_isIdentifier h]

/-! ### Icons -/

lemma map_simpleName_apiNames :
    apiNames.map simpleName = ["ImageVector", "dp", "path", "group", "Offset", "SolidColor", "Color",
      "Brush", "StrokeCap", "StrokeJoin", "PathFillType", "Image", "Box", "padding", "Composable",
      "Modifier", "Preview"] := by
  decide +kernel

lemma nodup_simpleName_apiNames : (apiNames.map simpleName).Nodup := by
  rw [map_simpleName_apiNames]
  decide

/-- The name by which the file of an icon imports the object of the group. -/
def receiver (group : Group) : String :=
  group.groupPackage ++ "." ++ group.name

section

variable {settings : Source.Settings} {group : Group} {symbol : String} {g : Graphic Float}

lemma receiver_mem_imports (h : Named group) :
    receiver group ∈ (iconFile settings group symbol g).imports :=
  mem_imports_iff.mpr (.object (isPackage_groupPackage h).ne_empty)

/-- The imports of an icon have different simple names just if no import but that of the object of the
group has the name of the group. -/
lemma nodup_simpleNames_iff (h : Named group) :
    ((iconFile settings group symbol g).imports.map simpleName).Nodup
      ↔ ∀ n ∈ (iconFile settings group symbol g).imports,
        simpleName n = group.name → n = receiver group := by
  have hreceiver : simpleName (receiver group) = group.name := simpleName_append _ h.name
  have hmem := @receiver_mem_imports settings group symbol g h
  constructor
  · intro hnodup n hn hname
    exact List.inj_on_of_nodup_map hnodup hn hmem (hname.trans hreceiver.symm)
  · intro happart
    refine List.Nodup.map_on ?_ (nodup_sortNames _)
    intro n hn n' hn' heq
    by_cases hname : simpleName n = group.name
    · exact (happart n hn hname).trans (happart n' hn' (heq.symm.trans hname)).symm
    · have hfixed {m : String} (hm : m ∈ (iconFile settings group symbol g).imports)
          (hother : simpleName m ≠ group.name) : m ∈ apiNames := by
        refine (imports_iconFile hm).resolve_right ?_
        rintro rfl
        exact hother hreceiver
      exact List.inj_on_of_nodup_map nodup_simpleName_apiNames (hfixed hn hname)
        (hfixed hn' (heq ▸ hname)) heq

end

/-! ### Fixed names that are not reserved -/

/-- The simple names of the fixed names that a group can have although it is named after a directory. -/
def unreservedNames : List String :=
  ["StrokeCap", "StrokeJoin", "PathFillType", "Image", "Box", "Modifier"]

/-- A fixed name that begins with a capital letter is reserved, or one of those that are missing. -/
lemma mem_unreservedNames {n : String} (hn : n ∈ apiNames) (hcapital : Naming.IsCapital (simpleName n))
    (hreserved : simpleName n ∉ Source.Backend.declarativeUi.reserved) :
    simpleName n ∈ unreservedNames := by
  have hfirst : (simpleName n).toList.head?.all (fun c => !c.isLower) = true := by
    cases hhead : (simpleName n).toList.head? with
    | none => rfl
    | some c => simp [hcapital c hhead]
  have hall : ∀ s ∈ apiNames.map simpleName, s.toList.head?.all (fun c => !c.isLower) = true →
      s ∉ Source.Backend.declarativeUi.reserved → s ∈ unreservedNames := by
    rw [map_simpleName_apiNames]
    decide
  exact hall _ (List.mem_map_of_mem hn) hfirst hreserved

end Iconsmith.ImageVector
