import Iconsmith.Proofs.ImageVector.Needs
import Iconsmith.Proofs.Source.Acceptance

/-!
# Links between files of code

Besides fixed names, the file of an icon imports the object of its group only. The accessor of a group
imports the object above, the icons of the group, the objects below and the list of icons of each.
-/

namespace Iconsmith.ImageVector

open Source (IsLine linesOf isLine_append isLine_of_isWord)

/-- The fixed names that generated code imports. -/
def apiNames : List String :=
  [typeName, "androidx.compose.ui.unit.dp", vectorName "path", vectorName "group", offsetName,
    graphicsName "SolidColor", graphicsName "Color", graphicsName "Brush", graphicsName "StrokeCap",
    graphicsName "StrokeJoin", graphicsName "PathFillType"] ++ previewImports

lemma NodeImports.mem_apiNames {m : Node Float} {n : String} (h : NodeImports m n) :
    n ∈ apiNames := by
  cases h <;> decide

lemma isLine_apiNames : ∀ n ∈ apiNames, IsLine n := by
  decide

/-! ### What a text declares -/

/-- The line that declares the object of a group. -/
def objectLine (name : String) : String :=
  "public object " ++ name

/-- The line that declares an icon of a group. -/
def iconLine (name symbol : String) : String :=
  "public val " ++ name ++ "." ++ symbol ++ ": ImageVector"

/-- The line that declares the list of all icons of a group. -/
def assetsLine (name allAssets : String) : String :=
  "public val " ++ name ++ "." ++ allAssets ++ ": List<ImageVector>"

/-- A text declares a name: as an object, or as a property of the object of one of some groups. -/
inductive Declares (groups : List String) (text : String) : String → Prop
  | object {name : String} (declared : objectLine name ∈ linesOf text) : Declares groups text name
  | icon {group symbol : String} (known : group ∈ groups)
      (declared : iconLine group symbol ∈ linesOf text) : Declares groups text symbol
  | assets {group allAssets : String} (known : group ∈ groups)
      (declared : assetsLine group allAssets ∈ linesOf text) : Declares groups text allAssets

/-! ### Icons -/

/-- The names that the code of a group is made of. -/
structure Named (group : Group) : Prop where
  package : IsPackage group.basePackage
  name : Naming.isIdentifier group.name = true

section

variable {settings : Source.Settings} {group : Group} {symbol : String} {g : Graphic Float}

lemma isPackage_groupPackage (h : Named group) : IsPackage group.groupPackage :=
  isPackage_packageOf h.package _

lemma isPackage_iconsPackage (h : Named group) : IsPackage group.iconsPackage :=
  isPackage_packageOf h.package _

lemma qualified_eq {package : String} (h : IsPackage package) (name : String) :
    qualified package name = package ++ "." ++ name := by
  simp [qualified, h.isEmpty]

lemma isLine_qualified {package name : String} (h : IsPackage package)
    (hname : Naming.isIdentifier name = true) : IsLine (package ++ "." ++ name) :=
  isLine_append.mpr ⟨isLine_append.mpr ⟨h.isLine, by decide⟩,
    isLine_of_isWord (Naming.isWord_of_isIdentifier hname)⟩

/-- The file of an icon imports fixed names and the object of its group. -/
lemma imports_iconFile {n : String} (hn : n ∈ (iconFile settings group symbol g).imports) :
    n ∈ apiNames ∨ n = group.groupPackage ++ "." ++ group.name := by
  cases mem_imports_iff.mp hn with
  | type => exact Or.inl (by decide)
  | dp => exact Or.inl (by decide)
  | object => exact Or.inr rfl
  | preview shown member => exact Or.inl (List.mem_append_right _ member)
  | node among named => exact Or.inl named.mem_apiNames

lemma isLine_imports_iconFile (hpackage : IsLine group.basePackage) (hname : IsLine group.name) :
    ∀ n ∈ (iconFile settings group symbol g).imports, IsLine n := by
  intro n hn
  rcases imports_iconFile hn with hn | rfl
  · exact isLine_apiNames n hn
  · have hpackage : IsLine group.groupPackage := isLine_packageOf hpackage _
    exact isLine_append.mpr ⟨isLine_append.mpr ⟨hpackage, by decide⟩, hname⟩

lemma isLine_iconLine {name : String} (hname : IsLine name)
    (hsymbol : Naming.isIdentifier symbol = true) : IsLine (iconLine name symbol) := by
  have hsymbol := isLine_of_isWord (Naming.isWord_of_isIdentifier hsymbol)
  have hval : IsLine "public val " := by decide
  have hdot : IsLine "." := by decide
  have htype : IsLine ": ImageVector" := by decide
  simp only [iconLine, isLine_append, hname, hsymbol, hval, hdot, htype, and_self]

lemma body_iconFile : ∃ rest,
    (iconFile settings group symbol g).body = iconLine group.name symbol :: rest :=
  ⟨_, rfl⟩

/-- Names without line feeds can be read from the header. -/
lemma readable_iconFile (hpackage : IsLine group.basePackage) (hname : IsLine group.name)
    (hsymbol : Naming.isIdentifier symbol = true) :
    (iconFile settings group symbol g).Readable where
  package := isLine_packageOf hpackage group.names
  imports := isLine_imports_iconFile hpackage hname
  body := by
    obtain ⟨rest, hbody⟩ := @body_iconFile settings group symbol g
    refine ⟨_, rest, hbody, isLine_iconLine hname hsymbol, ?_⟩
    simp [iconLine, isHeaderLine, List.isPrefixOf]

lemma Named.isLine_name (h : Named group) : IsLine group.name :=
  isLine_of_isWord (Naming.isWord_of_isIdentifier h.name)

lemma regular_iconFile (h : Named group) (hsymbol : Naming.isIdentifier symbol = true) :
    (iconFile settings group symbol g).Regular :=
  have hreadable := readable_iconFile h.package.isLine h.isLine_name hsymbol
  ⟨isPackage_iconsPackage h, hreadable.imports, hreadable.body⟩

lemma declares_icon {groups : List String} (h : Named group)
    (hsymbol : Naming.isIdentifier symbol = true) (hgroup : group.name ∈ groups) :
    Declares groups (iconFile settings group symbol g).text symbol := by
  obtain ⟨rest, hbody⟩ := @body_iconFile settings group symbol g
  refine .icon hgroup (CodeFile.mem_linesOf_text ?_ (isLine_iconLine h.isLine_name hsymbol))
  rw [hbody]
  exact List.mem_cons_self

end

/-! ### Accessors -/

/-- The names that the code of an accessor is made of. -/
structure NamedMembers (allAssets : String) (m : Source.Members) : Prop where
  group : Named m.group
  parent : ∀ p, m.group.parent? = some p → Named p
  icons : ∀ s ∈ m.icons, Naming.isIdentifier s = true
  children : ∀ c ∈ m.children, Naming.isIdentifier c = true
  allAssets : Naming.isIdentifier allAssets = true

section

variable {allAssets : String} {m : Source.Members}

/-- What the file of an accessor imports. -/
inductive AccessorImports (allAssets : String) (m : Source.Members) : String → Prop
  | type : AccessorImports allAssets m typeName
  | parent {p : Group} (above : m.group.parent? = some p) :
      AccessorImports allAssets m (p.groupPackage ++ "." ++ p.name)
  | icon {symbol : String} (member : symbol ∈ m.icons) :
      AccessorImports allAssets m (m.group.iconsPackage ++ "." ++ symbol)
  | child {name : String} (member : name ∈ m.children) :
      AccessorImports allAssets m (m.group.iconsPackage ++ "." ++ name)
  | assets (below : m.children ≠ []) :
      AccessorImports allAssets m (m.group.iconsPackage ++ "." ++ allAssets)

lemma imports_accessorFile (h : NamedMembers allAssets m) {n : String}
    (hn : n ∈ (accessorFile allAssets m).imports) : AccessorImports allAssets m n := by
  have hpackage := isPackage_iconsPackage h.group
  rw [accessorFile, CodeFile.ofDraft, mem_sortNames] at hn
  simp only [accessorDraft, accessorImports, List.mem_append, List.mem_cons, List.mem_map,
    Option.mem_toList, Option.map_eq_some_iff] at hn
  rcases hn with (((rfl | ⟨p, hp, rfl⟩) | ⟨s, hs, rfl⟩) | ⟨c, hc, rfl⟩) | hn
  · exact .type
  · rw [qualified_eq (isPackage_groupPackage (h.parent p hp))]
    exact .parent hp
  · rw [qualified_eq hpackage]
    exact .icon hs
  · rw [qualified_eq hpackage]
    exact .child hc
  · split_ifs at hn with hempty
    · contradiction
    · rw [List.mem_singleton.mp hn, qualified_eq hpackage]
      exact .assets (by simpa using hempty)

lemma isLine_accessorImports (h : NamedMembers allAssets m) {n : String}
    (hn : AccessorImports allAssets m n) : IsLine n := by
  have hpackage := isPackage_iconsPackage h.group
  cases hn with
  | type => decide
  | parent above =>
    have hparent := h.parent _ above
    exact isLine_qualified (isPackage_groupPackage hparent) hparent.name
  | icon member => exact isLine_qualified hpackage (h.icons _ member)
  | child member => exact isLine_qualified hpackage (h.children _ member)
  | assets => exact isLine_qualified hpackage h.allAssets

lemma isLine_objectLine {name : String} (h : Naming.isIdentifier name = true) :
    IsLine (objectLine name) :=
  isLine_append.mpr ⟨by decide, isLine_of_isWord (Naming.isWord_of_isIdentifier h)⟩

lemma isLine_assetsLine {name : String} (h : Naming.isIdentifier name = true)
    (hassets : Naming.isIdentifier allAssets = true) : IsLine (assetsLine name allAssets) := by
  have hname := isLine_of_isWord (Naming.isWord_of_isIdentifier h)
  have hassets := isLine_of_isWord (Naming.isWord_of_isIdentifier hassets)
  have hval : IsLine "public val " := by decide
  have hdot : IsLine "." := by decide
  have htype : IsLine ": List<ImageVector>" := by decide
  simp only [assetsLine, isLine_append, hname, hassets, hval, hdot, htype, and_self]

lemma body_accessorFile : ∃ rest, (accessorFile allAssets m).body = objectLine m.group.name :: rest
    ∧ assetsLine m.group.name allAssets ∈ rest := by
  refine ⟨_, rfl, ?_⟩
  simp [assetsLine]

lemma regular_accessorFile (h : NamedMembers allAssets m) :
    (accessorFile allAssets m).Regular where
  package := isPackage_groupPackage h.group
  imports n hn := isLine_accessorImports h (imports_accessorFile h hn)
  body := by
    obtain ⟨rest, hbody, -⟩ := @body_accessorFile allAssets m
    refine ⟨_, rest, hbody, isLine_objectLine h.group.name, ?_⟩
    simp [objectLine, isHeaderLine, List.isPrefixOf]

variable {groups : List String}

lemma declares_object (h : Named m.group) :
    Declares groups (accessorFile allAssets m).text m.group.name := by
  obtain ⟨rest, hbody, -⟩ := @body_accessorFile allAssets m
  refine .object (CodeFile.mem_linesOf_text ?_ (isLine_objectLine h.name))
  rw [hbody]
  exact List.mem_cons_self

lemma declares_assets (h : Named m.group) (hassets : Naming.isIdentifier allAssets = true)
    (hgroup : m.group.name ∈ groups) :
    Declares groups (accessorFile allAssets m).text allAssets := by
  obtain ⟨rest, hbody, hmem⟩ := @body_accessorFile allAssets m
  refine .assets hgroup (CodeFile.mem_linesOf_text ?_ (isLine_assetsLine h.name hassets))
  rw [hbody]
  exact List.mem_cons_of_mem _ hmem

end

end Iconsmith.ImageVector
