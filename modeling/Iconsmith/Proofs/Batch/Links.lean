import Iconsmith.Proofs.Batch.Names
import Iconsmith.Proofs.Batch.Outputs
import Iconsmith.Proofs.ImageVector.Links

/-!
# Links between the files of a run

Every group of a run has an accessor, since all names in its tree can be declared. So whatever one
file of code imports from another one is declared there: by the accessor of the group above, by an icon
of the group, or by the accessor of a group below. The package of a child is that of the icons of
its parent.
-/

namespace Iconsmith.Batch

open ImageVector (Declares HasPackage Imports Named NamedMembers)

/-! ### Names of groups -/

/-- All groups of a tree have names that can be declared. -/
def Tree.Declarable (t : Tree) : Prop :=
  ∀ u ∈ t.walk, Naming.isIdentifier u.group.name = true

/-- The trees below one of a walk belong to the walk. -/
lemma Tree.mem_walk_child {t u c : Tree} (hu : u ∈ t.walk) (hc : c ∈ u.children) : c ∈ t.walk := by
  induction t using induct with
  | node g icons children ih =>
    rcases mem_walk_iff.mp hu with rfl | ⟨d, hd, hu⟩
    · exact mem_walk_of_mem hc (mem_walk_self c)
    · exact mem_walk_of_mem hd (ih d hd hu)

/-- All groups that are generated have names that can be declared if the root has. -/
lemma Workshop.generate_declarable (w : Workshop) (input : Input)
    (h : Naming.isIdentifier w.options.accessor = true) :
    (w.generate input).value.Declarable := by
  intro u hu
  rcases Tree.exists_parent hu with rfl | ⟨p, hp, hup⟩
  · rw [(w.generate_sound input).1]
    exact h
  · have hname : u.group.name ∈ p.memberNames := Tree.mem_memberNames.mpr (Or.inr ⟨u, hup, rfl⟩)
    exact (w.namesAll_generate input p hp _ hname).isIdentifier

/-! ### Links -/

/-- The names of the groups of a tree. -/
def Tree.groupNames (t : Tree) : List String :=
  t.walk.map (·.group.name)

lemma Tree.mem_groupNames {t u : Tree} (hu : u ∈ t.walk) : u.group.name ∈ t.groupNames :=
  List.mem_map_of_mem hu

/-- A name has a fixed meaning, or some file declares it in a package. -/
def Resolves (groups : List String) (files : List Source.File) (name : String) : Prop :=
  name ∈ ImageVector.apiNames
    ∨ ∃ package declared, name = package ++ "." ++ declared
      ∧ ∃ f ∈ files, HasPackage f.text package ∧ Declares groups f.text declared

/-- A file of code lies where its package says, and all that it imports can be found. -/
def Linked (groups : List String) (files : List Source.File) (f : Source.File) : Prop :=
  ∃ package, HasPackage f.text package
    ∧ f.names.dropLast = ImageVector.packageParts package
    ∧ ∀ n, Imports f.text n → Resolves groups files n

/-! ### The sources of a tree -/

/-- The icons and the accessors of a tree were generated under names that can be declared. -/
structure Compiled (w : Workshop) (t : Tree) (artifacts : List Artifact) : Prop where
  backend : w.options.backend = .declarativeUi
  package : Options.isPackage w.options.package = true
  allAssets : Naming.isIdentifier w.options.allAssets = true
  root : t.group = w.options.rootGroup
  sound : t.Sound
  declarable : t.Declarable
  generated : List.Forall₂ w.Generated t.entries artifacts

namespace Compiled

variable {w : Workshop} {t u : Tree} {artifacts : List Artifact}

/-- The files of the icons and the groups. -/
def sources (w : Workshop) (t : Tree) (artifacts : List Artifact) : List Source.File :=
  artifacts.map (·.source) ++ t.walk.filterMap w.accessor?

lemma named (h : Compiled w t artifacts) (hu : u ∈ t.walk) : Named u.group where
  package := by
    rw [h.sound.basePackage hu, h.root]
    exact ImageVector.isPackage_of_options h.package
  name := h.declarable u hu

lemma exists_of_forall₂ {α β : Type} {R : α → β → Prop} {xs : List α} {ys : List β}
    (h : List.Forall₂ R xs ys) {x : α} (hx : x ∈ xs) : ∃ y ∈ ys, R x y := by
  induction h with
  | nil => contradiction
  | @cons a b xs ys hab _ ih =>
    rcases List.mem_cons.mp hx with rfl | hx
    · exact ⟨b, List.mem_cons_self, hab⟩
    · obtain ⟨y, hy, hxy⟩ := ih hx
      exact ⟨y, List.mem_cons_of_mem b hy, hxy⟩

/-- A source is that of an icon. -/
structure OfIcon (w : Workshop) (u : Tree) (symbol : String) (g : Graphic Float)
    (f : Source.File) : Prop where
  declarable : Naming.isIdentifier symbol = true
  names : f.names.dropLast = ImageVector.packageDirectories u.group.iconsPackage
  text : f.text = (ImageVector.iconFile w.options.settings u.group symbol g).text

/-- A source is the accessor of a group. -/
structure OfGroup (w : Workshop) (u : Tree) (f : Source.File) : Prop where
  names : f.names.dropLast = ImageVector.packageDirectories u.group.groupPackage
  text : f.text = (ImageVector.accessorFile w.options.allAssets u.members).text

lemma ofIcon (h : Compiled w t artifacts) {e : Entry} {a : Artifact} (ha : w.Generated e a)
    (hgroup : u.group = e.1) : ∃ g, OfIcon w u e.2.2 g a.source := by
  obtain ⟨g, source, -, hicon, rfl⟩ := ha
  rw [Workshop.backend, h.backend] at hicon
  obtain ⟨hsymbol, hnames, htext⟩ := ImageVector.icon_eq_ok hicon
  exact ⟨g, hsymbol, hgroup ▸ hnames, hgroup ▸ htext⟩

/-- Every icon of the tree has a source. -/
lemma exists_icon (h : Compiled w t artifacts) (hu : u ∈ t.walk) {symbol : String}
    (hsymbol : symbol ∈ u.members.icons) :
    ∃ g, ∃ f ∈ sources w t artifacts, OfIcon w u symbol g f := by
  obtain ⟨⟨file, symbol⟩, hicon, rfl⟩ := List.mem_map.mp hsymbol
  have hentry : (u.group, file, symbol) ∈ t.entries := Tree.mem_entries.mpr ⟨u, hu, rfl, hicon⟩
  obtain ⟨a, ha, hgenerated⟩ := exists_of_forall₂ h.generated hentry
  obtain ⟨g, hof⟩ := h.ofIcon (u := u) hgenerated rfl
  exact ⟨g, a.source, List.mem_append_left _ (List.mem_map_of_mem ha), hof⟩

lemma isIdentifier_icons (h : Compiled w t artifacts) (hu : u ∈ t.walk) :
    ∀ s ∈ u.members.icons, Naming.isIdentifier s = true := by
  intro s hs
  obtain ⟨g, f, -, hof⟩ := h.exists_icon hu hs
  exact hof.declarable

/-- The group above that of a tree below another one is the group of that one. -/
lemma parent?_eq_some (h : Compiled w t artifacts) (hu : u ∈ t.walk) {p : Group}
    (hp : u.group.parent? = some p) : ∃ v ∈ t.walk, v.group = p := by
  rcases Tree.exists_parent hu with rfl | ⟨v, hv, hchild⟩
  · rw [h.root] at hp
    cases hp
  · refine ⟨v, hv, ?_⟩
    rw [(h.sound v hv).below u hchild] at hp
    simpa [Group.parent?, Group.child, Group.isRoot] using hp

lemma namedMembers (h : Compiled w t artifacts) (hu : u ∈ t.walk) :
    NamedMembers w.options.allAssets u.members where
  group := h.named hu
  parent := by
    intro p hp
    obtain ⟨v, hv, rfl⟩ := h.parent?_eq_some hu hp
    exact h.named hv
  icons := h.isIdentifier_icons hu
  children := by
    intro c hc
    obtain ⟨v, hv, rfl⟩ := List.mem_map.mp hc
    exact h.declarable v (Tree.mem_walk_child hu hv)
  allAssets := h.allAssets

/-- Every group of the tree has an accessor. -/
lemma accessor?_eq (h : Compiled w t artifacts) (hu : u ∈ t.walk) :
    ∃ f, w.accessor? u = some f ∧ OfGroup w u f := by
  obtain ⟨f, haccessor, hnames, htext⟩ := @ImageVector.accessor_of_isIdentifier w.options.settings
    u.members (h.named hu).name h.allAssets
  refine ⟨f, ?_, hnames, htext⟩
  rw [Workshop.accessor?, Workshop.backend, h.backend]
  exact congrArg Except.toOption haccessor

lemma exists_accessor (h : Compiled w t artifacts) (hu : u ∈ t.walk) :
    ∃ f ∈ sources w t artifacts, OfGroup w u f := by
  obtain ⟨f, hf, hof⟩ := h.accessor?_eq hu
  exact ⟨f, List.mem_append_right _ (List.mem_filterMap.mpr ⟨u, hu, hf⟩), hof⟩

/-- Every source is that of an icon or of a group of the tree. -/
lemma cases_sources (h : Compiled w t artifacts) {f : Source.File}
    (hf : f ∈ sources w t artifacts) :
    ∃ u ∈ t.walk, OfGroup w u f ∨ ∃ symbol g, OfIcon w u symbol g f := by
  rcases List.mem_append.mp hf with hf | hf
  · obtain ⟨a, ha, rfl⟩ := List.mem_map.mp hf
    obtain ⟨e, he, hgenerated⟩ := exists_of_forall₂ h.generated.flip ha
    obtain ⟨u, hu, hgroup, -⟩ := Tree.mem_entries.mp he
    obtain ⟨g, hof⟩ := h.ofIcon hgenerated hgroup
    exact ⟨u, hu, Or.inr ⟨e.2.2, g, hof⟩⟩
  · obtain ⟨u, hu, hf⟩ := List.mem_filterMap.mp hf
    obtain ⟨f', hf', hof⟩ := h.accessor?_eq hu
    obtain rfl := Option.some.inj (hf'.symm.trans hf)
    exact ⟨u, hu, Or.inl hof⟩

/-! ### Declarations -/

/-- What the accessor of a group declares is found in the package of the group. -/
lemma resolves_of_accessor (h : Compiled w t artifacts) (hu : u ∈ t.walk) {declared : String}
    (hdeclares : Declares t.groupNames
      (ImageVector.accessorFile w.options.allAssets u.members).text declared) :
    Resolves t.groupNames (sources w t artifacts)
      (u.group.groupPackage ++ "." ++ declared) := by
  obtain ⟨f, hf, hof⟩ := h.exists_accessor hu
  refine Or.inr ⟨_, _, rfl, f, hf, ?_⟩
  rw [hof.text]
  exact ⟨(ImageVector.regular_accessorFile (h.namedMembers hu)).hasPackage, hdeclares⟩

/-- The object of a group is declared by its accessor. -/
lemma resolves_object (h : Compiled w t artifacts) (hu : u ∈ t.walk) :
    Resolves t.groupNames (sources w t artifacts)
      (u.group.groupPackage ++ "." ++ u.group.name) :=
  h.resolves_of_accessor hu (ImageVector.declares_object (h.named hu))

/-- The list of all icons of a group is declared by its accessor. -/
lemma resolves_assets (h : Compiled w t artifacts) (hu : u ∈ t.walk) :
    Resolves t.groupNames (sources w t artifacts)
      (u.group.groupPackage ++ "." ++ w.options.allAssets) :=
  h.resolves_of_accessor hu
    (ImageVector.declares_assets (h.named hu) h.allAssets (Tree.mem_groupNames hu))

/-- An icon is declared by its source. -/
lemma resolves_icon (h : Compiled w t artifacts) (hu : u ∈ t.walk) {symbol : String}
    (hsymbol : symbol ∈ u.members.icons) :
    Resolves t.groupNames (sources w t artifacts) (u.group.iconsPackage ++ "." ++ symbol) := by
  obtain ⟨g, f, hf, hof⟩ := h.exists_icon hu hsymbol
  refine Or.inr ⟨_, _, rfl, f, hf, ?_⟩
  rw [hof.text]
  exact ⟨(ImageVector.regular_iconFile (h.named hu) hof.declarable).hasPackage,
    ImageVector.declares_icon (h.named hu) hof.declarable (Tree.mem_groupNames hu)⟩

/-- The package of a group below another one is that of the icons there. -/
lemma groupPackage_child (h : Compiled w t artifacts) (hu : u ∈ t.walk) {c : Tree}
    (hc : c ∈ u.children) : c.group.groupPackage = u.group.iconsPackage := by
  rw [(h.sound u hu).below c hc, Group.groupPackage_child]

/-- Whatever an accessor imports is declared. -/
lemma resolves_accessorImports (h : Compiled w t artifacts) (hu : u ∈ t.walk) {n : String}
    (hn : ImageVector.AccessorImports w.options.allAssets u.members n) :
    Resolves t.groupNames (sources w t artifacts) n := by
  cases hn with
  | type => exact Or.inl (by decide)
  | parent above =>
    obtain ⟨v, hv, rfl⟩ := h.parent?_eq_some hu above
    exact h.resolves_object hv
  | icon member => exact h.resolves_icon hu member
  | child member =>
    obtain ⟨c, hc, rfl⟩ := List.mem_map.mp member
    have := h.resolves_object (Tree.mem_walk_child hu hc)
    rwa [h.groupPackage_child hu hc] at this
  | assets below =>
    obtain ⟨name, hname⟩ := List.exists_mem_of_ne_nil _ below
    obtain ⟨c, hc, -⟩ := List.mem_map.mp hname
    have := h.resolves_assets (Tree.mem_walk_child hu hc)
    rwa [h.groupPackage_child hu hc] at this

lemma linked (h : Compiled w t artifacts) {f : Source.File} (hf : f ∈ sources w t artifacts) :
    Linked t.groupNames (sources w t artifacts) f := by
  obtain ⟨u, hu, hof | ⟨symbol, g, hof⟩⟩ := h.cases_sources hf
  · have hregular := ImageVector.regular_accessorFile (h.namedMembers hu)
    rw [Linked, hof.text, hof.names]
    refine ⟨_, hregular.hasPackage, ImageVector.packageDirectories_eq hregular.package, ?_⟩
    intro n hn
    exact h.resolves_accessorImports hu
      (ImageVector.imports_accessorFile (h.namedMembers hu) (hregular.imports_iff.mp hn))
  · have hregular := @ImageVector.regular_iconFile w.options.settings u.group symbol g
      (h.named hu) hof.declarable
    rw [Linked, hof.text, hof.names]
    refine ⟨_, hregular.hasPackage, ImageVector.packageDirectories_eq hregular.package, ?_⟩
    intro n hn
    rcases ImageVector.imports_iconFile (hregular.imports_iff.mp hn) with hn | rfl
    · exact Or.inl hn
    · exact h.resolves_object hu

end Compiled

/-! ### Runs -/

section Run

variable {σ : Type} {write : String → String → StateM σ (Except Failure Unit)}
  {normalize : FileView → String → Normalized} {files : FileView} {options : Options}
  {out : Option String} {input : Input} {s s' : σ} {log : List Log.Record} {r : Report}

lemma Workshop.Reports.compiled {w : Workshop} (h : w.Reports input r)
    (hbackend : w.options.backend = .declarativeUi)
    (hassets : Naming.isIdentifier w.options.allAssets = true) : Compiled w r.root r.artifacts where
  backend := hbackend
  package := (validate_eq_ok h.valid).1 hbackend
  allAssets := hassets
  root := h.group
  sound := h.sound
  declarable := by
    rw [h.root]
    exact w.generate_declarable input (isIdentifier_accessor h.valid)
  generated := h.generated

lemma compiled_report (hbackend : options.backend = .declarativeUi)
    (hassets : Naming.isIdentifier options.allAssets = true)
    (h : (run write normalize files options out input).run s = ((log, .ok r), s')) :
    ∃ w, w.options = options ∧ Compiled w r.root r.artifacts := by
  obtain ⟨w, rfl, hreports⟩ := exists_reports h
  exact ⟨w, rfl, hreports.compiled hbackend hassets⟩

end Run

/-- Every file of code of a run lies where its package says, and another file of the run declares
what it imports, unless that is a fixed name. -/
theorem links_resolve {σ : Type} (write : String → String → StateM σ (Except Failure Unit))
    (normalize : FileView → String → Normalized) (files : FileView) (options : Options)
    (out : String) (input : Input) (s s' : σ) (log : List Log.Record) (r : Report)
    (hbackend : options.backend = .declarativeUi)
    (hassets : Naming.isIdentifier options.allAssets = true)
    (hrun : (run write normalize files options (some out) input).run s = ((log, .ok r), s')) :
    ∀ f ∈ r.sources options, Linked r.root.groupNames (r.sources options) f := by
  intro f hf
  obtain ⟨w, rfl, hcompiled⟩ := compiled_report hbackend hassets hrun
  exact hcompiled.linked hf

/-- A directory in a directory, with a drawable in it. -/
def nestedFiles : FileView where
  isDirectory location := location = "in" || location = "in/b"
  entries location :=
    if location = "in" then .ok ["b"]
    else if location = "in/b" then .ok ["add.xml"]
    else .error .notDirectory
  bytes _ := .ok (drawing "M1 2z").toUTF8

/-- Options for image vectors from drawables. -/
def nestedOptions : Options where
  package := "p"
  inputFormat := .drawable

/-- The run over the nested directories gives an icon and two accessors. -/
lemma exists_nestedRun :
    ∃ log r s', (run (m := StateM Unit) writeNothing mixedShop.normalize nestedFiles nestedOptions
        (some "out") (.directory "in")).run () = ((log, .ok r), s')
      ∧ r.artifacts.map (fun a => (a.name, a.group, a.source.names))
        = [("Add", "Icons.b", ["p", "icons", "b", "Add.kt"])]
      ∧ (r.sources nestedOptions).map (·.names)
        = [["p", "icons", "b", "Add.kt"], ["p", "Icons.kt"], ["p", "icons", "B.kt"]] := by
  have hreport : ((run (m := StateM Unit) writeNothing mixedShop.normalize nestedFiles nestedOptions
      (some "out") (.directory "in")).run ()).1.2.toOption.map
        (fun r => (r.artifacts.map (fun a => (a.name, a.group, a.source.names)),
          (r.sources nestedOptions).map (·.names)))
      = some ([("Add", "Icons.b", ["p", "icons", "b", "Add.kt"])],
        [["p", "icons", "b", "Add.kt"], ["p", "Icons.kt"], ["p", "icons", "B.kt"]]) := by
    decide +kernel
  obtain ⟨log, r, s', hrun, hfound⟩ := exists_report hreport
  exact ⟨log, r, s', hrun, Prod.mk.inj hfound⟩

/-- The files of a run over nested directories are linked. -/
theorem links_of_nested_directories :
    ∃ log r s', (run (m := StateM Unit) writeNothing mixedShop.normalize nestedFiles nestedOptions
        (some "out") (.directory "in")).run () = ((log, .ok r), s')
      ∧ (r.sources nestedOptions).map (·.names)
        = [["p", "icons", "b", "Add.kt"], ["p", "Icons.kt"], ["p", "icons", "B.kt"]]
      ∧ ∀ f ∈ r.sources nestedOptions, Linked r.root.groupNames (r.sources nestedOptions) f := by
  obtain ⟨log, r, s', hrun, -, hnames⟩ := exists_nestedRun
  refine ⟨log, r, s', hrun, hnames, ?_⟩
  exact links_resolve writeNothing mixedShop.normalize nestedFiles nestedOptions "out"
    (.directory "in") () s' log r rfl (by decide) hrun

end Iconsmith.Batch
