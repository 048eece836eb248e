import Iconsmith.Proofs.Batch.Types
import Iconsmith.Proofs.ImageVector.Assets
import Iconsmith.Proofs.Shape.Assets

/-!
# Lists of all icons

The list of all icons of a group is spread over the accessors of the group and of those below it, which
refer to each other by the names of the groups. Read from the texts of a run, these lists are complete:
that of the root has every icon of the run once, and that of each group as many as the tree counts.
-/

namespace Iconsmith.Source

namespace Backend

/-! ### Reading accessors -/

/-- Reads the list of all icons from the text of an accessor. -/
def assetsOf? (b : Backend) (allAssets text : String) : Option (List AssetsPart) :=
  match b with
  | declarativeUi => ImageVector.assetsOf? allAssets text
  | nativeShape => Shape.assetsOf? allAssets text

/-- The icon that an item of a list stands for, in the accessor of a group with some text. -/
def symbolOf? (b : Backend) (group : Group) (text item : String) : Option String :=
  match b with
  | declarativeUi => ImageVector.symbolOf? group item
  | nativeShape => Shape.symbolOf? text item

/-- A text lists the icons of a group, if there are any, and refers to the groups below. -/
def Lists (b : Backend) (allAssets : String) (m : Members) (text : String) : Prop :=
  ∃ parts own item, b.assetsOf? allAssets text = some parts
    ∧ parts.Perm (own ++ m.children.map .below)
    ∧ (own = [] ∧ m.icons = [] ∨ own = [.own (m.icons.map item)])
    ∧ ∀ icon ∈ m.icons, b.symbolOf? m.group text (item icon) = some icon

variable {b : Backend} {m : Members}

/-- Where nothing is listed, a list without items is. -/
lemma Lists.of_parts {allAssets text : String} {parts : List AssetsPart} {item : String → String}
    (hread : b.assetsOf? allAssets text = some (if parts.isEmpty then [.own []] else parts))
    (hparts : parts.Perm
      ((if m.icons.isEmpty then [] else [.own (m.icons.map item)]) ++ m.children.map .below))
    (hitem : ∀ icon ∈ m.icons, b.symbolOf? m.group text (item icon) = some icon) :
    b.Lists allAssets m text := by
  cases parts with
  | nil =>
    have hnone := hparts.symm.eq_nil
    rw [List.append_eq_nil_iff] at hnone
    have hicons : m.icons = [] := by
      by_contra hne
      rw [if_neg (by simpa using hne)] at hnone
      exact absurd hnone.1 (List.cons_ne_nil _ _)
    refine ⟨_, [.own (m.icons.map item)], item, hread, ?_, Or.inr rfl, hitem⟩
    rw [hnone.2, hicons]
    exact List.Perm.refl _
  | cons p parts =>
    refine ⟨_, _, item, hread, hparts, ?_, hitem⟩
    split_ifs with hempty
    · exact Or.inl ⟨rfl, List.isEmpty_iff.mp hempty⟩
    · exact Or.inr rfl

end Backend

/-- The file with some names. -/
def fileAt? (files : List File) (names : List String) : Option File :=
  files.find? (·.names = names)

/-! ### Evaluating lists -/

section Evaluation

variable (b : Backend) (allAssets : String) (files : List File)

/-- The file of an icon. -/
def iconFile? (group : Group) (symbol : String) : Option File :=
  fileAt? files (b.namesOf group.basePackage (Backend.iconPlace group symbol))

/-- The files of the icons in a summand: those that are listed, or those in the list of a group
below. -/
def partFiles? (icon? : String → Option File) (below? : String → Option (List File)) :
    AssetsPart → Option (List File)
  | .own items => items.mapM icon?
  | .below child => below? child

/-- The files of the icons in the list of a group, as far as groups at most so deep have to be read. -/
def assetsWithin? : Nat → Group → Option (List File)
  | 0, _ => none
  | n + 1, group => do
    let accessor ← fileAt? files (b.namesOf group.basePackage (b.accessorPlace allAssets group))
    let parts ← b.assetsOf? allAssets accessor.text
    let lists ← parts.mapM <| partFiles?
      (fun item => (b.symbolOf? group accessor.text item).bind (iconFile? b files group))
      fun child => assetsWithin? n (group.child child)
    return lists.flatten

/-- The files of the icons in the list of a group. No way down passes more groups than there are
files. -/
def assets? (group : Group) : Option (List File) :=
  assetsWithin? b allAssets files files.length group

variable {b allAssets files} {m : Members}

/-- The list of a group has the icons of the group, and those in the lists of the groups below. -/
lemma assetsWithin?_succ {n : Nat} {accessor : File}
    (haccessor : fileAt? files
      (b.namesOf m.group.basePackage (b.accessorPlace allAssets m.group)) = some accessor)
    (hlists : b.Lists allAssets m accessor.text)
    (hicons : ∀ icon ∈ m.icons, (iconFile? b files m.group icon).isSome)
    (hchildren : ∀ c ∈ m.children, (assetsWithin? b allAssets files n (m.group.child c)).isSome) :
    ∃ l, assetsWithin? b allAssets files (n + 1) m.group = some l
      ∧ l.Perm (m.icons.filterMap (iconFile? b files m.group)
        ++ (m.children.filterMap fun c =>
          assetsWithin? b allAssets files n (m.group.child c)).flatten) := by
  obtain ⟨parts, own, item, hread, hperm, hown, hitem⟩ := hlists
  set value := partFiles?
    (fun item => (b.symbolOf? m.group accessor.text item).bind (iconFile? b files m.group))
    fun child => assetsWithin? b allAssets files n (m.group.child child) with hvalue
  have hitems : value (.own (m.icons.map item))
      = some (m.icons.filterMap (iconFile? b files m.group)) := by
    have hfile : ∀ icon ∈ m.icons, ((b.symbolOf? m.group accessor.text (item icon)).bind
        (iconFile? b files m.group)) = iconFile? b files m.group icon := by
      intro icon hicon
      rw [hitem icon hicon]
      rfl
    rw [hvalue, partFiles?, List.mapM_map, mapM_eq_filterMap]
    · exact congrArg some (List.filterMap_congr hfile)
    · intro icon hicon
      exact (congrArg Option.isSome (hfile icon hicon)).trans (hicons icon hicon)
  have hparts : ∀ p ∈ parts, (value p).isSome := by
    intro p hp
    rcases List.mem_append.mp (hperm.subset hp) with hp | hp
    · rcases hown with ⟨rfl, -⟩ | rfl
      · nomatch hp
      · rw [List.mem_singleton.mp hp, hitems]
        rfl
    · obtain ⟨c, hc, rfl⟩ := List.mem_map.mp hp
      exact hchildren c hc
  have hfiles : (own.filterMap value).flatten = m.icons.filterMap (iconFile? b files m.group) := by
    rcases hown with ⟨rfl, hnone⟩ | rfl
    · rw [hnone]
      rfl
    · rw [List.filterMap_cons_some hitems]
      exact List.append_nil _
  have hbelow : (m.children.map .below).filterMap value
      = m.children.filterMap fun c => assetsWithin? b allAssets files n (m.group.child c) := by
    rw [List.filterMap_map]
    rfl
  refine ⟨(parts.filterMap value).flatten, ?_, ?_⟩
  · rw [assetsWithin?, haccessor, Option.bind_eq_bind, Option.bind_some, hread, Option.bind_eq_bind,
      Option.bind_some, ← hvalue, mapM_eq_filterMap hparts]
    rfl
  · rw [← hfiles, ← hbelow, ← List.flatten_append, ← List.filterMap_append]
    exact (hperm.filterMap value).flatten

end Evaluation

end Iconsmith.Source

namespace Iconsmith.Batch

open Source (assets? assetsWithin? fileAt? iconFile?)

/-! ### Lists of a tree -/

/-- The walk over a group is part of that over a group above. -/
lemma Tree.walk_sublist {t u : Tree} (hu : u ∈ t.walk) : u.walk.Sublist t.walk := by
  induction t using induct with
  | node g icons children ih =>
    rcases mem_walk_iff.mp hu with rfl | ⟨c, hc, hu⟩
    · exact List.Sublist.refl _
    · rw [walk_eq (node g icons children)]
      refine ((ih c hc hu).trans ?_).cons _
      exact List.sublist_flatten_of_mem (List.mem_map_of_mem hc)

lemma Tree.mem_entries_of_mem_walk {t u : Tree} {e : Entry} (hu : u ∈ t.walk) (he : e ∈ u.entries) :
    e ∈ t.entries :=
  ((walk_sublist hu).flatMap ownEntries).subset he

lemma perm_flatten_filterMap {α β : Type} {f : α → Option (List β)} {g : α → List β} {l : List α}
    (h : ∀ a ∈ l, ∃ v, f a = some v ∧ v.Perm (g a)) : (l.filterMap f).flatten.Perm (l.flatMap g) := by
  induction l with
  | nil => exact List.Perm.refl _
  | cons a l ih =>
    rw [List.forall_mem_cons] at h
    obtain ⟨⟨v, hv, hperm⟩, hrest⟩ := h
    rw [List.filterMap_cons_some hv, List.flatten_cons, List.flatMap_cons]
    exact hperm.append (ih hrest)

lemma filterMap_eq_map_of_forall₂ {α β γ : Type} {f : α → Option γ} {g : β → γ} {xs : List α}
    {ys : List β} (h : List.Forall₂ (fun x y => f x = some (g y)) xs ys) :
    xs.filterMap f = ys.map g := by
  induction h with
  | nil => rfl
  | cons hxy _ ih => rw [List.filterMap_cons_some hxy, ih, List.map_cons]

/-- Files that hold the icons and the lists of all groups of a tree. -/
structure Listing (b : Source.Backend) (allAssets : String) (files : List Source.File) (t : Tree) :
    Prop where
  sound : t.Sound
  icons : ∀ e ∈ t.entries, (iconFile? b files e.1 e.2.2).isSome
  accessors : ∀ u ∈ t.walk, ∃ accessor,
    fileAt? files (b.namesOf u.group.basePackage (b.accessorPlace allAssets u.group)) = some accessor
      ∧ b.Lists allAssets u.members accessor.text

namespace Listing

variable {b : Source.Backend} {allAssets : String} {files : List Source.File} {t u : Tree}

lemma below (h : Listing b allAssets files t) (hu : u ∈ t.walk) : Listing b allAssets files u where
  sound v hv := h.sound v ((Tree.walk_sublist hu).subset hv)
  icons e he := h.icons e (Tree.mem_entries_of_mem_walk hu he)
  accessors v hv := h.accessors v ((Tree.walk_sublist hu).subset hv)

/-- The list of the group at the root of a tree has the icons of the tree. -/
lemma assetsWithin?_perm (h : Listing b allAssets files t) {n : Nat} (hn : t.walk.length ≤ n) :
    ∃ l, assetsWithin? b allAssets files n t.group = some l
      ∧ l.Perm (t.entries.filterMap fun e => iconFile? b files e.1 e.2.2) := by
  induction t using Tree.induct generalizing n with
  | node g icons children ih =>
    set t := Tree.node g icons children with ht
    have hwalk : t.walk.length = (children.flatMap Tree.walk).length + 1 :=
      congrArg List.length t.walk_eq
    obtain ⟨n, rfl⟩ : ∃ k, n = k + 1 := ⟨n - 1, by omega⟩
    have hlists : ∀ c ∈ children, ∃ l, assetsWithin? b allAssets files n (g.child c.group.name) = some l
        ∧ l.Perm (c.entries.filterMap fun e => iconFile? b files e.1 e.2.2) := by
      intro c hc
      have hshort : c.walk.length ≤ (children.flatMap Tree.walk).length :=
        (List.sublist_flatten_of_mem (List.mem_map_of_mem hc)).length_le
      have hgroup : c.group = g.child c.group.name := (h.sound t t.mem_walk_self).below c hc
      rw [← hgroup]
      exact ih c hc (h.below (Tree.mem_walk_child t.mem_walk_self hc)) (by omega)
    have hicons : ∀ icon ∈ t.members.icons, (iconFile? b files t.group icon).isSome := by
      intro icon hicon
      obtain ⟨p, hp, rfl⟩ := List.mem_map.mp hicon
      exact h.icons (t.group, p) (Tree.mem_entries.mpr ⟨t, t.mem_walk_self, rfl, hp⟩)
    have hchildren : ∀ name ∈ t.members.children,
        (assetsWithin? b allAssets files n (g.child name)).isSome := by
      intro name hname
      obtain ⟨c, hc, rfl⟩ := List.mem_map.mp hname
      obtain ⟨l, hl, -⟩ := hlists c hc
      rw [hl]
      rfl
    obtain ⟨accessor, haccessor, hread⟩ := h.accessors t t.mem_walk_self
    obtain ⟨l, hl, hperm⟩ := @Source.assetsWithin?_succ b allAssets files t.members n accessor
      haccessor hread hicons hchildren
    refine ⟨l, hl, hperm.trans ?_⟩
    rw [Tree.entries_eq, List.filterMap_append, List.filterMap_flatMap]
    refine List.Perm.append ?_ ?_
    · rw [Tree.members, Tree.ownEntries, List.filterMap_map, List.filterMap_map]
      exact List.Perm.refl _
    · have hbelow : t.members.children.filterMap
          (fun name => assetsWithin? b allAssets files n (g.child name))
            = children.filterMap fun c => assetsWithin? b allAssets files n (g.child c.group.name) :=
        List.filterMap_map
      change (t.members.children.filterMap
        (fun name => assetsWithin? b allAssets files n (g.child name))).flatten.Perm _
      rw [hbelow]
      exact perm_flatten_filterMap hlists

lemma length_files (h : Listing b allAssets files t) :
    (t.entries.filterMap fun e => iconFile? b files e.1 e.2.2).length = t.iconCount := by
  rw [← Tree.length_entries, List.filterMap_length_eq_length]
  exact h.icons

end Listing

/-! ### Lists of a run -/

namespace Workshop.Reports

variable {w : Workshop} {input : Input} {r : Report} {u : Tree}

lemma basePackage (h : w.Reports input r) (hu : u ∈ r.root.walk) :
    u.group.basePackage = w.options.package := by
  rw [h.sound.basePackage hu, h.group]
  rfl

/-- A source is found by its names. -/
lemma fileAt?_names (h : w.Reports input r) {f : Source.File} (hf : f ∈ r.sources w.options) :
    fileAt? (r.sources w.options) f.names = some f := by
  have hpackage : r.root.group.basePackage = w.options.package := h.basePackage r.root.mem_walk_self
  have hnodup : ((r.sources w.options).map (·.names)).Nodup :=
    (names_sources h.valid h.sound hpackage h.generated).2
  unfold fileAt?
  cases hfind : (r.sources w.options).find? (·.names = f.names) with
  | none =>
    have := List.find?_eq_none.mp hfind f hf
    simp at this
  | some f' =>
    have hnames := List.find?_some hfind
    rw [decide_eq_true_eq] at hnames
    rw [List.inj_on_of_nodup_map hnodup (List.mem_of_find?_eq_some hfind) hf hnames]

/-- The file of an icon is the source of its artifact. -/
lemma iconFile?_entries (h : w.Reports input r) :
    List.Forall₂ (fun e a => iconFile? w.backend (r.sources w.options) e.1 e.2.2 = some a.source)
      r.root.entries r.artifacts := by
  have hgenerated := ((List.forall₂_and_left r.artifacts r.root.entries).mpr
    ⟨fun _ ha => ha, h.generated.flip⟩).flip
  refine hgenerated.imp ?_
  rintro e a ⟨ha, g, source, -, hicon, rfl⟩
  rw [iconFile?, ← (Source.Backend.names_icon hicon).2]
  exact h.fileAt?_names (List.mem_append_left _ (List.mem_map.mpr ⟨_, ha, rfl⟩))

/-- The sources hold the lists of all groups if the accessor of each group has its list. -/
lemma listing (h : w.Reports input r)
    (hlists : ∀ u ∈ r.root.walk, ∃ f, w.accessor? u = some f
      ∧ w.backend.Lists w.options.allAssets u.members f.text) :
    Listing w.backend w.options.allAssets (r.sources w.options) r.root where
  sound := h.sound
  icons := by
    intro e he
    obtain ⟨a, -, ha⟩ := Compiled.exists_of_forall₂ h.iconFile?_entries he
    rw [ha]
    rfl
  accessors := by
    intro u hu
    obtain ⟨f, hf, hread⟩ := hlists u hu
    have hpackage : r.root.group.basePackage = w.options.package := h.basePackage r.root.mem_walk_self
    have hmem : f ∈ r.sources w.options :=
      List.mem_append_right _ (List.mem_filterMap.mpr ⟨u, hu, hf⟩)
    refine ⟨f, ?_, hread⟩
    rw [h.basePackage hu, ← (accessor?_eq_some h.sound hpackage hu hf).2]
    exact h.fileAt?_names hmem

/-- The list of every group can be read, and has the icons of the group and of those below it. -/
lemma assets?_perm (h : w.Reports input r)
    (hlists : ∀ u ∈ r.root.walk, ∃ f, w.accessor? u = some f
      ∧ w.backend.Lists w.options.allAssets u.members f.text) (hu : u ∈ r.root.walk) :
    ∃ l, assets? w.backend w.options.allAssets (r.sources w.options) u.group = some l
      ∧ l.Perm (u.entries.filterMap fun e => iconFile? w.backend (r.sources w.options) e.1 e.2.2) := by
  have haccessors : (r.root.walk.filterMap w.accessor?).length = r.root.walk.length := by
    rw [List.filterMap_length_eq_length]
    intro u hu
    obtain ⟨f, hf, -⟩ := hlists u hu
    rw [hf]
    rfl
  have hlength : u.walk.length ≤ (r.sources w.options).length :=
    calc u.walk.length ≤ r.root.walk.length := (Tree.walk_sublist hu).length_le
      _ = (r.root.walk.filterMap w.accessor?).length := haccessors.symm
      _ ≤ (r.sources w.options).length := by
        rw [Report.sources, List.length_append]
        exact Nat.le_add_left _ _
  exact ((h.listing hlists).below hu).assetsWithin?_perm hlength

lemma sources_entries (h : w.Reports input r) :
    (r.root.entries.filterMap fun e => iconFile? w.backend (r.sources w.options) e.1 e.2.2)
      = r.artifacts.map (·.source) :=
  filterMap_eq_map_of_forall₂ h.iconFile?_entries

end Workshop.Reports

/-! ### Accessors of either framework -/

lemma Compiled.lists {w : Workshop} {t u : Tree} {artifacts : List Artifact}
    (h : Compiled w t artifacts) (hu : u ∈ t.walk) :
    ∃ f, w.accessor? u = some f ∧ w.backend.Lists w.options.allAssets u.members f.text := by
  obtain ⟨f, hf, hof⟩ := h.accessor?_eq hu
  have hmembers := h.namedMembers hu
  refine ⟨f, hf, ?_⟩
  rw [hof.text, Workshop.backend, h.backend]
  refine Source.Backend.Lists.of_parts (ImageVector.assetsOf?_accessorFile hmembers)
    List.perm_append_comm fun icon hicon => ?_
  exact ImageVector.symbolOf?_item (Naming.isWord_of_isIdentifier hmembers.group.name)
    (Naming.isWord_of_isIdentifier (hmembers.icons icon hicon))

lemma Shaped.lists {w : Workshop} {t u : Tree} {artifacts : List Artifact}
    (h : Shaped w t artifacts) (hcapital : ∀ a ∈ artifacts, Naming.IsCapital a.name)
    (hu : u ∈ t.walk) :
    ∃ f, w.accessor? u = some f ∧ w.backend.Lists w.options.allAssets u.members f.text := by
  obtain ⟨f, hf, haccessor, -⟩ := h.accessor?_eq hu
  have hworded := h.worded hu
  have hicons : ∀ icon ∈ u.members.icons, Naming.IsCapital icon := by
    intro icon hicon
    obtain ⟨p, hp, rfl⟩ := List.mem_map.mp hicon
    have hentry : (u.group, p) ∈ t.entries := Tree.mem_entries.mpr ⟨u, hu, rfl, hp⟩
    obtain ⟨a, ha, hgenerated⟩ := Compiled.exists_of_forall₂ h.generated hentry
    have hname : p.2 = a.name := (h.locatedTypes_generated hgenerated).2.1
    rw [hname]
    exact hcapital a ha
  refine ⟨f, hf, ?_⟩
  rw [Shape.text_of_accessor haccessor, Workshop.backend, h.backend]
  refine Source.Backend.Lists.of_parts (Shape.assetsOf?_accessorLines hworded)
    (List.Perm.refl _) fun icon hicon => ?_
  exact Shape.symbolOf?_accessorLines hworded hicons hicon

lemma Workshop.Reports.lists {w : Workshop} {input : Input} {r : Report} (h : w.Reports input r)
    (hassets : Naming.isIdentifier w.options.allAssets = true) :
    ∀ u ∈ r.root.walk, ∃ f, w.accessor? u = some f
      ∧ w.backend.Lists w.options.allAssets u.members f.text := by
  intro u hu
  cases hbackend : w.options.backend with
  | declarativeUi => exact (h.compiled hbackend hassets).lists hu
  | nativeShape =>
    refine (h.shaped hbackend).lists ?_ hu
    rw [h.artifacts]
    exact w.isCapital_generate input

/-- The list of all icons of the root group, read from the accessors of a run, has the source of each
icon of the run once. The list of every group has as many icons as the tree counts for the group. -/
theorem assets_list_every_icon {σ : Type} (write : String → String → StateM σ (Except Failure Unit))
    (normalize : FileView → String → Normalized) (files : FileView) (options : Options)
    (out : String) (input : Input) (s s' : σ) (log : List Log.Record) (r : Report)
    (hassets : Naming.isIdentifier options.allAssets = true)
    (hrun : (run write normalize files options (some out) input).run s = ((log, .ok r), s')) :
    (∃ l, assets? options.backend options.allAssets (r.sources options) options.rootGroup = some l
        ∧ l.Perm (r.artifacts.map (·.source)) ∧ l.Nodup)
      ∧ ∀ u ∈ r.root.walk, ∃ l,
        assets? options.backend options.allAssets (r.sources options) u.group = some l
          ∧ l.length = u.iconCount := by
  obtain ⟨-, hnodup⟩ := names_report hrun
  obtain ⟨w, rfl, hreports⟩ := exists_reports hrun
  have hlists := hreports.lists hassets
  constructor
  · obtain ⟨l, hl, hperm⟩ := hreports.assets?_perm hlists r.root.mem_walk_self
    rw [hreports.group] at hl
    rw [hreports.sources_entries] at hperm
    refine ⟨l, hl, hperm, hperm.nodup_iff.mpr ?_⟩
    rw [Report.sources, List.map_append] at hnodup
    exact hnodup.of_append_left.of_map _
  · intro u hu
    obtain ⟨l, hl, hperm⟩ := hreports.assets?_perm hlists hu
    exact ⟨l, hl, hperm.length_eq.trans ((hreports.listing hlists).below hu).length_files⟩

/-- The list of the root group, which has no icons of its own, holds the icon of the group below. -/
theorem assets_of_nested_directories :
    Naming.isIdentifier nestedOptions.allAssets = true ∧ ∃ log r s' l,
      (run (m := StateM Unit) writeNothing mixedShop.normalize nestedFiles nestedOptions (some "out")
        (.directory "in")).run () = ((log, .ok r), s')
      ∧ assets? nestedOptions.backend nestedOptions.allAssets (r.sources nestedOptions)
        nestedOptions.rootGroup = some l
      ∧ l.map (·.names) = [["p", "icons", "b", "Add.kt"]] := by
  have hassets : Naming.isIdentifier nestedOptions.allAssets = true := by decide
  obtain ⟨log, r, s', hrun, hartifacts, -⟩ := exists_nestedRun
  have hnames : r.artifacts.map (·.source.names) = [["p", "icons", "b", "Add.kt"]] := by
    have := congrArg (List.map fun a => a.2.2) hartifacts
    rwa [List.map_map] at this
  obtain ⟨⟨l, hl, hperm, -⟩, -⟩ := assets_list_every_icon writeNothing mixedShop.normalize
    nestedFiles nestedOptions "out" (.directory "in") () s' log r hassets hrun
  refine ⟨hassets, log, r, s', l, hrun, hl, ?_⟩
  have hperm := hperm.map (·.names)
  rw [List.map_map] at hperm
  change (l.map (·.names)).Perm (r.artifacts.map (·.source.names)) at hperm
  rw [hnames] at hperm
  exact List.perm_singleton.mp hperm

end Iconsmith.Batch
