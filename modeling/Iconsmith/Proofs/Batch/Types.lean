import Iconsmith.Proofs.Batch.Links
import Iconsmith.Proofs.Shape.Types

/-!
# Types of a run

The symbols of a group differ, and none of them is the name of a preview, so the files in one directory
of shapes declare different types. Symbols of different groups may be the same: the types of a whole run
differ just if all its symbols do, and if neither a symbol nor the name of a preview is that of the root
group.
-/

namespace Iconsmith.Batch

open Naming (IsCapital IsSymbol IsWord)
open Shape (previewName typesOf)

/-! ### Names and previews -/

lemma previewName_injective : Function.Injective previewName := by
  intro s t h
  exact (String.append_left_inj "_Previews").mp h

/-- No symbol is the name of a preview. -/
lemma not_isSymbol_previewName {symbol : String} (h : Naming.isIdentifier symbol = true) :
    ¬ IsSymbol (previewName symbol) := by
  obtain ⟨c, s, hname, -, -⟩ := Naming.isIdentifier_iff.mp h
  intro hsymbol
  have hmem : '_' ∈ (previewName symbol).toList.tail := by
    simp [previewName, hname]
  exact absurd (hsymbol '_' hmem) (by decide)

section Previews

variable {α β : Type} {p : α → α} {l : List α}

/-- A name, and that of its preview if there is one. -/
def withPreview (p : α → α) (preview : Bool) (a : α) : List α :=
  a :: if preview then [p a] else []

lemma mem_flatMap_withPreview {preview : Bool} {x : α} :
    x ∈ l.flatMap (withPreview p preview) ↔ x ∈ l ∨ preview = true ∧ ∃ a ∈ l, p a = x := by
  rw [List.mem_flatMap]
  cases preview with
  | false => simp [withPreview]
  | true =>
    simp only [withPreview, if_true, List.mem_cons, List.not_mem_nil, or_false, true_and]
    constructor
    · rintro ⟨a, ha, rfl | rfl⟩
      · exact .inl ha
      · exact .inr ⟨a, ha, rfl⟩
    · rintro (hx | ⟨a, ha, rfl⟩)
      · exact ⟨x, hx, .inl rfl⟩
      · exact ⟨a, ha, .inr rfl⟩

/-- Names that are not those of previews differ along with the names of their previews. -/
lemma nodup_flatMap_withPreview (hp : Function.Injective p) (hapart : ∀ a ∈ l, ∀ b ∈ l, p a ≠ b)
    (preview : Bool) : (l.flatMap (withPreview p preview)).Nodup ↔ l.Nodup := by
  induction l with
  | nil => exact Iff.rfl
  | cons a l ih =>
    have ih := ih fun b hb c hc => hapart b (List.mem_cons_of_mem a hb) c (List.mem_cons_of_mem a hc)
    have hself : p a ≠ a := hapart a (by simp) a (by simp)
    have hfirst : a ∈ l.flatMap (withPreview p preview) ↔ a ∈ l := by
      rw [mem_flatMap_withPreview]
      refine or_iff_left ?_
      rintro ⟨-, b, hb, hba⟩
      exact hapart b (List.mem_cons_of_mem a hb) a (by simp) hba
    have hsecond (hpreview : preview = true) :
        p a ∈ l.flatMap (withPreview p preview) ↔ a ∈ l := by
      rw [mem_flatMap_withPreview]
      constructor
      · rintro (hmem | ⟨-, b, hb, hba⟩)
        · exact absurd rfl (hapart a (by simp) (p a) (List.mem_cons_of_mem a hmem))
        · exact hp hba ▸ hb
      · intro ha
        exact .inr ⟨hpreview, a, ha, rfl⟩
    rw [List.flatMap_cons, List.nodup_cons, ← ih, ← hfirst]
    cases preview with
    | false => exact List.nodup_cons
    | true =>
      rw [withPreview, if_pos rfl, List.cons_append, List.singleton_append, List.nodup_cons,
        List.nodup_cons, List.mem_cons, hsecond rfl, hfirst]
      have := hself.symm
      tauto

end Previews

/-! ### The types of a tree -/

/-- The types that a file declares, with the directory of the file. -/
def locatedTypes (f : Source.File) : List (List String × String) :=
  (typesOf f.text).map (f.names.dropLast, ·)

/-- The icons and the accessors of a tree were generated as shapes. -/
structure Shaped (w : Workshop) (t : Tree) (artifacts : List Artifact) : Prop where
  backend : w.options.backend = .nativeShape
  allAssets : IsWord w.options.allAssets
  root : t.group = w.options.rootGroup
  sound : t.Sound
  declarable : t.Declarable
  generated : List.Forall₂ w.Generated t.entries artifacts
  symbols : ∀ a ∈ artifacts, IsSymbol a.name

lemma flatMap_eq_of_forall₂ {α β γ : Type} {R : α → β → Prop} {xs : List α} {ys : List β}
    (h : List.Forall₂ R xs ys) {f : α → List γ} {g : β → List γ} (hfg : ∀ x y, R x y → f x = g y) :
    xs.flatMap f = ys.flatMap g := by
  induction h with
  | nil => rfl
  | cons hxy _ ih => rw [List.flatMap_cons, List.flatMap_cons, hfg _ _ hxy, ih]

namespace Tree

variable {t u : Tree}

/-- Every name on the way to a group is the name of a group. -/
lemma Declarable.names (ht : t.Sound) (h : t.Declarable)
    (hroot : ∀ n ∈ t.group.names, IsWord n) (hu : u ∈ t.walk) : ∀ n ∈ u.group.names, IsWord n := by
  induction t using induct with
  | node g icons children ih =>
    rcases mem_walk_iff.mp hu with rfl | ⟨c, hc, hu⟩
    · exact hroot
    · have hwalk {v : Tree} (hv : v ∈ c.walk) := mem_walk_of_mem hc hv
      refine ih c hc (ht.child hc) (fun v hv => h v (hwalk hv)) ?_ hu
      rw [(ht _ (mem_walk_self _)).below c hc, Group.names_child]
      refine List.forall_mem_append.mpr ⟨hroot, List.forall_mem_singleton.mpr ?_⟩
      exact Naming.isWord_of_isIdentifier (h c (hwalk (mem_walk_self c)))

/-- A group below another one is not the root. -/
lemma Sound.not_isRoot (h : t.Sound) {c : Tree} (hc : c ∈ t.children) (hu : u ∈ c.walk) :
    u.group.isRoot = false := by
  have hbelow {p v : Tree} (hp : p ∈ t.walk) (hv : v ∈ p.children) : v.group.isRoot = false := by
    rw [(h p hp).below v hv]
    simp [Group.isRoot, Group.child]
  rcases exists_parent hu with rfl | ⟨p, hp, hup⟩
  · exact hbelow (mem_walk_self t) hc
  · exact hbelow (mem_walk_of_mem hc hp) hup

end Tree

namespace Shaped

variable {w : Workshop} {t u : Tree} {artifacts : List Artifact}

/-- The source of an icon declares the symbol of the icon in the directory of its group, and beside it
the preview if there is one. -/
lemma locatedTypes_generated (h : Shaped w t artifacts) {e : Entry} {a : Artifact}
    (ha : w.Generated e a) :
    Naming.isIdentifier e.2.2 = true ∧ e.2.2 = a.name ∧
      withPreview (Prod.map id previewName) w.options.preview (e.1.directory, e.2.2) =
        locatedTypes a.source := by
  obtain ⟨g, source, -, hicon, rfl⟩ := ha
  rw [Workshop.backend, h.backend] at hicon
  obtain ⟨hsymbol, hnames⟩ := Source.Backend.names_icon hicon
  have hdirectory : source.names.dropLast = e.1.directory := by
    rw [hnames]
    exact List.dropLast_concat
  have htypes : typesOf source.text = withPreview previewName w.options.preview e.2.2 :=
    Shape.typesOf_icon hicon
  refine ⟨hsymbol, rfl, ?_⟩
  change _ = (typesOf source.text).map (source.names.dropLast, ·)
  rw [htypes, hdirectory]
  unfold withPreview
  split_ifs <;> rfl

lemma isIdentifier_icons (h : Shaped w t artifacts) (hu : u ∈ t.walk) :
    ∀ n ∈ u.members.icons, Naming.isIdentifier n = true := by
  intro n hn
  obtain ⟨icon, hicon, rfl⟩ := List.mem_map.mp hn
  have hentry : (u.group, icon) ∈ t.entries := Tree.mem_entries.mpr ⟨u, hu, rfl, hicon⟩
  obtain ⟨a, -, ha⟩ := Compiled.exists_of_forall₂ h.generated hentry
  exact (h.locatedTypes_generated ha).1

lemma worded (h : Shaped w t artifacts) (hu : u ∈ t.walk) :
    Shape.Worded w.options.allAssets u.members where
  group := by
    refine h.declarable.names h.sound ?_ hu
    have hname := Naming.isWord_of_isIdentifier (h.declarable t (Tree.mem_walk_self t))
    rw [h.root] at hname ⊢
    exact List.forall_mem_singleton.mpr hname
  icons n hn := Naming.isWord_of_isIdentifier (h.isIdentifier_icons hu n hn)
  children := by
    intro n hn
    obtain ⟨c, hc, rfl⟩ := List.mem_map.mp hn
    exact Naming.isWord_of_isIdentifier (h.declarable c (Tree.mem_walk_child hu hc))
  allAssets := h.allAssets

/-- Every group of the tree has an accessor, in its directory. -/
lemma accessor?_eq (h : Shaped w t artifacts) (hu : u ∈ t.walk) :
    ∃ f, w.accessor? u = some f ∧ Shape.accessor w.options.settings u.members = .ok f ∧
      f.names.dropLast = u.group.directory := by
  have hgroup : u.members.group = u.group := rfl
  have hname : Source.checkSymbol .nativeShape u.group.name = .ok () :=
    Source.Backend.checkSymbol_eq_ok.mpr (h.declarable u hu)
  obtain ⟨f, hf, hdirectory⟩ : ∃ f, Shape.accessor w.options.settings u.members = .ok f ∧
      f.names.dropLast = u.group.directory := by
    rw [Shape.accessor, hgroup, hname, ok_bind]
    exact ⟨_, rfl, List.dropLast_concat⟩
  refine ⟨f, ?_, hf, hdirectory⟩
  rw [Workshop.accessor?, Workshop.backend, h.backend]
  exact congrArg Except.toOption hf

/-- The accessor of a group declares the name of the group if it is the root, and else nothing. -/
lemma locatedTypes_accessor (h : Shaped w t artifacts) (hu : u ∈ t.walk) :
    (w.accessor? u).toList.flatMap locatedTypes =
      if u.group.isRoot then [(u.group.directory, u.group.name)] else [] := by
  obtain ⟨f, haccessor, hf, hdirectory⟩ := h.accessor?_eq hu
  have htypes := Shape.typesOf_accessor (h.worded hu) hf
  rw [haccessor, Option.toList_some, List.flatMap_singleton, locatedTypes, htypes, hdirectory]
  change List.map _ (if u.group.isRoot then [u.group.name] else []) = _
  split_ifs <;> rfl

lemma locatedTypes_accessors (h : Shaped w t artifacts) :
    (t.walk.filterMap w.accessor?).flatMap locatedTypes =
      [(w.options.rootGroup.directory, w.options.accessor)] := by
  have hbelow : ∀ u ∈ t.children.flatMap Tree.walk,
      (w.accessor? u).toList.flatMap locatedTypes = [] := by
    intro u hu
    obtain ⟨c, hc, hu⟩ := List.mem_flatMap.mp hu
    rw [h.locatedTypes_accessor (Tree.mem_walk_of_mem hc hu), h.sound.not_isRoot hc hu]
    rfl
  have hroot := h.locatedTypes_accessor (Tree.mem_walk_self t)
  rw [h.root] at hroot
  rw [List.filterMap_eq_flatMap_toList, List.flatMap_assoc, Tree.walk_eq, List.flatMap_cons, hroot,
    List.flatMap_eq_nil_iff.mpr hbelow]
  rfl

/-- The symbols of the icons, with the directories of their groups. -/
def locatedSymbols (t : Tree) : List (List String × String) :=
  t.entries.map fun e => (e.1.directory, e.2.2)

lemma locatedTypes_sources (h : Shaped w t artifacts) :
    (artifacts.map (·.source) ++ t.walk.filterMap w.accessor?).flatMap locatedTypes =
      (locatedSymbols t).flatMap (withPreview (Prod.map id previewName) w.options.preview) ++
        [(w.options.rootGroup.directory, w.options.accessor)] := by
  rw [List.flatMap_append, h.locatedTypes_accessors, List.flatMap_map, locatedSymbols,
    List.flatMap_map]
  rw [flatMap_eq_of_forall₂ h.generated fun e a ha => (h.locatedTypes_generated ha).2.2]

lemma map_snd_locatedSymbols (h : Shaped w t artifacts) :
    (locatedSymbols t).map Prod.snd = artifacts.map (·.name) := by
  rw [locatedSymbols, List.map_map, ← List.forall₂_eq_eq_eq, List.forall₂_map_left_iff,
    List.forall₂_map_right_iff]
  exact h.generated.imp fun e a ha => (h.locatedTypes_generated ha).2.1

/-- No symbol is the name of a preview of another. -/
lemma previewName_ne (h : Shaped w t artifacts) :
    ∀ s ∈ artifacts.map (·.name), ∀ s' ∈ artifacts.map (·.name), previewName s ≠ s' := by
  intro s hs s' hs' heq
  obtain ⟨a, ha, rfl⟩ := List.mem_map.mp hs
  obtain ⟨a', ha', rfl⟩ := List.mem_map.mp hs'
  obtain ⟨e, -, hgenerated⟩ := Compiled.exists_of_forall₂ h.generated.flip ha
  obtain ⟨hidentifier, hname, -⟩ := h.locatedTypes_generated hgenerated
  rw [hname] at hidentifier
  refine not_isSymbol_previewName hidentifier ?_
  rw [heq]
  exact h.symbols a' ha'

lemma nodup_locatedSymbols (h : Shaped w t artifacts) : (locatedSymbols t).Nodup := by
  have hplaces := h.sound.nodup_iconPlaces
  have heq : t.iconPlaces = (locatedSymbols t).map fun p => ⟨p.1, p.2⟩ := by
    rw [Tree.iconPlaces, locatedSymbols, List.map_map]
    rfl
  rw [heq] at hplaces
  exact hplaces.of_map _

/-- No icon of the root group has the name of the group. -/
lemma accessor_notMem_locatedSymbols (h : Shaped w t artifacts) :
    (w.options.rootGroup.directory, w.options.accessor) ∉ locatedSymbols t := by
  intro hmem
  obtain ⟨e, he, heq⟩ := List.mem_map.mp hmem
  obtain ⟨hdirectory, hname⟩ := Prod.mk.inj heq
  obtain ⟨u, hu, hgroup, hicon⟩ := Tree.mem_entries.mp he
  rw [← hgroup, ← h.root] at hdirectory
  obtain rfl := h.sound.eq_of_directory hu (Tree.mem_walk_self t) hdirectory
  have hmembers := (List.nodup_cons.mp (h.sound _ (Tree.mem_walk_self _)).members).1
  refine hmembers (List.mem_append_left _ ?_)
  rw [h.root]
  exact List.mem_map.mpr ⟨e.2, hicon, hname⟩

/-- The types that are declared in one directory differ. -/
lemma nodup_locatedTypes (h : Shaped w t artifacts)
    (hpreview : w.options.preview = true → ∀ a ∈ artifacts, previewName a.name ≠ w.options.accessor) :
    ((artifacts.map (·.source) ++ t.walk.filterMap w.accessor?).flatMap locatedTypes).Nodup := by
  have hnames {p : List String × String} (hp : p ∈ locatedSymbols t) :
      p.2 ∈ artifacts.map (·.name) := by
    rw [← h.map_snd_locatedSymbols]
    exact List.mem_map_of_mem hp
  have hinjective : Function.Injective (Prod.map (@id (List String)) previewName) :=
    Function.injective_id.prodMap previewName_injective
  rw [h.locatedTypes_sources]
  refine List.Nodup.append ?_ (List.nodup_singleton _) ?_
  · refine (nodup_flatMap_withPreview hinjective ?_ _).mpr h.nodup_locatedSymbols
    intro p hp q hq heq
    exact h.previewName_ne _ (hnames hp) _ (hnames hq) (Prod.ext_iff.mp heq).2
  · rw [List.disjoint_singleton]
    intro hmem
    rcases mem_flatMap_withPreview.mp hmem with hmem | ⟨hon, p, hp, heq⟩
    · exact h.accessor_notMem_locatedSymbols hmem
    · obtain ⟨a, ha, hname⟩ := List.mem_map.mp (hnames hp)
      refine hpreview hon a ha ?_
      rw [hname]
      exact (Prod.ext_iff.mp heq).2

/-- The types that are declared, without the directories. -/
lemma types_sources (h : Shaped w t artifacts) :
    (artifacts.map (·.source) ++ t.walk.filterMap w.accessor?).flatMap (typesOf ·.text) =
      (artifacts.map (·.name)).flatMap (withPreview previewName w.options.preview) ++
        [w.options.accessor] := by
  have hforget (f : Source.File) : typesOf f.text = (locatedTypes f).map Prod.snd := by
    rw [locatedTypes, List.map_map]
    exact (List.map_id _).symm
  have hpreview (q : List String × String) :
      (withPreview (Prod.map id previewName) w.options.preview q).map Prod.snd =
        withPreview previewName w.options.preview q.2 := by
    unfold withPreview
    split_ifs <;> rfl
  simp only [hforget]
  rw [← List.map_flatMap, h.locatedTypes_sources, List.map_append, List.map_flatMap,
    ← h.map_snd_locatedSymbols, List.flatMap_map]
  simp only [hpreview, List.map_cons, List.map_nil]

/-- All types that are declared differ just if the symbols of all groups and the name of the root
group do, and if no preview has that name. -/
lemma nodup_types_iff (h : Shaped w t artifacts) :
    ((artifacts.map (·.source) ++ t.walk.filterMap w.accessor?).flatMap (typesOf ·.text)).Nodup ↔
      (w.options.accessor :: artifacts.map (·.name)).Nodup
        ∧ (w.options.preview = true → ∀ a ∈ artifacts, previewName a.name ≠ w.options.accessor) := by
  have hmem : w.options.accessor ∉
      (artifacts.map (·.name)).flatMap (withPreview previewName w.options.preview) ↔
        w.options.accessor ∉ artifacts.map (·.name)
          ∧ (w.options.preview = true → ∀ a ∈ artifacts, previewName a.name ≠ w.options.accessor) := by
    rw [mem_flatMap_withPreview, not_or, not_and]
    refine and_congr_right fun _ => imp_congr_right fun _ => ?_
    simp
  rw [h.types_sources, List.nodup_append_comm, List.singleton_append, List.nodup_cons, hmem,
    nodup_flatMap_withPreview previewName_injective h.previewName_ne, List.nodup_cons, and_right_comm]

end Shaped

/-! ### Symbols -/

namespace Workshop

variable {w : Workshop}

lemma isSymbol_generate (input : Input) : ∀ a ∈ (w.generate input).artifacts, IsSymbol a.name :=
  fun a ha => (w.namedAfter_generate input a ha).isSymbol

lemma isCapital_generate (input : Input) :
    ∀ a ∈ (w.generate input).artifacts, IsCapital a.name :=
  fun a ha => (w.namedAfter_generate input a ha).isCapital

end Workshop

/-! ### Runs -/

lemma Workshop.Reports.shaped {w : Workshop} {input : Input} {r : Report} (h : w.Reports input r)
    (hbackend : w.options.backend = .nativeShape) : Shaped w r.root r.artifacts where
  backend := hbackend
  allAssets := (validate_eq_ok h.valid).2
  root := h.group
  sound := h.sound
  declarable := by
    rw [h.root]
    exact w.generate_declarable input (isIdentifier_accessor h.valid)
  generated := h.generated
  symbols := by
    rw [h.artifacts]
    exact w.isSymbol_generate input

lemma shaped_report {σ : Type} {write : String → String → StateM σ (Except Failure Unit)}
    {normalize : FileView → String → Normalized} {files : FileView} {options : Options}
    {out : Option String} {input : Input} {s s' : σ} {log : List Log.Record} {r : Report}
    (hbackend : options.backend = .nativeShape)
    (h : (run write normalize files options out input).run s = ((log, .ok r), s')) :
    ∃ w, w.options = options ∧ Shaped w r.root r.artifacts := by
  obtain ⟨w, rfl, hreports⟩ := exists_reports h
  exact ⟨w, rfl, hreports.shaped hbackend⟩

/-- A run declares the structures of its icons with those of their previews, and the enumeration of the
root group. Those in the files of one group differ if no preview is called like the root group. All of
them differ just if, besides, no two icons of the run have one symbol and none has the name of the root
group. -/
theorem types_of_shapes {σ : Type} (write : String → String → StateM σ (Except Failure Unit))
    (normalize : FileView → String → Normalized) (files : FileView) (options : Options)
    (out : String) (input : Input) (s s' : σ) (log : List Log.Record) (r : Report)
    (hbackend : options.backend = .nativeShape)
    (hrun : (run write normalize files options (some out) input).run s = ((log, .ok r), s')) :
    (r.sources options).flatMap (typesOf ·.text) =
        (r.artifacts.map (·.name)).flatMap (withPreview previewName options.preview) ++
          [options.accessor] ∧
      ((options.preview = true → ∀ a ∈ r.artifacts, previewName a.name ≠ options.accessor) →
        ((r.sources options).flatMap locatedTypes).Nodup) ∧
      (((r.sources options).flatMap (typesOf ·.text)).Nodup ↔
        (options.accessor :: r.artifacts.map (·.name)).Nodup ∧
          (options.preview = true → ∀ a ∈ r.artifacts, previewName a.name ≠ options.accessor)) := by
  obtain ⟨w, rfl, hshaped⟩ := shaped_report hbackend hrun
  exact ⟨hshaped.types_sources, hshaped.nodup_locatedTypes, hshaped.nodup_types_iff⟩

/-- A drawable without content. -/
def blankText : String :=
  "<vector xmlns:a='http://schemas.android.com/apk/res/android' a:viewportWidth='2' "
    ++ "a:viewportHeight='2'/>"

/-- A directory in a directory, with a drawable in it that is called like the root group. -/
def echoFiles : FileView where
  isDirectory location := location = "in" || location = "in/b"
  entries location :=
    if location = "in" then .ok ["b"]
    else if location = "in/b" then .ok ["icons.xml"]
    else .error .notDirectory
  bytes _ := .ok blankText.toUTF8

/-- Options for shapes with previews from drawables, below a root group of some name. -/
def echoOptions (accessor : String) : Options where
  accessor := accessor
  inputFormat := .drawable
  backend := .nativeShape

/-- A run over the directories. -/
def echoRun (accessor : String) : (List Log.Record × Except Failure Report) × Unit :=
  (run (m := StateM Unit) writeNothing mixedShop.normalize echoFiles (echoOptions accessor)
    (some "out") (.directory "in")).run ()

lemma types_of_echoRun {accessor : String}
    (hnames : (echoRun accessor).1.2.toOption.map (·.artifacts.map (·.name)) = some ["Icons"]) :
    ∃ log r s', echoRun accessor = ((log, .ok r), s') ∧ r.artifacts.map (·.name) = ["Icons"] ∧
      (r.sources (echoOptions accessor)).flatMap (typesOf ·.text)
        = ["Icons", "Icons_Previews", accessor] := by
  obtain ⟨log, r, s', hrun, hartifacts⟩ := exists_report hnames
  have hbackend : (echoOptions accessor).backend = .nativeShape := rfl
  obtain ⟨w, hoptions, hshaped⟩ := shaped_report hbackend hrun
  have htypes : (r.sources w.options).flatMap (typesOf ·.text) = _ := hshaped.types_sources
  rw [hartifacts, hoptions] at htypes
  exact ⟨log, r, s', hrun, hartifacts, htypes⟩

lemma names_echoRun :
    (echoRun "Icons").1.2.toOption.map (·.artifacts.map (·.name)) = some ["Icons"] := by
  decide +kernel

/-- An icon of one group may be called like another group, and then one type is declared twice. -/
theorem types_of_echo_repeat :
    ∃ log r s', echoRun "Icons" = ((log, .ok r), s') ∧
      ¬ ((r.sources (echoOptions "Icons")).flatMap (typesOf ·.text)).Nodup := by
  obtain ⟨log, r, s', hrun, -, htypes⟩ := types_of_echoRun names_echoRun
  refine ⟨log, r, s', hrun, ?_⟩
  rw [htypes]
  decide

/-- The types that the files of either group declare differ all the same. A preview may be called like
the root group, although no icon is. -/
theorem types_of_echo_groups :
    (∃ log r s', echoRun "Icons" = ((log, .ok r), s') ∧
      ((r.sources (echoOptions "Icons")).flatMap locatedTypes).Nodup) ∧
    ∃ log r s', echoRun "Icons_Previews" = ((log, .ok r), s') ∧
      ("Icons_Previews" :: r.artifacts.map (·.name)).Nodup ∧
      ¬ ((r.sources (echoOptions "Icons_Previews")).flatMap (typesOf ·.text)).Nodup := by
  constructor
  · obtain ⟨log, r, s', hrun, -⟩ := types_of_echoRun names_echoRun
    have hpreview : ∀ a ∈ r.artifacts, previewName a.name ≠ "Icons" := by
      intro a _ heq
      have hmem : '_' ∈ "Icons".toList := by
        rw [← heq]
        simp [previewName]
      exact absurd hmem (by decide)
    have htypes := types_of_shapes writeNothing mixedShop.normalize echoFiles (echoOptions "Icons")
      "out" (.directory "in") () s' log r rfl hrun
    exact ⟨log, r, s', hrun, htypes.2.1 fun _ => hpreview⟩
  · obtain ⟨log, r, s', hrun, hnames, -⟩ := @types_of_echoRun "Icons_Previews" (by decide +kernel)
    have htypes := types_of_shapes writeNothing mixedShop.normalize echoFiles
      (echoOptions "Icons_Previews") "out" (.directory "in") () s' log r rfl hrun
    refine ⟨log, r, s', hrun, by rw [hnames]; decide, fun hnodup => ?_⟩
    have hicon : "Icons" ∈ r.artifacts.map (·.name) := by
      rw [hnames]
      exact List.mem_singleton_self _
    obtain ⟨a, ha, hname⟩ := List.mem_map.mp hicon
    exact (htypes.2.2.mp hnodup).2 rfl a ha (by rw [hname]; rfl)

end Iconsmith.Batch
