import Iconsmith.Proofs.Batch.Reports
import Iconsmith.Proofs.Source.Places

/-!
# Outputs of a run

No source of a run takes the place of another one, and none lies below another one. An icon shares
its directory only with the other icons of its group and with accessors whose names the group keeps
apart from its icons; accessors determine the directory of their group, which is that of no other.
-/

namespace Iconsmith.Batch

open Source (Apart Placed Place)
open Source.Backend (iconPlace)

namespace Tree

variable {t : Tree}

lemma Sound.nodup_icons (h : t.Sound) {u : Tree} (hu : u ∈ t.walk) :
    (u.icons.map (·.2)).Nodup :=
  (List.nodup_append.mp (List.nodup_cons.mp (h u hu).members).2).1

/-! ### Places in a tree -/

/-- The places of the icons of a tree. -/
def iconPlaces (t : Tree) : List Place :=
  t.entries.map fun e => iconPlace e.1 e.2.2

/-- The places of the accessors of a tree. -/
def accessorPlaces (b : Source.Backend) (allAssets : String) (t : Tree) : List Place :=
  t.walk.map fun u => b.accessorPlace allAssets u.group

lemma Sound.nodup_iconPlaces (h : t.Sound) : t.iconPlaces.Nodup := by
  rw [iconPlaces, entries, List.map_flatMap, List.nodup_flatMap]
  constructor
  · intro u hu
    have hown : u.ownEntries.map (fun e => iconPlace e.1 e.2.2)
        = (u.icons.map (·.2)).map (iconPlace u.group) := by
      simp [ownEntries]
    rw [hown]
    exact (h.nodup_icons hu).map fun s s' hs => (Place.mk.inj hs).2
  · have hdirs := List.pairwise_map.mp h.nodup_directories
    refine hdirs.imp fun {u u'} hne p hp hp' => hne ?_
    simp only [ownEntries, List.map_map, List.mem_map] at hp hp'
    obtain ⟨i, -, rfl⟩ := hp
    obtain ⟨i', -, heq⟩ := hp'
    exact (Place.mk.inj heq).1.symm

/-- The directory of the group whose accessor has a place. -/
def accessorDirectory (b : Source.Backend) (p : Place) : List String :=
  match b with
  | .declarativeUi => p.directories ++ [Naming.packageSegment p.stem]
  | .nativeShape => p.directories

/-- The directory of a group can be read off the place of its accessor. -/
lemma Sound.nodup_accessorPlaces (h : t.Sound) (b : Source.Backend) (allAssets : String) :
    (t.accessorPlaces b allAssets).Nodup := by
  have hdirectory (u : Tree) :
      accessorDirectory b (b.accessorPlace allAssets u.group) = u.group.directory := by
    cases b with
    | declarativeUi => exact u.group.directory_eq.symm
    | nativeShape => rfl
  refine List.Nodup.of_map (accessorDirectory b) ?_
  rw [accessorPlaces, List.map_map]
  simpa only [Function.comp_def, hdirectory] using h.nodup_directories

/-- No icon has the place of an accessor. -/
lemma Sound.disjoint_places (h : t.Sound) (b : Source.Backend) (allAssets : String)
    (hsymbols : ∀ e ∈ t.entries, Naming.isIdentifier e.2.2 = true) :
    t.iconPlaces.Disjoint (t.accessorPlaces b allAssets) := by
  intro p hicon haccessor
  obtain ⟨e, he, rfl⟩ := List.mem_map.mp hicon
  obtain ⟨u, hu, heq⟩ := List.mem_map.mp haccessor
  obtain ⟨v, hv, hgroup, hmem⟩ := mem_entries.mp he
  cases b with
  | declarativeUi =>
    obtain ⟨hdir, hname⟩ := Place.mk.inj heq
    rw [← hgroup] at hdir
    rcases exists_parent hu with rfl | ⟨parent, hparent, hchild⟩
    · have hlen := (h.prefix_directory hv).length_le
      rw [← hdir, List.length_dropLast] at hlen
      have := List.length_pos_iff.mpr u.group.directory_ne_nil
      omega
    · rw [(h parent hparent).directory hchild, List.dropLast_concat] at hdir
      obtain rfl := h.eq_of_directory hparent hv hdir
      have hmembers := (List.nodup_cons.mp (h parent hparent).members).2
      refine (List.nodup_append.mp hmembers).2.2 _ (List.mem_map.mpr ⟨_, hmem, rfl⟩) _
        (List.mem_map.mpr ⟨_, hchild, rfl⟩) hname.symm
  | nativeShape =>
    obtain ⟨-, hname⟩ := Place.mk.inj heq
    have hword := Naming.isWord_of_isIdentifier (hsymbols e he)
    refine hword.notMem (c := '+') (by decide) ?_
    rw [← hname]
    simp

end Tree

/-! ### Places of sources -/

lemma validate_eq_ok {options : Options} (h : options.validate = .ok ()) :
    (options.backend = .declarativeUi → Options.isPackage options.package = true)
      ∧ Naming.IsWord options.allAssets := by
  unfold Options.validate at h
  split_ifs at h with haccessor hpackage hassets
  refine ⟨fun hbackend => by simpa [hbackend] using hpackage, ?_⟩
  simp only [Options.isWord, Bool.not_eq_false, Bool.and_eq_true,
    Bool.not_eq_eq_eq_not, Bool.not_true, List.all_eq_true] at hassets
  refine ⟨fun hnil => ?_, hassets.2⟩
  have := hassets.1
  simp [String.toList_eq_nil_iff.mp hnil] at this

lemma isWord_baseDirectories {options : Options} (h : options.validate = .ok ()) :
    ∀ d ∈ options.backend.baseDirectories options.package, Naming.IsWord d := by
  cases hbackend : options.backend with
  | declarativeUi => exact ImageVector.isWord_packageDirectories ((validate_eq_ok h).1 hbackend)
  | nativeShape => simp [Source.Backend.baseDirectories]

/-- With valid options, words lead to the directory of a source. -/
lemma confined_namesOf {options : Options} (h : options.validate = .ok ()) {p : Place}
    (hdirs : ∀ d ∈ p.directories, Naming.IsWord d) (hne : p.stem.toList ≠ [])
    (hstem : ∀ c ∈ p.stem.toList, Naming.isSegmentChar c = true ∨ c = '+') :
    options.backend.Confined (options.backend.namesOf options.package p) := by
  refine ⟨_, _, rfl, fun d hd => ?_, hne, hstem⟩
  rcases List.mem_append.mp hd with hd | hd
  · exact isWord_baseDirectories h d hd
  · exact hdirs d hd

lemma isWord_directory (group : Group) : ∀ d ∈ group.directory, Naming.IsWord d := by
  intro d hd
  obtain ⟨name, -, rfl⟩ := List.mem_map.mp hd
  exact Naming.isWord_packageSegment name

lemma confined_icon {options : Options} (h : options.validate = .ok ()) (group : Group)
    {symbol : String} (hsymbol : Naming.isIdentifier symbol = true) :
    options.backend.Confined
      (options.backend.namesOf options.package (iconPlace group symbol)) := by
  have hword := Naming.isWord_of_isIdentifier hsymbol
  exact confined_namesOf h (isWord_directory group) hword.1 fun c hc => Or.inl (hword.2 c hc)

lemma words_accessorPlace (b : Source.Backend) {allAssets : String} {group : Group}
    (hname : Naming.IsWord group.name) (hassets : Naming.IsWord allAssets) :
    (∀ d ∈ (b.accessorPlace allAssets group).directories, Naming.IsWord d)
      ∧ (b.accessorPlace allAssets group).stem.toList ≠ []
      ∧ ∀ c ∈ (b.accessorPlace allAssets group).stem.toList,
        Naming.isSegmentChar c = true ∨ c = '+' := by
  cases b with
  | declarativeUi =>
    exact ⟨fun d hd => isWord_directory group d (List.mem_of_mem_dropLast hd), hname.1,
      fun c hc => Or.inl (hname.2 c hc)⟩
  | nativeShape =>
    refine ⟨isWord_directory group, by simp [Source.Backend.accessorPlace], fun c hc => ?_⟩
    have hc : c ∈ group.name.toList ∨ c = '+' ∨ c ∈ allAssets.toList := by
      simpa [Source.Backend.accessorPlace] using hc
    rcases hc with hc | hc | hc
    · exact Or.inl (hname.2 c hc)
    · exact Or.inr hc
    · exact Or.inl (hassets.2 c hc)

lemma confined_accessor {options : Options} (h : options.validate = .ok ()) {group : Group}
    (hname : Naming.isIdentifier group.name = true) :
    options.backend.Confined (options.backend.namesOf options.package
      (options.backend.accessorPlace options.allAssets group)) := by
  obtain ⟨hdirs, hne, hstem⟩ := words_accessorPlace options.backend
    (Naming.isWord_of_isIdentifier hname) (validate_eq_ok h).2
  exact confined_namesOf h hdirs hne hstem

/-! ### The sources of a report -/

section Sources

variable {w : Workshop} {t : Tree} {artifacts : List Artifact}

lemma names_of_generated (ht : t.Sound)
    (hpackage : t.group.basePackage = w.options.package)
    (hgenerated : List.Forall₂ w.Generated t.entries artifacts) :
    (∀ e ∈ t.entries, Naming.isIdentifier e.2.2 = true)
      ∧ artifacts.map (·.source.names)
        = t.iconPlaces.map (w.backend.namesOf w.options.package) := by
  have hmem := (List.forall₂_and_left t.entries artifacts).mpr ⟨fun _ he => he, hgenerated⟩
  have hnames := hmem.imp (S := fun e a => Naming.isIdentifier e.2.2 = true
      ∧ a.source.names = w.backend.namesOf w.options.package (iconPlace e.1 e.2.2)) ?_
  · obtain ⟨hsymbols, hnames⟩ := (List.forall₂_and_left t.entries artifacts).mp hnames
    refine ⟨hsymbols, ?_⟩
    rw [Tree.iconPlaces, List.map_map, ← List.forall₂_eq_eq_eq, List.forall₂_map_left_iff,
      List.forall₂_map_right_iff]
    exact hnames.flip
  · rintro e a ⟨he, g, source, -, hicon, ha⟩
    obtain ⟨hsymbol, hsource⟩ := Source.Backend.names_icon hicon
    obtain ⟨u, hu, hgroup, -⟩ := Tree.mem_entries.mp he
    rw [← hgroup, ht.basePackage hu, hpackage, hgroup] at hsource
    exact ⟨hsymbol, by rw [ha]; exact hsource⟩

lemma accessor?_eq_some (ht : t.Sound) (hpackage : t.group.basePackage = w.options.package)
    {u : Tree} (hu : u ∈ t.walk) {f : Source.File} (hf : w.accessor? u = some f) :
    Naming.isIdentifier u.group.name = true
      ∧ f.names = w.backend.namesOf w.options.package
        (w.backend.accessorPlace w.options.allAssets u.group) := by
  unfold Workshop.accessor? at hf
  cases haccessor : w.backend.accessor w.options.settings u.members with
  | error e => simp [haccessor, Except.toOption] at hf
  | ok f' =>
    simp only [haccessor, Except.toOption, Option.some.injEq] at hf
    subst hf
    have hnames := Source.Backend.names_accessor haccessor
    rwa [show u.members.group = u.group from rfl, ht.basePackage hu, hpackage] at hnames

lemma map_filterMap_sublist {α β γ : Type} {l : List α} {f : α → Option β} {g : β → γ} {h : α → γ}
    (hf : ∀ a ∈ l, ∀ b, f a = some b → g b = h a) :
    ((l.filterMap f).map g).Sublist (l.map h) := by
  induction l with
  | nil => exact .slnil
  | cons a l ih =>
    rw [List.forall_mem_cons] at hf
    cases hfa : f a with
    | none => simpa [hfa] using (ih hf.2).cons (h a)
    | some b => simpa [hfa, hf.1 b hfa] using (ih hf.2).cons_cons (h a)

/-- Words lead to the directories of all sources, and their names differ. -/
lemma names_sources (hvalid : w.options.validate = .ok ()) (ht : t.Sound)
    (hpackage : t.group.basePackage = w.options.package)
    (hgenerated : List.Forall₂ w.Generated t.entries artifacts) :
    (∀ f ∈ artifacts.map (·.source) ++ t.walk.filterMap w.accessor?, w.backend.Confined f.names)
      ∧ ((artifacts.map (·.source) ++ t.walk.filterMap w.accessor?).map (·.names)).Nodup := by
  obtain ⟨hsymbols, hicons⟩ := names_of_generated ht hpackage hgenerated
  have haccessors : ((t.walk.filterMap w.accessor?).map (·.names)).Sublist
      ((t.accessorPlaces w.backend w.options.allAssets).map
        (w.backend.namesOf w.options.package)) := by
    rw [Tree.accessorPlaces, List.map_map]
    exact map_filterMap_sublist fun u hu f hf => (accessor?_eq_some ht hpackage hu hf).2
  constructor
  · intro f hf
    rcases List.mem_append.mp hf with hf | hf
    · have hmem : f.names ∈ artifacts.map (·.source.names) := by
        obtain ⟨a, ha, rfl⟩ := List.mem_map.mp hf
        exact List.mem_map.mpr ⟨a, ha, rfl⟩
      rw [hicons, Tree.iconPlaces, List.map_map] at hmem
      obtain ⟨e, he, heq⟩ := List.mem_map.mp hmem
      rw [← heq]
      exact confined_icon hvalid e.1 (hsymbols e he)
    · obtain ⟨u, hu, hf⟩ := List.mem_filterMap.mp hf
      obtain ⟨hname, hnames⟩ := accessor?_eq_some ht hpackage hu hf
      rw [hnames]
      exact confined_accessor hvalid hname
  · have hplaces : (t.iconPlaces ++ t.accessorPlaces w.backend w.options.allAssets).Nodup :=
      ht.nodup_iconPlaces.append (ht.nodup_accessorPlaces w.backend w.options.allAssets)
        (ht.disjoint_places w.backend w.options.allAssets hsymbols)
    have hnames := hplaces.map (w.backend.namesOf_injective w.options.package)
    rw [List.map_append] at hnames
    rw [List.map_append, List.map_map]
    change (artifacts.map (·.source.names) ++ _).Nodup
    rw [hicons]
    exact hnames.sublist (haccessors.append_left _)

/-- What a run writes is named so, whatever its input is. -/
lemma names_generate (w : Workshop) (hvalid : w.options.validate = .ok ()) (input : Input) :
    (∀ f ∈ w.sources input, w.backend.Confined f.names)
      ∧ ((w.sources input).map (·.names)).Nodup := by
  obtain ⟨hgroup, hsound⟩ := w.generate_sound input
  obtain ⟨os, htraced, hos⟩ := w.generate_traced input
  have hgenerated := htraced.generated
  rw [← hos.artifacts] at hgenerated
  exact names_sources hvalid hsound (by rw [hgroup]; rfl) hgenerated

end Sources

/-! ### Runs -/

section Run

variable {σ : Type} {write : String → String → StateM σ (Except Failure Unit)}
  {normalize : FileView → String → Normalized} {files : FileView} {options : Options}
  {out : Option String} {input : Input} {s s' : σ} {log : List Log.Record} {r : Report}

lemma names_report (h : (run write normalize files options out input).run s = ((log, .ok r), s')) :
    (∀ f ∈ r.sources options, Placed f.names)
      ∧ ((r.sources options).map (·.names)).Nodup := by
  obtain ⟨w, notices, hprepare⟩ := exists_prepare h
  have hsources := sources_eq hprepare h
  obtain ⟨hvalid, -, rfl, -, -⟩ := prepare_eq_ok hprepare
  obtain ⟨hconfined, hnodup⟩ := names_generate w hvalid input
  rw [hsources]
  exact ⟨fun f hf => (hconfined f hf).placed, hnodup⟩

end Run

/-- No output of a run takes the place of another one or lies below it, whatever the writes do. If
all outputs are written to a disk, then each can be read where it was written. -/
theorem outputs_never_overlap (normalize : FileView → String → Normalized) (files : FileView)
    (options : Options) (input : Input) :
    (∀ {σ : Type} (write : String → String → StateM σ (Except Failure Unit)) (out : Option String)
        (s s' : σ) (log : List Log.Record) (r : Report),
      (run write normalize files options out input).run s = ((log, .ok r), s') →
      (r.sources options).Pairwise Apart)
    ∧ ∀ (out : String) (d d' : Disk) (log : List Log.Record) (r : Report),
      (run Disk.save normalize files options (some out) input).run d = ((log, .ok r), d') →
      r.written.length = (r.sources options).length →
      ∀ f ∈ r.sources options, d'.read (Location.join out f.location) = .ok f.text.toUTF8 := by
  constructor
  · intro σ write out s s' log r h
    obtain ⟨hplaced, hnodup⟩ := names_report h
    refine (List.pairwise_map.mp hnodup).imp_of_mem fun hf hg hne => ?_
    exact Source.apart_of_ne (hplaced _ hf) (hplaced _ hg) hne
  · intro out d d' log r h hwritten
    obtain ⟨hplaced, hnodup⟩ := names_report h
    obtain ⟨hvalue, hstate⟩ := run_some_eq_ok h
    rw [hvalue] at hwritten
    intro f hf
    rw [hstate]
    exact (store_holds out d (fun f hf => (hplaced f hf).isName) hnodup hwritten f hf).read

/-! ### A run -/

/-- The text of a drawable with an empty path. -/
def sampleText : String :=
  "<vector xmlns:android=\"http://schemas.android.com/apk/res/android\" android:width=\"2dp\" "
    ++ "android:height=\"2dp\" android:viewportWidth=\"2\" android:viewportHeight=\"2\">"
    ++ "<path android:pathData=\"M0 0\"/></vector>"

/-- Files of which all that end in `.xml` hold the same drawable. -/
def sampleFiles : FileView where
  isDirectory _ := false
  entries _ := .error .notDirectory
  bytes location := if location.endsWith ".xml" then .ok sampleText.toUTF8 else .error .notFound

/-- Options for shapes from drawables. -/
def sampleOptions : Options where
  inputFormat := .drawable
  backend := .nativeShape
  preview := false

/-- Makes no drawables. -/
def sampleNormalize (_ : FileView) (file : String) : Normalized :=
  ⟨[], .error (.normalize file "no drawable")⟩

/-- Two files whose names make the same identifier, and one that is not there. -/
def sampleInput : Input := .files ["a.xml", "A.xml", "a.txt"]

/-- In a run over files with one identifier, every output is stored beside the others. -/
theorem outputs_of_one_identifier :
    ∃ log r d', (run Disk.save sampleNormalize sampleFiles sampleOptions (some "out")
        sampleInput).run .empty = ((log, .ok r), d')
      ∧ r.written = ["out/icons/A.swift", "out/icons/A2.swift", "out/icons/Icons+AllAssets.swift"]
      ∧ (r.sources sampleOptions).Pairwise Apart
      ∧ ∀ f ∈ r.sources sampleOptions,
        d'.read (Location.join "out" f.location) = .ok f.text.toUTF8 := by
  have hrun : ((run Disk.save sampleNormalize sampleFiles sampleOptions (some "out")
      sampleInput).run .empty).1.2.toOption.map
        (fun r => (r.written, (r.sources sampleOptions).length))
      = some (["out/icons/A.swift", "out/icons/A2.swift", "out/icons/Icons+AllAssets.swift"], 3) := by
    decide +kernel
  obtain ⟨hapart, hstored⟩ :=
    outputs_never_overlap sampleNormalize sampleFiles sampleOptions sampleInput
  obtain ⟨log, r, d', hresult, hfound⟩ := exists_report hrun
  obtain ⟨hwritten, hlength⟩ := Prod.mk.inj hfound
  refine ⟨log, r, d', hresult, hwritten, hapart _ _ _ _ _ _ hresult, hstored _ _ _ _ _ hresult ?_⟩
  rw [hwritten, hlength]
  rfl

end Iconsmith.Batch
