import Iconsmith.Proofs.Batch.Entries
import Iconsmith.Proofs.Files.Disks
import Iconsmith.Proofs.Results

/-!
# Reports of runs

The icons and the tree of a report are those that were generated; writing them adds failures and the
locations of the files that were written. Files with different names are stored side by side.
-/

namespace Iconsmith.Batch

/-! ### Generation -/

namespace Workshop

variable (w : Workshop)

lemma generate_directory (root : String) :
    ∃ os, w.Visits maxDepth root w.options.rootGroup (w.generate (.directory root)).value os
      ∧ (w.generate (.directory root)).Explained os := by
  obtain ⟨os, hvisits, hos⟩ := w.directory_visits maxDepth root w.options.rootGroup
  exact ⟨os, hvisits, hos.after_notes ..⟩

/-- What is generated for a directory in which all names take part and are in order. -/
lemma generate_of_pairwise {root : String} {names : List String}
    (hentries : w.files.entries root = .ok names) (hlost : w.files.lost root = [])
    (hvisible : ∀ n ∈ names, isVisible n = true) (h : names.Pairwise (· ≤ ·)) :
    w.generate (.directory root) = (do
      .note .info .batch (w.startNotice (.directory root))
      let (icons, symbols) ← (w.icons w.options.rootGroup (ownNames w.options.rootGroup)
        ((names.map (Location.join root)).filter (!w.files.isDirectory ·))).alone
      let children ← (w.subdirectories (w.directory (maxDepth - 1)) w.options.rootGroup
        ⟨symbols, []⟩ ((names.map (Location.join root)).filter (w.files.isDirectory ·))).alone
      return .node w.options.rootGroup icons children) := by
  have hvisit := visitWith_of_entries
    (w.steady_subdirectories (w.steady_directory (maxDepth - 1))) hentries w.options.rootGroup
  rw [FileView.faults_of_entries hentries, hlost, List.map_nil, Production.fails_nil, pure_bind,
    filesIn, dirsIn, inside_of_pairwise root hvisible h] at hvisit
  rw [← hvisit]
  rfl

/-- The tree for such a directory, by the outcomes of the files inside. -/
lemma value_generate_of_pairwise {root : String} {names files : List String}
    (hentries : w.files.entries root = .ok names) (hlost : w.files.lost root = [])
    (hvisible : ∀ n ∈ names, isVisible n = true) (h : names.Pairwise (· ≤ ·))
    (hfiles : (names.map (Location.join root)).filter (!w.files.isDirectory ·) = files) :
    (w.generate (.directory root)).value = .node w.options.rootGroup
      (Outcome.icons (w.outcomes w.options.rootGroup (ownNames w.options.rootGroup) files).1)
      (w.subdirectories (w.directory (maxDepth - 1)) w.options.rootGroup
        ⟨(w.outcomes w.options.rootGroup (ownNames w.options.rootGroup) files).2, []⟩
        ((names.map (Location.join root)).filter (w.files.isDirectory ·))).alone.value := by
  rw [w.generate_of_pairwise hentries hlost hvisible h, hfiles]
  simp only [Production.value_bind, (w.icons_spec _ _ files).1]
  rfl

/-- The outcomes of the files of a list. -/
def listOutcomes (locations : List String) : List Outcome :=
  (w.outcomes w.options.rootGroup (ownNames w.options.rootGroup) (distinct locations)).1

lemma generate_files (locations : List String) :
    (w.generate (.files locations)).value
        = .node w.options.rootGroup (Outcome.icons (w.listOutcomes locations)) []
      ∧ (w.generate (.files locations)).Explained (w.listOutcomes locations) := by
  obtain ⟨hvalue, hartifacts, hfailures⟩ :=
    w.icons_spec w.options.rootGroup (ownNames w.options.rootGroup) (distinct locations)
  have hicons : (w.icons w.options.rootGroup (ownNames w.options.rootGroup)
      (distinct locations)).alone.Explained (w.listOutcomes locations) := ⟨hartifacts, hfailures⟩
  simp only [generate, w.alone_fileList]
  split_ifs
  · exact ⟨by simp [hvalue, listOutcomes],
      .after_notes (.after_notes (hicons.bind_pure fun p => Tree.node w.options.rootGroup p.1 []) ..) ..⟩
  · exact ⟨by simp [hvalue, listOutcomes],
      .after_notes (hicons.bind_pure fun p => Tree.node w.options.rootGroup p.1 []) ..⟩

/-- What holds of every visit from the root group, and of every list of files, holds of what is
generated. -/
lemma generate_spec {P : Input → Tree → List Outcome → Prop}
    (directory : ∀ root t os, w.Visits maxDepth root w.options.rootGroup t os →
      P (.directory root) t os)
    (files : ∀ locations, P (.files locations)
      (.node w.options.rootGroup (Outcome.icons (w.listOutcomes locations)) [])
      (w.listOutcomes locations)) (input : Input) :
    ∃ os, P input (w.generate input).value os ∧ (w.generate input).Explained os := by
  cases input with
  | directory root =>
    obtain ⟨os, hvisits, hos⟩ := w.generate_directory root
    exact ⟨os, directory root _ os hvisits, hos⟩
  | files locations =>
    obtain ⟨hvalue, hos⟩ := w.generate_files locations
    exact ⟨_, hvalue ▸ files locations, hos⟩

/-- The tree that is generated is sound, and its root is the root group. -/
lemma generate_sound (input : Input) :
    (w.generate input).value.group = w.options.rootGroup ∧ (w.generate input).value.Sound := by
  obtain ⟨-, hsound, -⟩ := w.generate_spec
    (P := fun _ t _ => t.group = w.options.rootGroup ∧ t.Sound) (fun _ _ _ => Visits.sound)
    (fun locations => ⟨rfl, sound_leaf w.options.rootGroup (distinct locations)⟩) input
  exact hsound

/-- The icons that are generated are those of the tree. -/
lemma generate_traced (input : Input) :
    ∃ os, w.Traced (w.generate input).value.entries os ∧ (w.generate input).Explained os :=
  w.generate_spec (P := fun _ t os => w.Traced t.entries os) (fun _ _ _ => Visits.traced)
    (fun locations => w.leaf_traced w.options.rootGroup (distinct locations)) input

lemma generate_generated (input : Input) :
    List.Forall₂ w.Generated (w.generate input).value.entries (w.generate input).artifacts := by
  obtain ⟨os, htraced, hos⟩ := w.generate_traced input
  rw [hos.artifacts]
  exact htraced.generated

end Workshop

/-! ### Storing files -/

section Store

variable {σ : Type} (write : String → String → StateM σ (Except Failure Unit)) (out : String)

lemma store_cons (f : Source.File) (fs : List Source.File) (s : σ) :
    (store write out (f :: fs)).run s =
      let r := (write (Location.join out f.location) f.text).run s
      let p := (store write out fs).run r.2
      (do
        let done ← Production.accept r.1
        let others ← p.1
        return (done.map fun _ => Location.join out f.location).toList ++ others, p.2) := rfl

lemma state_store_cons (f : Source.File) (fs : List Source.File) (s : σ) :
    ((store write out (f :: fs)).run s).2 =
      ((store write out fs).run ((write (Location.join out f.location) f.text).run s).2).2 := rfl

/-- The locations that are given are those of the files for which `write` succeeds. -/
lemma value_store_cons (f : Source.File) (fs : List Source.File) (s : σ) :
    ((store write out (f :: fs)).run s).1.value =
      let r := (write (Location.join out f.location) f.text).run s
      (match r.1 with
        | .ok _ => [Location.join out f.location]
        | .error _ => []) ++ ((store write out fs).run r.2).1.value := by
  rw [store_cons]
  dsimp only
  cases ((write (Location.join out f.location) f.text).run s).1 <;> rfl

lemma artifacts_store (fs : List Source.File) (s : σ) :
    ((store write out fs).run s).1.artifacts = [] := by
  induction fs generalizing s with
  | nil => rfl
  | cons f fs ih => simp [store_cons, ih]

lemma length_store_le (fs : List Source.File) (s : σ) :
    ((store write out fs).run s).1.value.length ≤ fs.length := by
  induction fs generalizing s with
  | nil => exact le_rfl
  | cons f fs ih =>
    have := ih ((write (Location.join out f.location) f.text).run s).2
    rw [value_store_cons]
    dsimp only
    split <;> simp only [List.length_append, List.length_cons, List.length_nil] <;> omega

end Store

/-- The names of a file lead to it, below any directory. -/
def HasNames (f : Source.File) : Prop :=
  f.names ≠ [] ∧ ∀ n ∈ f.names, Location.IsName n

lemma placeOf_target (out : String) {f : Source.File} (h : HasNames f) :
    Disk.placeOf (Location.join out f.location) = Disk.placeOf out ++ f.names :=
  Disk.placeOf_join out (Location.relative_ofNames h.1 h.2) (Location.pieces_ofNames h.1 h.2) h.2

/-- A file stays where it is while files with other names are stored. -/
lemma holds_of_store (out : String) {f : Source.File} {fs : List Source.File} (d : Disk)
    (hf : HasNames f) (hfs : ∀ g ∈ fs, HasNames g) (hne : ∀ g ∈ fs, g.names ≠ f.names)
    (h : d.Holds (Location.join out f.location) f.text) :
    ((store Disk.save out fs).run d).2.Holds (Location.join out f.location) f.text := by
  induction fs generalizing d with
  | nil => exact h
  | cons g fs ih =>
    rw [List.forall_mem_cons] at hfs hne
    rw [state_store_cons]
    refine ih _ hfs.2 hne.2 ?_
    refine h.of_changes (d.save_spec (Location.join out g.location) g.text).1 ?_
    rw [placeOf_target out hf, placeOf_target out hfs.1]
    exact fun heq => hne.1 (List.append_cancel_left heq).symm

/-- If all files of a list are stored, and their names differ, then each can be read afterwards. -/
lemma store_holds (out : String) {fs : List Source.File} (d : Disk)
    (hfs : ∀ f ∈ fs, HasNames f) (hnodup : (fs.map (·.names)).Nodup)
    (hall : ((store Disk.save out fs).run d).1.value.length = fs.length) :
    ∀ f ∈ fs, ((store Disk.save out fs).run d).2.Holds (Location.join out f.location) f.text := by
  induction fs generalizing d with
  | nil => simp
  | cons f fs ih =>
    rw [List.forall_mem_cons] at hfs
    rw [List.map_cons, List.nodup_cons] at hnodup
    have hlength := length_store_le Disk.save out fs
      ((Disk.save (Location.join out f.location) f.text).run d).2
    rw [value_store_cons] at hall
    dsimp only at hall
    cases hsaved : ((Disk.save (Location.join out f.location) f.text).run d).1 with
    | error e =>
      simp only [hsaved, List.nil_append, List.length_cons] at hall
      omega
    | ok =>
      simp only [hsaved, List.singleton_append, List.length_cons, Nat.add_right_cancel_iff] at hall
      rw [state_store_cons]
      refine List.forall_mem_cons.mpr ⟨?_, ih _ hfs.2 hnodup.2 hall⟩
      refine holds_of_store out _ hfs.1 hfs.2 (fun g hg heq => hnodup.1 ?_) ?_
      · exact List.mem_map.mpr ⟨g, hg, heq⟩
      · exact (d.save_spec (Location.join out f.location) f.text).2 hsaved

/-! ### Accessors -/

namespace Workshop

variable (w : Workshop)

/-- The accessor of a group, if it can be generated. -/
def accessor? (t : Tree) : Option Source.File :=
  (w.backend.accessor w.options.settings t.members).toOption

lemma value_accessors (ts : List Tree) : (w.accessors ts).value = ts.filterMap w.accessor? := by
  induction ts with
  | nil => rfl
  | cons t ts ih =>
    simp only [accessors, Production.value_bind, Production.value_pure, ih, accessor, accessor?,
      List.filterMap_cons]
    cases w.backend.accessor w.options.settings t.members <;> rfl

lemma artifacts_accessors (ts : List Tree) : (w.accessors ts).artifacts = [] := by
  induction ts with
  | nil => rfl
  | cons t ts ih =>
    simp only [accessors, Production.artifacts_bind, Production.artifacts_pure, ih, accessor]
    cases w.backend.accessor w.options.settings t.members <;> rfl

/-- The sources that are generated for an input: those of its icons and the accessors of its
groups. -/
def sources (input : Input) : List Source.File :=
  (w.generate input).artifacts.map (·.source)
    ++ (w.generate input).value.walk.filterMap w.accessor?

end Workshop

/-! ### Runs -/

/-- The sources that belong to a report: those of its icons and the accessors of its groups. -/
def Report.sources (r : Report) (options : Options) : List Source.File :=
  r.artifacts.map (·.source) ++ r.root.walk.filterMap fun t =>
    (options.backend.accessor options.settings t.members).toOption

lemma prepare_eq_ok {options : Options} {files : FileView}
    {normalize : FileView → String → Normalized} {input : Input} {w : Workshop}
    {notices : List Log.Record} (h : prepare options files normalize input = .ok (w, notices)) :
    options.validate = .ok () ∧ checkInput files input = .ok () ∧ w.options = options
      ∧ w.files = files ∧ w.normalize = normalize := by
  obtain ⟨⟨⟩, hvalid, h⟩ := bind_eq_ok.mp h
  obtain ⟨⟨⟩, hinput, h⟩ := bind_eq_ok.mp h
  obtain ⟨-, -, h⟩ := bind_eq_ok.mp h
  obtain ⟨colors, -, h⟩ := bind_eq_ok.mp h
  cases h
  exact ⟨hvalid, hinput, rfl, rfl, rfl⟩

lemma isIdentifier_accessor {options : Options} (h : options.validate = .ok ()) :
    Naming.isIdentifier options.accessor = true := by
  unfold Options.validate at h
  split_ifs at h with haccessor
  simpa using haccessor

/-- Whether a run begins, and with which colors, does not depend on other files. -/
lemma prepare_congr (options : Options) {files files' : FileView}
    (normalize : FileView → String → Normalized) {input : Input}
    (hinput : checkInput files' input = checkInput files input)
    (hscratch : checkScratch files' = checkScratch files)
    (hcolors : loadColors files' options.colorResources = loadColors files options.colorResources) :
    prepare options files' normalize input = (prepare options files normalize input).map
      fun prepared => ({ prepared.1 with files := files' }, prepared.2) := by
  unfold prepare
  rw [hinput, hscratch, hcolors]
  cases options.validate with
  | error e => rfl
  | ok =>
    cases checkInput files input with
    | error e => rfl
    | ok =>
      cases checkScratch files with
      | error e => rfl
      | ok => cases loadColors files options.colorResources <;> rfl

section Run

variable {σ : Type} {write : String → String → StateM σ (Except Failure Unit)}
  {normalize : FileView → String → Normalized} {files : FileView} {options : Options}
  {input : Input} {s s' : σ} {log : List Log.Record} {r : Report}

/-- What a run that begins does after it has generated the icons. -/
lemma run_of_prepare {w : Workshop} {notices : List Log.Record} {out : Option String}
    (hprepare : prepare options files normalize input = .ok (w, notices)) :
    (run write normalize files options out input).run s =
      let stored := (match out with
        | none => pure (pure [])
        | some dir => output write w dir (w.generate input) :
        StateM σ (Production (List String))).run s
      let (log, r) := report do
        let tree ← w.generate input
        let locations ← stored.1
        return (tree, locations)
      ((notices ++ log, .ok r), stored.2) := by
  unfold run
  rw [hprepare]
  cases out <;> rfl

variable (write) in
lemma run_of_prepare_error {e : Failure} (h : prepare options files normalize input = .error e)
    (out : Option String) :
    run write normalize files options out input = pure ([], .error e) := by
  unfold run
  rw [h]

lemma exists_prepare {out : Option String}
    (h : (run write normalize files options out input).run s = ((log, .ok r), s')) :
    ∃ w notices, prepare options files normalize input = .ok (w, notices) := by
  cases hprepare : prepare options files normalize input with
  | error e =>
    rw [run_of_prepare_error write hprepare] at h
    cases h
  | ok prepared => exact ⟨prepared.1, prepared.2, rfl⟩

lemma artifacts_output (w : Workshop) (out : String) (p : Production Tree) :
    ((output write w out p).run s).1.artifacts = [] := by
  change ((w.accessors p.value.walk).artifacts
    ++ ((store write out (p.artifacts.map (·.source) ++ _)).run s).1.artifacts) = []
  rw [w.artifacts_accessors, artifacts_store]
  rfl

/-- The icons and the tree of a report are those that were generated. -/
lemma run_eq_ok {out : Option String} {w : Workshop} {notices : List Log.Record}
    (hprepare : prepare options files normalize input = .ok (w, notices))
    (h : (run write normalize files options out input).run s = ((log, .ok r), s')) :
    r.artifacts = (w.generate input).artifacts ∧ r.root = (w.generate input).value := by
  rw [run_of_prepare hprepare] at h
  cases out with
  | none =>
    cases h
    exact ⟨List.append_nil _, rfl⟩
  | some dir =>
    cases h
    have := @artifacts_output σ write s w dir (w.generate input)
    simp [this]

/-- The icons and the tree of a report are what a workshop generates for an input, and the icons are
those of the tree. -/
structure Workshop.Reports (w : Workshop) (input : Input) (r : Report) : Prop where
  valid : w.options.validate = .ok ()
  artifacts : r.artifacts = (w.generate input).artifacts
  root : r.root = (w.generate input).value
  group : r.root.group = w.options.rootGroup
  sound : r.root.Sound
  generated : List.Forall₂ w.Generated r.root.entries r.artifacts

lemma reports_of_prepare {out : Option String} {w : Workshop} {notices : List Log.Record}
    (hprepare : prepare options files normalize input = .ok (w, notices))
    (h : (run write normalize files options out input).run s = ((log, .ok r), s')) :
    w.options = options ∧ w.Reports input r := by
  obtain ⟨hartifacts, hroot⟩ := run_eq_ok hprepare h
  obtain ⟨hvalid, -, rfl, -, -⟩ := prepare_eq_ok hprepare
  obtain ⟨hgroup, hsound⟩ := w.generate_sound input
  have hgenerated := w.generate_generated input
  rw [← hroot, ← hartifacts] at hgenerated
  rw [← hroot] at hgroup hsound
  exact ⟨rfl, hvalid, hartifacts, hroot, hgroup, hsound, hgenerated⟩

lemma exists_reports {out : Option String}
    (h : (run write normalize files options out input).run s = ((log, .ok r), s')) :
    ∃ w : Workshop, w.options = options ∧ w.Reports input r := by
  obtain ⟨w, notices, hprepare⟩ := exists_prepare h
  exact ⟨w, reports_of_prepare hprepare h⟩

/-- If something is found in the report of a run, then there is a report. -/
lemma exists_report {α : Type} {result : (List Log.Record × Except Failure Report) × σ}
    {f : Report → α} {a : α} (h : result.1.2.toOption.map f = some a) :
    ∃ log r s', result = ((log, .ok r), s') ∧ f r = a := by
  obtain ⟨⟨log, outcome⟩, s'⟩ := result
  cases outcome with
  | error e => contradiction
  | ok r => exact ⟨log, r, s', rfl, Option.some.inj h⟩

/-- Writing only adds failures to those of the files. -/
lemma failures_prefix {out : Option String} {w : Workshop} {notices : List Log.Record}
    (hprepare : prepare options files normalize input = .ok (w, notices))
    (h : (run write normalize files options out input).run s = ((log, .ok r), s')) :
    (w.generate input).failures <+: r.failures := by
  rw [run_of_prepare hprepare] at h
  cases h
  exact List.prefix_append _ _

lemma sources_eq {out : Option String} {w : Workshop} {notices : List Log.Record}
    (hprepare : prepare options files normalize input = .ok (w, notices))
    (h : (run write normalize files options out input).run s = ((log, .ok r), s')) :
    r.sources options = w.sources input := by
  obtain ⟨hartifacts, hroot⟩ := run_eq_ok hprepare h
  obtain ⟨-, -, hoptions, -, -⟩ := prepare_eq_ok hprepare
  rw [Report.sources, hartifacts, hroot, ← hoptions]
  rfl

/-- The output of a run is what is stored of its sources. -/
lemma output_eq (w : Workshop) (out : String) (input : Input) :
    (output write w out (w.generate input)).run s =
      let stored := (store write out (w.sources input)).run s
      (do
        let _ ← w.accessors (w.generate input).value.walk
        stored.1, stored.2) := by
  rw [Workshop.sources, ← w.value_accessors]
  rfl

/-- The files that were written are those that could be stored. -/
lemma run_some_eq_ok {out : String}
    (h : (run write normalize files options (some out) input).run s = ((log, .ok r), s')) :
    r.written = ((store write out (r.sources options)).run s).1.value
      ∧ s' = ((store write out (r.sources options)).run s).2 := by
  obtain ⟨w, notices, hprepare⟩ := exists_prepare h
  rw [sources_eq hprepare h]
  rw [run_of_prepare hprepare] at h
  dsimp only at h
  rw [output_eq] at h
  cases h
  exact ⟨rfl, rfl⟩

end Run

end Iconsmith.Batch
