import Iconsmith.Batch.Store
import Iconsmith.Options.Reader
import Iconsmith.Proofs.Batch.Failures

/-!
# Classes of failures

A failure that a run records is about one file, and its class says so. A failure that keeps a run
from beginning, or that keeps options from being loaded, is fatal, unless it is that the file which
holds the colors or the options cannot be read, or that there is no scratch directory.
-/

namespace Iconsmith

namespace Failure

/-- A failure is about a single file. -/
def IsScoped (e : Failure) : Prop :=
  e.kind ≠ .fatal

/-- A failure is that a file cannot be read. -/
def IsUnreadable (files : FileView) (location : String) (e : Failure) : Prop :=
  ∃ fault, files.text location = .error fault ∧ e = .filesystem location fault

/-- A failure is that there is no scratch directory. -/
def LacksScratch (files : FileView) (e : Failure) : Prop :=
  ∃ location fault, files.scratch = .error (location, fault) ∧ e = .filesystem location fault

lemma isScoped_filesystem (location : String) (fault : FileFault) :
    (filesystem location fault).IsScoped :=
  nofun

lemma isScoped_emit (location message : String) : (emit location message).IsScoped :=
  nofun

lemma isScoped_ofDrawable (location : String) (e : Drawable.Error) :
    (ofDrawable location e).IsScoped := by
  cases e <;> nofun

lemma IsUnreadable.isScoped {files : FileView} {location : String} {e : Failure}
    (h : e.IsUnreadable files location) : e.IsScoped := by
  obtain ⟨fault, -, rfl⟩ := h
  exact isScoped_filesystem location fault

lemma LacksScratch.isScoped {files : FileView} {e : Failure} (h : e.LacksScratch files) :
    e.IsScoped := by
  obtain ⟨location, fault, -, rfl⟩ := h
  exact isScoped_filesystem location fault

end Failure

/-! ### Failures of the parts of a run -/

lemma Svg.SceneReader.isScoped_normalize {read : SceneReader} {files : FileView} {location : String}
    {e : Failure} (h : (read.normalize files location).drawable = .error e) : e.IsScoped := by
  rcases normalize_eq_error h with ⟨fault, rfl⟩ | ⟨message, rfl⟩
  · exact Failure.isScoped_filesystem location fault
  · nofun

lemma Disk.isScoped_save {location text : String} {d : Disk} {e : Failure}
    (h : ((save location text).run d).1 = .error e) : e.IsScoped := by
  obtain ⟨location', fault, rfl⟩ := save_eq_error h
  exact Failure.isScoped_filesystem location' fault

namespace Batch

namespace Workshop

/-- Every failure of generation is about a file. -/
lemma isScoped_generate (w : Workshop)
    (hnormalize : ∀ location e, (w.normalize w.files location).drawable = .error e → e.IsScoped)
    (input : Input) : ∀ e ∈ (w.generate input).failures, e.IsScoped := by
  have hadmits : w.Admits Failure.IsScoped := {
    format := nofun
    filesystem := Failure.isScoped_filesystem
    reading := Failure.isScoped_ofDrawable
    normalizer := hnormalize
    emission := fun location _ _ _ _ _ => Failure.isScoped_emit location _ }
  exact hadmits.generate input

/-- Every failure of an accessor is about its file. -/
lemma isScoped_accessors (w : Workshop) (ts : List Tree) :
    ∀ e ∈ (w.accessors ts).failures, e.IsScoped := by
  intro e he
  obtain ⟨t, -, e', -, rfl⟩ := mem_failures_accessors ts |>.mp he
  exact Failure.isScoped_emit _ _

end Workshop

/-! ### Failures that come first -/

lemma kind_validate {options : Options} {e : Failure} (h : options.validate = .error e) :
    e.kind = .fatal := by
  unfold Options.validate at h
  split_ifs at h <;> cases h <;> rfl

lemma kind_checkInput {files : FileView} {input : Input} {e : Failure}
    (h : checkInput files input = .error e) : e.kind = .fatal := by
  unfold checkInput at h
  split at h
  · split_ifs at h
    cases h
    rfl
  · cases h

lemma kind_loadColors {files : FileView} {colors : Option String} {e : Failure}
    (h : loadColors files colors = .error e) :
    e.kind = .fatal ∨ ∃ location, colors = some location ∧ e.IsUnreadable files location := by
  cases colors with
  | none => cases h
  | some location =>
    simp only [loadColors] at h
    cases htext : files.text location with
    | error fault =>
      rw [htext] at h
      cases h
      exact Or.inr ⟨location, rfl, fault, htext, rfl⟩
    | ok text =>
      rw [htext] at h
      cases htable : Color.Table.ofResources text with
      | ok t => simp [htable] at h
      | error fault =>
        simp only [htable, Except.error.injEq] at h
        rw [← h]
        exact Or.inl rfl

lemma lacksScratch_of_checkScratch {files : FileView} {e : Failure}
    (h : checkScratch files = .error e) : e.LacksScratch files := by
  obtain ⟨⟨location, fault⟩, hscratch, rfl⟩ := mapError_eq_error.mp h
  exact ⟨location, fault, hscratch, rfl⟩

/-- A run does not begin because of its options or its input, because there is no scratch directory, or
because the file with its colors cannot be read. -/
lemma kind_prepare {options : Options} {files : FileView}
    {normalize : FileView → String → Normalized} {input : Input} {e : Failure}
    (h : prepare options files normalize input = .error e) :
    e.kind = .fatal ∨ e.LacksScratch files
      ∨ ∃ location, options.colorResources = some location ∧ e.IsUnreadable files location := by
  rcases bind_eq_error.mp h with hvalidate | ⟨_, -, h⟩
  · exact Or.inl (kind_validate hvalidate)
  rcases bind_eq_error.mp h with hinput | ⟨_, -, h⟩
  · exact Or.inl (kind_checkInput hinput)
  rcases bind_eq_error.mp h with hscratch | ⟨_, -, h⟩
  · exact Or.inr (Or.inl (lacksScratch_of_checkScratch hscratch))
  rcases bind_eq_error.mp h with hcolors | ⟨_, -, h⟩
  · exact (kind_loadColors hcolors).imp_right Or.inr
  · cases h

lemma kind_load {files : FileView} {location : String} {e : Failure}
    (h : Options.load files location = .error e) :
    e.kind = .fatal ∨ e.IsUnreadable files location := by
  unfold Options.load at h
  cases htext : files.text location with
  | error fault =>
    rw [htext] at h
    cases h
    exact Or.inr ⟨fault, htext, rfl⟩
  | ok text =>
    rw [htext] at h
    cases hoptions : Options.ofText? text with
    | some o => simp [hoptions] at h
    | none =>
      simp only [hoptions, Except.error.injEq] at h
      rw [← h]
      exact Or.inl rfl

/-! ### Runs -/

/-- Options that cannot be loaded, and a run that cannot begin, fail with a fatal failure, unless the
file with the options or with the colors cannot be read, or there is no scratch directory. None of the
failures that a run records is fatal, if none is that of making a drawable or of writing a file. -/
theorem failures_by_class {σ : Type} (write : String → String → StateM σ (Except Failure Unit))
    (normalize : FileView → String → Normalized) (files : FileView) (options : Options)
    (out : Option String) (input : Input) (s : σ)
    (hnormalize : ∀ location e, (normalize files location).drawable = .error e → e.IsScoped)
    (hwrite : ∀ location text s e, ((write location text).run s).1 = .error e → e.IsScoped) :
    (∀ location e, Options.load files location = .error e →
      (e.kind = .fatal ↔ ¬ e.IsUnreadable files location))
    ∧ (∀ log e s', (run write normalize files options out input).run s = ((log, .error e), s') →
      (e.kind = .fatal ↔ ¬ (e.LacksScratch files
        ∨ ∃ location, options.colorResources = some location ∧ e.IsUnreadable files location)))
    ∧ ∀ log r s', (run write normalize files options out input).run s = ((log, .ok r), s') →
      ∀ e ∈ r.failures, e.kind ≠ .fatal := by
  refine ⟨fun location e he => ?_, fun log e s' hrun => ?_, fun log r s' hrun => ?_⟩
  · constructor
    · exact fun hkind hunreadable => hunreadable.isScoped hkind
    · exact (kind_load he).resolve_right
  · have hprepare : prepare options files normalize input = .error e := by
      cases hprepare : prepare options files normalize input with
      | error e' =>
        rw [run_of_prepare_error write hprepare] at hrun
        cases hrun
        rfl
      | ok prepared =>
        rw [run_of_prepare hprepare] at hrun
        cases hrun
    constructor
    · rintro hkind (hscratch | ⟨location, -, hunreadable⟩)
      · exact hscratch.isScoped hkind
      · exact hunreadable.isScoped hkind
    · exact (kind_prepare hprepare).resolve_right
  · obtain ⟨w, notices, hprepare⟩ := exists_prepare hrun
    obtain ⟨-, -, -, hfiles, hnormalizer⟩ := prepare_eq_ok hprepare
    have hgenerate : ∀ e ∈ (w.generate input).failures, e.IsScoped := by
      refine w.isScoped_generate ?_ input
      rw [hfiles, hnormalizer]
      exact hnormalize
    cases out with
    | none =>
      obtain ⟨log', hnone⟩ := run_none (m := StateM σ) write hprepare
      rw [hnone] at hrun
      cases hrun
      exact hgenerate
    | some dir =>
      obtain ⟨log', hsome⟩ := run_some write hprepare dir s
      rw [hsome] at hrun
      cases hrun
      exact List.forall_mem_append.mpr ⟨hgenerate, List.forall_mem_append.mpr
        ⟨w.isScoped_accessors _, forall_failures_store hwrite dir _ s⟩⟩

/-- A disk on which a file is where the output should go. -/
def fullDisk : Disk :=
  ⟨[(["out"], .file .empty)]⟩

/-- On a disk with nothing to read and no room for output, all failures of a run are about files. -/
theorem classes_on_full_disk :
    ∃ log r d', (run Disk.save Svg.normalize fullDisk.view {} (some "out")
        (.files ["a.svg", "b.txt"])).run fullDisk = ((log, .ok r), d')
      ∧ r.failures.map (fun e => (e.kind, e.location?)) = [(.filesystem, some "a.svg"),
        (.inputFormat, some "b.txt"), (.filesystem, some "out/com/example/icons")]
      ∧ ∀ e ∈ r.failures, e.kind ≠ .fatal := by
  have hreport : ((run Disk.save Svg.normalize fullDisk.view {} (some "out")
      (.files ["a.svg", "b.txt"])).run fullDisk).1.2.toOption.map
        (fun r => r.failures.map fun e => (e.kind, e.location?))
      = some [(.filesystem, some "a.svg"), (.inputFormat, some "b.txt"),
        (.filesystem, some "out/com/example/icons")] := by
    decide +kernel
  obtain ⟨log, r, d', hrun, hfailures⟩ := exists_report hreport
  have hclasses := failures_by_class Disk.save Svg.normalize fullDisk.view {} (some "out")
    (.files ["a.svg", "b.txt"]) fullDisk (fun _ _ => Svg.SceneReader.isScoped_normalize)
    (fun _ _ _ _ => Disk.isScoped_save)
  exact ⟨log, r, d', hrun, hfailures, hclasses.2.2 log r d' hrun⟩

/-- A view of no files, without a scratch directory. -/
def crampedView : FileView :=
  { Disk.empty.view with scratch := .error ("tmp", .notFound) }

/-- Options and colors in files that are missing end in failures that are not fatal, and so does a run
without a scratch directory. -/
theorem classes_of_missing_files :
    (errors (Options.load Disk.empty.view "options.json")).map (·.kind) = [.filesystem]
      ∧ (errors (run (m := Id) writeNothing Svg.normalize Disk.empty.view
        { colorResources := some "colors.xml" } none (.files [])).2).map (·.kind)
        = [.filesystem]
      ∧ (errors (run (m := Id) writeNothing Svg.normalize crampedView {} none (.files [])).2).map
        (·.kind) = [.filesystem] := by
  decide +kernel

end Batch

end Iconsmith
