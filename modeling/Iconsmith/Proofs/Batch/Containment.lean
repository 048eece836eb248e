import Iconsmith.Proofs.Batch.Outputs

/-!
# Outputs stay inside

A run is given files and directories of any name, but it writes below the directory for output only:
words lead from there to every file that it tries to write. So whatever a disk holds elsewhere is
still there after a run, and no file appears there.
-/

namespace Iconsmith

/-! ### Locations inside a directory -/

/-- A location that leads through words to a file of a framework. -/
structure Source.Backend.Inside (b : Source.Backend) (location : String) : Prop where
  relative : location.startsWith "/" = false
  confined : b.Confined (Location.pieces location)
  /-- Nothing between the slashes stands for a directory. -/
  noDirectory : ∀ p ∈ Location.pieces location, p ≠ "" ∧ p ≠ "." ∧ p ≠ ".."
  parts : Location.parts location = (Location.pieces location).map .named

lemma Source.Backend.Confined.inside {b : Source.Backend} {f : Source.File}
    (h : b.Confined f.names) : b.Inside f.location := by
  obtain ⟨hne, hnames⟩ := h.placed.isName
  have hpieces : Location.pieces f.location = f.names := Location.pieces_ofNames hne hnames
  refine ⟨Location.relative_ofNames hne hnames, ?_, ?_, ?_⟩
  · rwa [hpieces]
  · rw [hpieces]
    exact fun p hp => ⟨(hnames p hp).nonempty, (hnames p hp).notHere, (hnames p hp).notAbove⟩
  · rw [hpieces]
    exact Location.parts_ofNames hnames

namespace Batch

open Source (File)

section Run

variable {σ : Type} (write : String → String → StateM σ (Except Failure Unit))

/-! ### Writes that are recorded -/

/-- Writes in a given way, and records the location. -/
def recording (location text : String) : StateM (σ × List String) (Except Failure Unit) :=
  fun (s, locations) =>
    let (result, s) := (write location text).run s
    (result, s, locations ++ [location])

/-- Where files belong below a directory. -/
def targets (out : String) (fs : List File) : List String :=
  fs.map fun f => Location.join out f.location

/-- Storing files is an attempt to write each of them, in order. -/
lemma store_recording (out : String) (fs : List File) (s : σ) (locations : List String) :
    (store (recording write) out fs).run (s, locations) =
      (((store write out fs).run s).1, ((store write out fs).run s).2,
        locations ++ targets out fs) := by
  induction fs generalizing s locations with
  | nil =>
    change (pure [], s, locations) = (pure [], s, locations ++ [])
    rw [List.append_nil]
  | cons f fs ih =>
    rw [store_cons, store_cons]
    have hstep : (recording write (Location.join out f.location) f.text).run (s, locations)
        = (((write (Location.join out f.location) f.text).run s).1,
          ((write (Location.join out f.location) f.text).run s).2,
          locations ++ [Location.join out f.location]) := rfl
    simp only [hstep, ih, targets, List.map_cons, List.append_assoc, List.singleton_append]

/-- The locations that are given are among those that were attempted, in their order. -/
lemma value_store_sublist (out : String) (fs : List File) (s : σ) :
    ((store write out fs).run s).1.value.Sublist (targets out fs) := by
  induction fs generalizing s with
  | nil => exact .slnil
  | cons f fs ih =>
    rw [value_store_cons, targets, List.map_cons]
    dsimp only
    have ih := ih ((write (Location.join out f.location) f.text).run s).2
    split
    · exact ih.cons_cons _
    · exact ih.cons _

/-! ### What a run attempts -/

variable (normalize : FileView → String → Normalized) (files : FileView) (options : Options)
  (out : Option String) (input : Input)

/-- The locations that a run attempts to write. -/
def attempts : List String :=
  match prepare options files normalize input, out with
  | .ok (w, _), some dir => targets dir (w.sources input)
  | _, _ => []

/-- A run attempts to write the same locations in whatever way it writes. -/
lemma run_recording (s : σ) :
    (run (recording write) normalize files options out input).run (s, []) =
      (((run write normalize files options out input).run s).1,
        ((run write normalize files options out input).run s).2,
        attempts normalize files options out input) := by
  unfold attempts
  cases hprepare : prepare options files normalize input with
  | error e =>
    simp only [run, hprepare]
    rfl
  | ok prepared =>
    obtain ⟨w, notices⟩ := prepared
    rw [run_of_prepare hprepare, run_of_prepare hprepare]
    cases out with
    | none => rfl
    | some dir =>
      dsimp only
      rw [output_eq, output_eq, store_recording, List.nil_append]

lemma attempts_inside {target : String}
    (h : target ∈ attempts normalize files options out input) :
    ∃ dir location, out = some dir ∧ target = Location.join dir location
      ∧ options.backend.Inside location := by
  unfold attempts at h
  split at h
  · next w _ dir hprepare =>
    obtain ⟨f, hf, rfl⟩ := List.mem_map.mp h
    obtain ⟨hvalid, -, rfl, -, -⟩ := prepare_eq_ok hprepare
    exact ⟨dir, f.location, rfl, rfl, ((names_generate w hvalid input).1 f hf).inside⟩
  · simp at h

variable {write normalize files options out input}

lemma written_sublist {s s' : σ} {log : List Log.Record} {r : Report}
    (h : (run write normalize files options out input).run s = ((log, .ok r), s')) :
    r.written.Sublist (attempts normalize files options out input) := by
  obtain ⟨w, notices, hprepare⟩ := exists_prepare h
  simp only [attempts, hprepare]
  cases out with
  | none =>
    rw [run_of_prepare hprepare] at h
    cases h
    exact .slnil
  | some dir =>
    rw [(run_some_eq_ok h).1, sources_eq hprepare h]
    exact value_store_sublist write dir (w.sources input) s

end Run

/-! ### Disks -/

/-- Storing files spares every place that is not below the directory for output. -/
lemma store_spares (out : String) {fs : List File} (d : Disk) (hfs : ∀ f ∈ fs, HasNames f)
    {place : List String} (hplace : ¬ Disk.placeOf out <+: place) :
    d.Spares ((store Disk.save out fs).run d).2 place := by
  induction fs generalizing d with
  | nil => exact .refl d place
  | cons f fs ih =>
    rw [List.forall_mem_cons] at hfs
    have hne : place ≠ Disk.placeOf (Location.join out f.location) := by
      rintro rfl
      exact hplace ⟨f.names, (placeOf_target out hfs.1).symm⟩
    rw [state_store_cons]
    exact (d.save_spares (Location.join out f.location) f.text hne).trans (ih _ hfs.2)

lemma run_spares (normalize : FileView → String → Normalized) (files : FileView)
    (options : Options) (out : String) (input : Input) (d : Disk) {place : List String}
    (hplace : ¬ Disk.placeOf out <+: place) :
    d.Spares ((run Disk.save normalize files options (some out) input).run d).2 place := by
  cases hprepare : prepare options files normalize input with
  | error e =>
    have hstate : ((run Disk.save normalize files options (some out) input).run d).2 = d := by
      simp only [run, hprepare]
      rfl
    rw [hstate]
    exact .refl d place
  | ok prepared =>
    obtain ⟨w, notices⟩ := prepared
    obtain ⟨hvalid, -, rfl, -, -⟩ := prepare_eq_ok hprepare
    rw [run_of_prepare hprepare]
    dsimp only
    rw [output_eq]
    refine store_spares out d (fun f hf => ?_) hplace
    exact ((names_generate w hvalid input).1 f hf).placed.isName

/-- Everything that a run attempts to write is inside the directory for output: words lead there
from that directory, whatever the input is. What a disk holds elsewhere stays as it is. -/
theorem run_stays_inside {σ : Type} (write : String → String → StateM σ (Except Failure Unit))
    (normalize : FileView → String → Normalized) (files : FileView) (options : Options)
    (out : Option String) (input : Input) (s : σ) :
    (∃ log result s' attempted,
      (run write normalize files options out input).run s = ((log, result), s')
        ∧ (run (recording write) normalize files options out input).run (s, [])
          = ((log, result), s', attempted)
        ∧ (∀ target ∈ attempted, ∃ dir location, out = some dir
          ∧ target = Location.join dir location ∧ options.backend.Inside location)
        ∧ ∀ r, result = .ok r → r.written.Sublist attempted)
      ∧ ∀ (dir : String) (d : Disk) (place : List String), ¬ Disk.placeOf dir <+: place →
        d.Spares ((run Disk.save normalize files options (some dir) input).run d).2 place := by
  constructor
  · refine ⟨_, _, _, _, rfl, run_recording write normalize files options out input s,
      fun target htarget => attempts_inside normalize files options out input htarget, ?_⟩
    intro r hr
    exact @written_sublist σ write normalize files options out input s _ _ r
      (Prod.ext (Prod.ext rfl hr) rfl)
  · intro dir d place hplace
    exact run_spares normalize files options dir input d hplace

end Batch

end Iconsmith
