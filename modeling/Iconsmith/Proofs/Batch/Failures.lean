import Iconsmith.Proofs.Batch.Writes

/-!
# Failures of runs

The failures of a run come from reading its files, from making drawables and sources of them, from the
accessors of its groups and from writing. What holds of each of these holds of all failures in the
report.
-/

namespace Iconsmith

/-! ### Failures of writing -/

/-- A file cannot be saved because of the disk. -/
lemma Disk.save_eq_error {location text : String} {d : Disk} {e : Failure}
    (h : ((save location text).run d).1 = .error e) :
    ∃ location' fault, e = .filesystem location' fault := by
  have hfailing {place : String} {result : Except FileFault Unit}
      (h : failing place result = .error e) : ∃ location' fault, e = .filesystem location' fault := by
    cases result with
    | ok => cases h
    | error fault =>
      cases h
      exact ⟨place, fault, rfl⟩
  change (save location text d).1 = .error e at h
  unfold save at h
  dsimp only at h
  split at h <;> dsimp only at h <;> exact hfailing h

namespace Batch

/-! ### Failures of the parts of a run -/

namespace Workshop

variable {w : Workshop} {P : Failure → Prop}

/-- A property of all failures that files and directories can end in. -/
structure Admits (w : Workshop) (P : Failure → Prop) : Prop where
  format : ∀ location extension, P (.inputFormat location extension)
  filesystem : ∀ location fault, P (.filesystem location fault)
  reading : ∀ location e, P (.ofDrawable location e)
  normalizer : ∀ location e, (w.normalize w.files location).drawable = .error e → P e
  emission : ∀ location group names g e,
    w.backend.icon w.options.settings group (Naming.Allocator.allocate names (w.identifierOf location)).1 g
      = .error e → P (.emit location e.message)

namespace Admits

lemma graphic (h : w.Admits P) {file : String} {e : Failure} (he : w.graphic file = .error e) :
    P e := by
  rcases graphic_eq_error he with ⟨fault, rfl⟩ | ⟨-, hdrawable⟩ | ⟨fault, rfl⟩
  · exact h.filesystem file fault
  · exact h.normalizer file e hdrawable
  · exact h.reading file fault

lemma becomes (h : w.Admits P) {group : Group} {names after : Naming.Allocator} {file : String}
    {r : Except Failure Artifact} (hbecomes : w.Becomes group names file r after) :
    ∀ e, r = .error e → P e := by
  cases hbecomes with
  | foreign =>
    rintro _ ⟨⟩
    exact h.format file _
  | unreadable accepted failed =>
    rintro _ ⟨⟩
    exact h.graphic failed
  | inexpressible accepted read failed =>
    rintro _ ⟨⟩
    exact h.emission file group names _ _ failed
  | icon => nofun

/-- A property of all failures of files and directories is one of all failures of generation. -/
lemma generate (h : w.Admits P) (input : Input) : ∀ e ∈ (w.generate input).failures, P e := by
  have hdirectory {root : String} {t : Tree} {os : List Outcome}
      (hvisits : w.Visits maxDepth root w.options.rootGroup t os) :
      ∀ o ∈ os, ∀ e, o.result = .error e → P e := by
    refine hvisits.forall_mem (fun o group before after _ hbecomes => h.becomes hbecomes) ?_
    rintro dir fault - _ ⟨⟩
    exact h.filesystem dir fault
  have hfiles (locations : List String) :
      ∀ o ∈ w.listOutcomes locations, ∀ e, o.result = .error e → P e := by
    intro o ho
    obtain ⟨before, after, hbecomes⟩ := w.exists_becomes ho
    exact h.becomes hbecomes
  obtain ⟨os, hadmitted, hos⟩ := w.generate_spec
    (P := fun _ _ os => ∀ o ∈ os, ∀ e, o.result = .error e → P e)
    (fun _ _ _ => hdirectory) hfiles input
  rw [hos.failures]
  intro e he
  obtain ⟨o, ho, hresult⟩ := Outcome.mem_failures.mp he
  exact hadmitted o ho e hresult

end Admits

/-- The failures of accessors are those to generate them, each in the directory of its group. -/
lemma mem_failures_accessors (ts : List Tree) {e : Failure} :
    e ∈ (w.accessors ts).failures ↔ ∃ t ∈ ts, ∃ e',
      w.options.backend.accessor w.options.settings t.members = .error e'
        ∧ e = .emit (Location.ofNames t.group.directory) e'.message := by
  simp only [← w.errors_accessorOf, List.mem_flatMap, List.mem_map, exists_exists_and_eq_and]
  refine exists_congr fun t => and_congr_right fun _ => ?_
  unfold Options.accessorOf
  cases w.options.backend.accessor w.options.settings t.members with
  | ok f => simp [Except.mapError, errors]
  | error e' => simp [Except.mapError, errors]

end Workshop

section Store

variable {σ : Type} {write : String → String → StateM σ (Except Failure Unit)}
  {P : Failure → Prop}

/-- A property of all failures of writing a file is one of all failures of storing files. -/
lemma forall_failures_store
    (hwrite : ∀ location text s e, ((write location text).run s).1 = .error e → P e)
    (out : String) (fs : List Source.File) (s : σ) :
    ∀ e ∈ ((store write out fs).run s).1.failures, P e := by
  induction fs generalizing s with
  | nil => nofun
  | cons f fs ih =>
    rw [failures_store_cons]
    refine List.forall_mem_append.mpr ⟨fun e he => ?_, ih _⟩
    cases hresult : ((write (Location.join out f.location) f.text).run s).1 with
    | ok =>
      rw [hresult] at he
      cases he
    | error e' =>
      rw [hresult] at he
      obtain rfl := List.mem_singleton.mp he
      exact hwrite _ _ s e hresult

end Store

/-! ### Failures of a report -/

/-- The failures of a run are those of generation and, if there is an output, those of accessors and of
writing. -/
lemma mem_failures_run {σ : Type} {write : String → String → StateM σ (Except Failure Unit)}
    {normalize : FileView → String → Normalized} {files : FileView} {options : Options}
    {out : Option String} {input : Input} {s s' : σ} {log : List Log.Record} {r : Report}
    {w : Workshop} {notices : List Log.Record}
    (hprepare : prepare options files normalize input = .ok (w, notices))
    (hrun : (run write normalize files options out input).run s = ((log, .ok r), s')) {e : Failure} :
    e ∈ r.failures ↔ e ∈ (w.generate input).failures ∨ ∃ dir, out = some dir
      ∧ (e ∈ (w.accessors r.root.walk).failures
        ∨ e ∈ ((store write dir (w.sources input)).run s).1.failures) := by
  cases out with
  | none =>
    obtain ⟨log', hnone⟩ := run_none (m := StateM σ) write hprepare
    rw [hnone] at hrun
    cases hrun
    simp
  | some dir =>
    obtain ⟨log', hsome⟩ := run_some write hprepare dir s
    rw [hsome] at hrun
    cases hrun
    simp

end Batch

end Iconsmith
