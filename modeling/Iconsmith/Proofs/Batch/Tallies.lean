import Iconsmith.Proofs.Batch.Writes

/-!
# Tallies of runs

A tally of a run says what becomes of each file that the run considers: there is no icon, or the icon
could not be written, or nothing failed. Beside the files there are the directories that could not be
listed and the accessors of the groups. The failures in a report are those of all three, and a file
whose icon could not be written has its icon in the report as well as its failure.
-/

namespace Iconsmith.Batch

open Source (File)
open scoped List

/-! ### What becomes of files -/

/-- What becomes of a file in the end. -/
inductive Fate where
  /-- There is no icon. -/
  | failed (e : Failure)
  /-- There is an icon that could not be written. -/
  | unwritten (a : Artifact) (e : Failure)
  | finished (a : Artifact)

/-- A file with what becomes of it in the end. -/
structure Ending where
  location : String
  fate : Fate

namespace Ending

/-- What became of the file before anything was written. -/
def outcome (x : Ending) : Outcome where
  location := x.location
  result :=
    match x.fate with
    | .failed e => .error e
    | .unwritten a _ | .finished a => .ok a

/-- The failures of the steps that were taken for the file. -/
def failures (x : Ending) : List Failure :=
  match x.fate with
  | .failed e | .unwritten _ e => [e]
  | .finished _ => []

/-- Whether some step failed for the file. -/
def hasFailed (x : Ending) : Bool :=
  !x.failures.isEmpty

/-- Whether the file has an icon that could not be written. -/
def isUnwritten (x : Ending) : Bool :=
  match x.fate with
  | .unwritten .. => true
  | .failed _ | .finished _ => false

/-- What came of writing the icon of the file below a directory, if there is one. -/
def stored? (out : String) (x : Ending) : Option (Except Failure String) :=
  match x.fate with
  | .failed _ => none
  | .unwritten _ e => some (.error e)
  | .finished a => some (.ok (Location.join out a.source.location))

variable (xs : List Ending)

/-- Each failed file counts once among the failures. -/
lemma length_failures : (xs.flatMap failures).length = xs.countP hasFailed := by
  induction xs with
  | nil => rfl
  | cons x xs ih =>
    obtain ⟨location, fate⟩ := x
    rw [List.flatMap_cons, List.length_append, ih, List.countP_cons, Nat.add_comm]
    cases fate <;> rfl

/-- A file whose icon could not be written counts among the failures and among the icons. -/
lemma length_artifacts : xs.countP hasFailed + (Outcome.artifacts (xs.map outcome)).length
    = xs.length + xs.countP isUnwritten := by
  induction xs with
  | nil => rfl
  | cons x xs ih =>
    obtain ⟨location, fate⟩ := x
    rw [List.map_cons, Outcome.artifacts_cons, List.length_append, List.countP_cons,
      List.countP_cons, List.length_cons]
    cases fate with
    | failed e =>
      change xs.countP hasFailed + 1 + (0 + _) = xs.length + 1 + (xs.countP isUnwritten + 0)
      omega
    | unwritten a e =>
      change xs.countP hasFailed + 1 + (1 + _) = xs.length + 1 + (xs.countP isUnwritten + 1)
      omega
    | finished a =>
      change xs.countP hasFailed + 0 + (1 + _) = xs.length + 1 + (xs.countP isUnwritten + 0)
      omega

/-- The failures of files are those before anything was written, and those of writing. -/
lemma failures_perm (out : String) : (xs.flatMap failures).Perm
    (Outcome.failures (xs.map outcome) ++ (xs.filterMap (stored? out)).flatMap errors) := by
  induction xs with
  | nil => exact .nil
  | cons x xs ih =>
    obtain ⟨location, fate⟩ := x
    cases fate with
    | failed e => exact ih.cons e
    | unwritten a e => exact (ih.cons e).trans List.perm_middle.symm
    | finished a => exact ih

end Ending

/-! ### Writing the icons of files -/

section Writing

variable {σ : Type} (write : String → String → StateM σ (Except Failure Unit)) (out : String)

/-- Writing the icons of some files gives each of them its end. -/
lemma exists_endings (os : List Outcome) (s : σ) : ∃ (xs : List Ending) (s' : σ),
    xs.map Ending.outcome = os
      ∧ (((Outcome.artifacts os).map fun a => .ok a.source).mapM (deposit write out)).run s
        = (xs.filterMap (Ending.stored? out), s') := by
  induction os generalizing s with
  | nil => exact ⟨[], s, rfl, rfl⟩
  | cons o os ih =>
    obtain ⟨location, result⟩ := o
    cases result with
    | error e =>
      obtain ⟨xs, s', hxs, hrun⟩ := ih s
      exact ⟨⟨location, .failed e⟩ :: xs, s', congrArg (_ :: ·) hxs, hrun⟩
    | ok a =>
      obtain ⟨xs, s', hxs, hrun⟩ :=
        ih ((write (Location.join out a.source.location) a.source.text).run s).2
      have hcons : (Outcome.artifacts (⟨location, .ok a⟩ :: os)).map (fun a => .ok a.source)
          = (.ok a.source : Except Failure File)
            :: (Outcome.artifacts os).map fun a => .ok a.source := rfl
      rw [hcons, deposits_ok]
      dsimp only
      rw [hrun]
      cases ((write (Location.join out a.source.location) a.source.text).run s).1 with
      | error e => exact ⟨⟨location, .unwritten a e⟩ :: xs, s', congrArg (_ :: ·) hxs, rfl⟩
      | ok => exact ⟨⟨location, .finished a⟩ :: xs, s', congrArg (_ :: ·) hxs, rfl⟩

/-- Meeting more requests adds their results. -/
lemma deposits_append {requests : List (Except Failure File)}
    {results : List (Except Failure String)} {s s' : σ}
    (h : (requests.mapM (deposit write out)).run s = (results, s'))
    (requests' : List (Except Failure File)) :
    ∃ results' s'', ((requests ++ requests').mapM (deposit write out)).run s
      = (results ++ results', s'') := by
  refine ⟨((requests'.mapM (deposit write out)).run s').1,
    ((requests'.mapM (deposit write out)).run s').2, ?_⟩
  rw [List.mapM_append, StateT.run_bind, h]
  rfl

end Writing

/-- Without a directory for output there is nothing to be written. -/
lemma exists_endings_unstored (os : List Outcome) : ∃ xs : List Ending,
    xs.map Ending.outcome = os
      ∧ xs.flatMap Ending.failures = Outcome.failures os
      ∧ ∀ x ∈ xs, x.isUnwritten = false := by
  induction os with
  | nil => exact ⟨[], rfl, rfl, nofun⟩
  | cons o os ih =>
    obtain ⟨xs, hxs, hfailures, hunwritten⟩ := ih
    obtain ⟨location, result⟩ := o
    cases result with
    | error e =>
      exact ⟨⟨location, .failed e⟩ :: xs, congrArg (_ :: ·) hxs, congrArg (e :: ·) hfailures,
        List.forall_mem_cons.mpr ⟨rfl, hunwritten⟩⟩
    | ok a =>
      exact ⟨⟨location, .finished a⟩ :: xs, congrArg (_ :: ·) hxs, hfailures,
        List.forall_mem_cons.mpr ⟨rfl, hunwritten⟩⟩

/-! ### Files apart from directories -/

/-- An outcome is that of a directory, or of an entry in it, which could not be listed. -/
structure Unlisted (files : FileView) (input : Input) (o : Outcome) : Prop where
  walks : ∃ root, input = .directory root
  isDirectory : files.isDirectory o.location = true
  result : ∃ fault ∈ files.faults o.location, o.result = .error (.filesystem o.location fault)

namespace Workshop

variable {w : Workshop}

/-- What is generated for an input is told by the outcomes of files and those of what could not be
listed. -/
structure Divides (w : Workshop) (input : Input) (fs ds : List Outcome) : Prop where
  artifacts : (w.generate input).artifacts = Outcome.artifacts fs
  failures : (w.generate input).failures.Perm (Outcome.failures fs ++ Outcome.failures ds)
  covers : Covers w.files fs input
  pairwise : fs.Pairwise fun o o' => Location.same o.location o'.location = false
  faithful : ∀ o ∈ fs, w.Faithful o
  unlisted : ∀ o ∈ ds, Unlisted w.files input o

/-- In a directory, the outcomes of what is met are those of files and those of directories. -/
lemma exists_divides_directory {root : String} (hroot : w.files.isDirectory root = true)
    (hlawful : w.files.Lawful) : ∃ fs ds, w.Divides (.directory root) fs ds := by
  obtain ⟨os, hvisits, hos⟩ := w.generate_directory root
  have hmeets := hvisits.meets hlawful hroot
  have hfaulty := hvisits.faulty
  refine ⟨os.filter fun o => !w.files.isDirectory o.location,
    os.filter fun o => w.files.isDirectory o.location, ?_⟩
  constructor
  case artifacts =>
    rw [hos.artifacts, Outcome.artifacts, Outcome.artifacts, List.filterMap_filter]
    refine List.filterMap_congr fun o ho => ?_
    cases hdirectory : w.files.isDirectory o.location with
    | false => rfl
    | true =>
      obtain ⟨fault, -, hresult⟩ := hfaulty o ho hdirectory
      simp [Outcome.artifact?, hresult, Except.toOption]
  case failures =>
    have hperm := List.filter_append_perm (fun o => w.files.isDirectory o.location) os
    rw [hos.failures, ← Outcome.failures_append]
    exact (hperm.symm.trans List.perm_append_comm).flatMap_right _
  case covers =>
    intro location
    have hlocations : (∃ o ∈ os, o.location = location)
        ↔ ∃ path, w.files.Meets maxDepth root path ∧ location = Location.below root path :=
      hmeets.exists_location_iff
    constructor
    · rintro ⟨o, ho, rfl⟩
      obtain ⟨ho, hisFile⟩ := List.mem_filter.mp ho
      obtain ⟨path, hpath, hlocation⟩ := hlocations.mp ⟨o, ho, rfl⟩
      rw [Bool.not_eq_true', hlocation] at hisFile
      exact ⟨path, (FileView.reaches_iff_meets hroot).mpr ⟨hpath, hisFile⟩, hlocation⟩
    · rintro ⟨path, hpath, rfl⟩
      obtain ⟨hpath, hisFile⟩ := (FileView.reaches_iff_meets hroot).mp hpath
      obtain ⟨o, ho, hlocation⟩ := hlocations.mpr ⟨path, hpath, rfl⟩
      refine ⟨o, List.mem_filter.mpr ⟨ho, ?_⟩, hlocation⟩
      rw [hlocation, hisFile]
      rfl
  case pairwise =>
    have hpairwise := (hmeets.pairwise fun _ hpath => hpath.isName hlawful).filter
      fun o => !w.files.isDirectory o.location
    refine hpairwise.imp_of_mem fun {o o'} ho _ hlisted => ?_
    have hisFile := (List.mem_filter.mp ho).2
    rw [Bool.eq_false_iff]
    intro hsame
    rw [(hlisted hsame).2.1] at hisFile
    contradiction
  case faithful => exact fun o ho => hvisits.faithful o (List.mem_of_mem_filter ho)
  case unlisted =>
    intro o ho
    obtain ⟨ho, hdirectory⟩ := List.mem_filter.mp ho
    exact ⟨⟨root, rfl⟩, hdirectory, hfaulty o ho hdirectory⟩

/-- Each outcome of a list of files is that of a file. -/
lemma divides_files (locations : List String) :
    w.Divides (.files locations) (w.listOutcomes locations) [] := by
  obtain ⟨-, hos⟩ := w.generate_files locations
  obtain ⟨hcovers, hpairwise⟩ := w.listOutcomes_covers locations
  constructor
  case artifacts => exact hos.artifacts
  case failures => rw [hos.failures, Outcome.failures_nil, List.append_nil]
  case covers => exact hcovers
  case pairwise => exact hpairwise
  case faithful => exact fun o => faithful_of_mem_outcomes
  case unlisted => nofun

lemma exists_divides {input : Input} (hinput : checkInput w.files input = .ok ())
    (hfiles : ∀ root, input = .directory root → w.files.Lawful) :
    ∃ fs ds, w.Divides input fs ds := by
  cases input with
  | directory root =>
    exact exists_divides_directory (isDirectory_of_checkInput hinput) (hfiles root rfl)
  | files locations => exact ⟨_, _, divides_files locations⟩

end Workshop

/-! ### Tallies -/

/-- What is counted of a run. -/
structure Tally where
  /-- The files that the run considers. -/
  files : List Ending
  /-- The directories and entries that could not be listed. -/
  unlisted : List Outcome
  /-- What came of generating and writing the accessors of the groups. -/
  groups : List (Except Failure String)

namespace Tally

/-- The number of files for which some step failed. -/
def failed (t : Tally) : Nat :=
  t.files.countP Ending.hasFailed

/-- The number of files whose icon could not be written. -/
def unwritten (t : Tally) : Nat :=
  t.files.countP Ending.isUnwritten

/-- The number of failures that are about no file that the run considers. -/
def others (t : Tally) : Nat :=
  t.unlisted.length + (t.groups.flatMap errors).length

/-- A tally accounts for a report: there is an entry for each file that the run considers, and the icons
and the failures of the report are those of the tally. -/
structure Explains (t : Tally) (files : FileView) (input : Input) (r : Report) : Prop where
  covers : Covers files (t.files.map Ending.outcome) input
  distinct : t.files.Pairwise fun x y => Location.same x.location y.location = false
  located : ∀ x ∈ t.files, ∀ e, x.fate = .failed e → e.location? = some x.location
  unlisted : ∀ o ∈ t.unlisted, Unlisted files input o
  artifacts : r.artifacts = Outcome.artifacts (t.files.map Ending.outcome)
  failures : r.failures.Perm
    (t.files.flatMap Ending.failures ++ Outcome.failures t.unlisted ++ t.groups.flatMap errors)

/-- What a tally says of writing is what came of the requests of a report, one after the other. -/
def Stores {σ : Type} (t : Tally) (write : String → String → StateM σ (Except Failure Unit))
    (options : Options) (r : Report) (s s' : σ) : Option String → Prop
  | none => t.unwritten = 0 ∧ t.groups = [] ∧ s' = s
  | some out => ((r.requests options).mapM (deposit write out)).run s
      = (t.files.filterMap (Ending.stored? out) ++ t.groups, s')

variable {t : Tally} {files : FileView} {input : Input} {r : Report}

lemma Explains.length_failures (h : t.Explains files input r) :
    r.failures.length = t.failed + t.others := by
  have hunlisted : (Outcome.failures t.unlisted).length = t.unlisted.length := by
    have hone : ∀ o ∈ t.unlisted, (errors o.result).length = 1 := by
      intro o ho
      obtain ⟨-, -, fault, -, hresult⟩ := h.unlisted o ho
      rw [hresult]
      rfl
    rw [Outcome.failures, List.length_flatMap, List.map_congr_left hone]
    simp
  rw [h.failures.length_eq, List.length_append, List.length_append, Ending.length_failures,
    hunlisted, failed, others, Nat.add_assoc]

lemma Explains.length_all (h : t.Explains files input r) :
    r.failures.length + r.artifacts.length = t.files.length + t.others + t.unwritten := by
  have hlength := Ending.length_artifacts t.files
  rw [h.length_failures, h.artifacts, failed, unwritten]
  omega

end Tally

/-! ### Runs -/

section Runs

variable {σ : Type} {write : String → String → StateM σ (Except Failure Unit)}
  {normalize : FileView → String → Normalized} {files : FileView} {options : Options}
  {out : Option String} {input : Input} {s s' : σ} {log : List Log.Record} {r : Report}

lemma Workshop.Divides.located {w : Workshop} {fs ds : List Outcome} (h : w.Divides input fs ds)
    (hnormalize : w.options.inputFormat = .svg → Blames w.normalize w.files) {xs : List Ending}
    (hxs : xs.map Ending.outcome = fs) :
    ∀ x ∈ xs, ∀ e, x.fate = .failed e → e.location? = some x.location := by
  intro x hx e he
  have hmem : x.outcome ∈ fs := by
    rw [← hxs]
    exact List.mem_map_of_mem hx
  have hresult : x.outcome.result = .error e := by
    rw [Ending.outcome, he]
  exact (h.faithful _ hmem).location? hnormalize hresult

/-- The failures of a run that writes are those of files, and then those of its requests. -/
lemma requests_of_run_some {w : Workshop} {notices : List Log.Record} {dir : String}
    (hprepare : prepare options files normalize input = .ok (w, notices))
    (hrun : (run write normalize files options (some dir) input).run s = ((log, .ok r), s')) :
    ∃ results added, ((r.requests options).mapM (deposit write dir)).run s = (results, s')
      ∧ r.failures = (w.generate input).failures ++ added
      ∧ added.Perm (results.flatMap errors) := by
  obtain ⟨log', hsome⟩ := run_some write hprepare dir s
  have hsources := sources_eq hprepare hrun
  obtain ⟨-, hroot⟩ := run_eq_ok hprepare hrun
  obtain ⟨-, -, rfl, -, -⟩ := prepare_eq_ok hprepare
  have hspec := deposits_eq_store write dir (r.requests w.options) s
  rw [w.filterMap_requests, w.errors_requests, hsources, hroot] at hspec
  obtain ⟨hstate, -, hfailures⟩ := hspec
  rw [hsome] at hrun
  cases hrun
  exact ⟨_, _, Prod.ext rfl hstate, rfl, hfailures⟩

/-- Whatever the ends of the files are, only the failures depend on them. -/
lemma Workshop.Divides.explains {w : Workshop} {fs ds : List Outcome}
    (h : w.Divides input fs ds)
    (hnormalize : w.options.inputFormat = .svg → Blames w.normalize w.files)
    (hartifacts : r.artifacts = (w.generate input).artifacts) {xs : List Ending}
    (hxs : xs.map Ending.outcome = fs) {groups : List (Except Failure String)}
    (hfailures : r.failures.Perm
      (xs.flatMap Ending.failures ++ Outcome.failures ds ++ groups.flatMap errors)) :
    Tally.Explains ⟨xs, ds, groups⟩ w.files input r := by
  constructor
  case covers => exact hxs ▸ h.covers
  case distinct =>
    have hpairwise := h.pairwise
    rwa [← hxs, List.pairwise_map] at hpairwise
  case located => exact h.located hnormalize hxs
  case unlisted => exact h.unlisted
  case artifacts => rw [hartifacts, h.artifacts, hxs]
  case failures => exact hfailures

/-- Every run that gives a report has a tally. -/
lemma exists_tally (hfiles : ∀ root, input = .directory root → files.Lawful)
    (hnormalize : options.inputFormat = .svg → Blames normalize files)
    (hrun : (run write normalize files options out input).run s = ((log, .ok r), s')) :
    ∃ t : Tally, t.Explains files input r ∧ t.Stores write options r s s' out := by
  obtain ⟨w, notices, hprepare⟩ := exists_prepare hrun
  obtain ⟨-, hinput, rfl, rfl, rfl⟩ := prepare_eq_ok hprepare
  obtain ⟨fs, ds, hdivides⟩ := w.exists_divides hinput hfiles
  obtain ⟨hartifacts, -⟩ := run_eq_ok hprepare hrun
  cases out with
  | none =>
    obtain ⟨xs, hxs, hfailures, hunwritten⟩ := exists_endings_unstored fs
    obtain ⟨log', hnone⟩ := run_none (m := StateM σ) write hprepare
    rw [hnone] at hrun
    cases hrun
    refine ⟨⟨xs, ds, []⟩, hdivides.explains hnormalize hartifacts hxs ?_,
      List.countP_eq_zero.mpr ?_, rfl, rfl⟩
    · rw [hfailures, List.flatMap_nil, List.append_nil]
      exact hdivides.failures
    · intro x hx
      simp [hunwritten x hx]
  | some dir =>
    obtain ⟨xs, s₁, hxs, hicons⟩ := exists_endings write dir fs s
    obtain ⟨results, added, hrequests, hr, hadded⟩ := requests_of_run_some hprepare hrun
    obtain ⟨groups, s₂, hmet⟩ :=
      deposits_append write dir hicons (r.root.walk.map w.options.accessorOf)
    rw [← hdivides.artifacts, ← hartifacts, ← Report.requests, hrequests] at hmet
    obtain ⟨rfl, rfl⟩ := Prod.mk.inj hmet
    refine ⟨⟨xs, ds, groups⟩, hdivides.explains hnormalize hartifacts hxs ?_, hrequests⟩
    have hends := Ending.failures_perm xs dir
    rw [hxs] at hends
    rw [List.flatMap_append] at hadded
    calc
      r.failures = (w.generate input).failures ++ added := hr
      _ ~ (Outcome.failures fs ++ Outcome.failures ds)
          ++ ((xs.filterMap (Ending.stored? dir)).flatMap errors ++ groups.flatMap errors) :=
        hdivides.failures.append hadded
      _ ~ (Outcome.failures fs ++ (xs.filterMap (Ending.stored? dir)).flatMap errors)
          ++ Outcome.failures ds ++ groups.flatMap errors := by
        simp only [List.append_assoc]
        apply List.Perm.append_left
        rw [← List.append_assoc, ← List.append_assoc]
        exact List.perm_append_comm.append_right _
      _ ~ xs.flatMap Ending.failures ++ Outcome.failures ds ++ groups.flatMap errors :=
        (hends.symm.append_right _).append_right _

end Runs

end Iconsmith.Batch
