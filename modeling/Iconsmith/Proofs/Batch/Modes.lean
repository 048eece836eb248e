import Iconsmith.Proofs.Batch.Isolation
import Iconsmith.Proofs.Batch.Orders

/-!
# Two kinds of input

A directory that holds nothing but visible files gives the same report as the list of these files in
order. In a list only the first of several locations that name the same parts counts, so copies
behind it make no difference.
-/

namespace Iconsmith

/-- A directory that holds files only, none of them hidden or left out, with their names in order. -/
structure FileView.Flat (v : FileView) (root : String) (names : List String) : Prop where
  isDirectory : v.isDirectory root = true
  entries : ∃ listed, v.entries root = .ok listed ∧ listed.Perm names
  complete : v.lost root = []
  ordered : names.Pairwise (· ≤ ·)
  visible : ∀ n ∈ names, Batch.Workshop.isVisible n = true
  isFile : ∀ n ∈ names, v.isDirectory (Location.join root n) = false

namespace Batch

/-- A list of locations with further ones put in, each of them somewhere behind one that names the
same parts. -/
inductive WithCopies (locations : List String) : List String → Prop
  | none : WithCopies locations locations
  | insert {before after : List String} {location copy : String} :
      WithCopies locations (before ++ after) → location ∈ before →
      Location.same location copy = true → WithCopies locations (before ++ copy :: after)

/-! ### Productions that differ in the log -/

/-- Two productions with the same result, icons and failures. -/
structure Production.Alike {α : Type} (p q : Production α) : Prop where
  value : q.value = p.value
  artifacts : q.artifacts = p.artifacts
  failures : q.failures = p.failures

section Run

variable {m : Type → Type} [Monad m] [LawfulMonad m]
  {write : String → String → m (Except Failure Unit)} {normalize : FileView → String → Normalized}
  {files : FileView} {options : Options} {out : Option String} {input input' : Input}

/-- Two runs that generate the same give the same report, and write the same. -/
lemma run_alike (hinput : checkInput files input' = checkInput files input)
    (h : ∀ w notices, prepare options files normalize input = .ok (w, notices) →
      (w.generate input).Alike (w.generate input')) :
    (·.2) <$> run write normalize files options out input' =
      (·.2) <$> run write normalize files options out input := by
  have hprepare' : prepare options files normalize input' =
      prepare options files normalize input := by
    unfold prepare
    rw [hinput]
  unfold run
  rw [hprepare']
  cases hprepare : prepare options files normalize input with
  | error e => rfl
  | ok p =>
    obtain ⟨w, notices⟩ := p
    obtain ⟨hvalue, hartifacts, hfailures⟩ := h w notices hprepare
    have houtput (dir : String) :
        output write w dir (w.generate input') = output write w dir (w.generate input) := by
      unfold output
      rw [hvalue, hartifacts]
    cases out with
    | none => simp [report, hvalue, hartifacts, hfailures]
    | some dir => simp [report, houtput, hvalue, hartifacts, hfailures]

end Run

/-! ### Lists with copies -/

/-- A copy of a location that comes before it is left out. -/
lemma distinct_insert {before after : List String} {location copy : String}
    (hmem : location ∈ before) (hsame : Location.same location copy = true) :
    Workshop.distinct (before ++ copy :: after) = Workshop.distinct (before ++ after) := by
  induction before with
  | nil => cases hmem
  | cons a before ih =>
    rw [List.cons_append, List.cons_append, Workshop.distinct, Workshop.distinct]
    rcases List.mem_cons.mp hmem with rfl | hmem
    · have hwithout : Workshop.without location (before ++ copy :: after) =
          Workshop.without location (before ++ after) := by
        simp [Workshop.without, hsame]
      change location :: Workshop.without location (Workshop.distinct (before ++ copy :: after)) =
        location :: Workshop.without location (Workshop.distinct (before ++ after))
      rw [← Workshop.distinct_without, ← Workshop.distinct_without, hwithout]
    · rw [ih hmem]

lemma WithCopies.distinct_eq {locations locations' : List String}
    (h : WithCopies locations locations') :
    Workshop.distinct locations' = Workshop.distinct locations := by
  induction h with
  | none => rfl
  | insert _ hmem hsame ih => rw [distinct_insert hmem hsame, ih]

namespace Workshop

variable (w : Workshop)

/-- What is generated for a list depends on its distinct locations. -/
lemma generate_files_alike {locations locations' : List String}
    (h : distinct locations' = distinct locations) :
    (w.generate (.files locations)).Alike (w.generate (.files locations')) := by
  obtain ⟨hvalue, hartifacts, hfailures⟩ := w.generate_files locations
  obtain ⟨hvalue', hartifacts', hfailures'⟩ := w.generate_files locations'
  have houtcomes : w.listOutcomes locations' = w.listOutcomes locations := by
    rw [listOutcomes, listOutcomes, h]
  rw [houtcomes] at hvalue' hartifacts' hfailures'
  exact ⟨hvalue'.trans hvalue.symm, hartifacts'.trans hartifacts.symm,
    hfailures'.trans hfailures.symm⟩

/-! ### Directories of files -/

/-- Names inside a directory lead to locations that name different parts. -/
lemma distinct_map_join (root : String) {names : List String} (hnodup : names.Nodup)
    (hnames : ∀ n ∈ names, Location.IsName n) :
    distinct (names.map (Location.join root)) = names.map (Location.join root) := by
  induction names with
  | nil => rfl
  | cons n names ih =>
    rw [List.nodup_cons] at hnodup
    rw [List.forall_mem_cons] at hnames
    rw [List.map_cons, distinct, ih hnodup.2 hnames.2, List.filter_eq_self.mpr]
    intro location hlocation
    obtain ⟨n', hn', rfl⟩ := List.mem_map.mp hlocation
    rw [Bool.not_eq_true', ← Bool.not_eq_true, same_iff, Location.parts_join root hnames.1,
      Location.parts_join root (hnames.2 n' hn')]
    intro hparts
    have hname : n = n' := by simpa using hparts
    exact hnodup.1 (hname ▸ hn')

/-- In a directory of files there is nothing to visit but these files, in order. -/
lemma filesIn_of_flat {root : String} {names listed : List String} (h : w.files.Flat root names)
    (hperm : listed.Perm names) :
    w.filesIn root listed = names.map (Location.join root) ∧ w.dirsIn root listed = [] := by
  have hsorted : sorted (listed.filter isVisible) = names := by
    rw [sorted_congr (hperm.filter isVisible), List.filter_eq_self.mpr h.visible, sorted,
      List.mergeSort_of_pairwise (by simpa using h.ordered)]
  have hfile : ∀ location ∈ names.map (Location.join root), w.files.isDirectory location = false := by
    intro location hlocation
    obtain ⟨n, hn, rfl⟩ := List.mem_map.mp hlocation
    exact h.isFile n hn
  rw [filesIn, dirsIn, inside, hsorted]
  constructor
  · exact List.filter_eq_self.mpr fun location hlocation => by simp [hfile location hlocation]
  · exact List.filter_eq_nil_iff.mpr fun location hlocation => by simp [hfile location hlocation]

lemma generate_flat_alike {root : String} {names : List String} (hfiles : w.files.Lawful)
    (h : w.files.Flat root names) :
    (w.generate (.files (names.map (Location.join root)))).Alike
      (w.generate (.directory root)) := by
  obtain ⟨listed, hentries, hperm⟩ := h.entries
  obtain ⟨hfilesIn, hdirsIn⟩ := w.filesIn_of_flat h hperm
  have hdistinct : distinct (names.map (Location.join root)) = names.map (Location.join root) :=
    distinct_map_join root (hperm.nodup_iff.mp (hfiles.nodup hentries))
      fun n hn => hfiles.isName hentries n (hperm.mem_iff.mpr hn)
  obtain ⟨hvalue, hartifacts, hfailures⟩ := w.generate_files (names.map (Location.join root))
  obtain ⟨hicons, hmade, hfailed⟩ := w.icons_spec w.options.rootGroup
    (ownNames w.options.rootGroup) (names.map (Location.join root))
  have hvisit := visitWith_of_entries
    (w.steady_subdirectories (w.steady_directory (maxDepth - 1))) hentries w.options.rootGroup
  rw [FileView.faults_of_entries hentries, h.complete, List.map_nil, Production.fails_nil, pure_bind,
    hfilesIn, hdirsIn] at hvisit
  have hgenerate : w.generate (.directory root) = (do
      .note .info .batch (w.startNotice (.directory root))
      let generated ← (w.icons w.options.rootGroup (ownNames w.options.rootGroup)
        (names.map (Location.join root))).alone
      return .node w.options.rootGroup generated.1 []) := by
    change (do
      Production.note .info .batch (w.startNotice (.directory root))
      (w.visitWith (w.subdirectories (w.directory (maxDepth - 1))) root
        w.options.rootGroup).alone) = _
    rw [hvisit]
    rfl
  rw [listOutcomes, hdistinct] at hvalue hartifacts hfailures
  rw [hgenerate]
  constructor
  · simp [hicons, hvalue]
  · simp [hmade, hartifacts]
  · simp [hfailed, hfailures]

end Workshop

/-- The two kinds of input agree: a directory of visible files gives the report of the list of these
files in order and writes the same, and so does a list with copies behind their first occurrences. -/
theorem inputs_agree {m : Type → Type} [Monad m] [LawfulMonad m]
    (write : String → String → m (Except Failure Unit))
    (normalize : FileView → String → Normalized) (files : FileView) (options : Options)
    (out : Option String) (hfiles : files.Lawful) :
    (∀ root names, files.Flat root names →
      (·.2) <$> run write normalize files options out (.directory root) =
        (·.2) <$> run write normalize files options out
          (.files (names.map (Location.join root))))
    ∧ ∀ locations locations', WithCopies locations locations' →
      (·.2) <$> run write normalize files options out (.files locations') =
        (·.2) <$> run write normalize files options out (.files locations) := by
  constructor
  · intro root names hflat
    refine run_alike (by simp [checkInput, hflat.isDirectory]) fun w notices hprepare => ?_
    obtain ⟨-, -, -, rfl, -⟩ := prepare_eq_ok hprepare
    exact w.generate_flat_alike hfiles hflat
  · intro locations locations' hcopies
    exact run_alike rfl fun w _ _ => w.generate_files_alike hcopies.distinct_eq

/-- A directory with two drawables that ask for one symbol and a file of another format, out of order.
-/
def flatTree : FileView where
  isDirectory location := location = "in"
  entries location :=
    if location = "in" then .ok ["notes.txt", "arrow_up.xml", "arrow-up.xml"]
    else .error .notDirectory
  bytes location :=
    if location = "in/notes.txt" then .error .notFound
    else .ok ("<vector xmlns:a='http://schemas.android.com/apk/res/android' "
      ++ "a:viewportWidth='8' a:viewportHeight='8'/>").toUTF8

/-- Options for drawables. -/
def flatOptions : Options where
  inputFormat := .drawable

lemma flatTree_entries {dir : String} {names : List String} (h : flatTree.entries dir = .ok names) :
    names = ["notes.txt", "arrow_up.xml", "arrow-up.xml"] := by
  simp only [flatTree] at h
  split_ifs at h
  cases h
  rfl

lemma flatTree_lawful : flatTree.Lawful where
  nodup h := by
    rw [flatTree_entries h]
    decide
  isName h := by
    rw [flatTree_entries h]
    intro n hn
    simp only [List.mem_cons, List.not_mem_nil, or_false] at hn
    rcases hn with rfl | rfl | rfl <;> constructor <;> decide

lemma flatTree_flat : flatTree.Flat "in" ["arrow-up.xml", "arrow_up.xml", "notes.txt"] where
  isDirectory := by decide
  entries := ⟨_, rfl, by decide⟩
  complete := rfl
  ordered := by decide
  visible := by decide +kernel
  isFile := by decide +kernel

/-- The files of this directory give the same as a list, and so they do with a copy of one of them. -/
theorem inputs_agree_flatTree :
    (·.2) <$> run (m := Id) writeNothing Svg.normalize flatTree flatOptions none (.directory "in") =
      (·.2) <$> run (m := Id) writeNothing Svg.normalize flatTree flatOptions none
        (.files ["in/arrow-up.xml", "in/arrow_up.xml", "in/notes.txt"])
    ∧ (·.2) <$> run (m := Id) writeNothing Svg.normalize flatTree flatOptions none
        (.files ["in/arrow-up.xml", "in/arrow_up.xml", "in//./arrow-up.xml", "in/notes.txt"]) =
      (·.2) <$> run (m := Id) writeNothing Svg.normalize flatTree flatOptions none
        (.files ["in/arrow-up.xml", "in/arrow_up.xml", "in/notes.txt"]) := by
  obtain ⟨hdirectory, hlist⟩ := inputs_agree (m := Id) writeNothing Svg.normalize flatTree flatOptions none
    flatTree_lawful
  have hnames : ["arrow-up.xml", "arrow_up.xml", "notes.txt"].map (Location.join "in") =
      ["in/arrow-up.xml", "in/arrow_up.xml", "in/notes.txt"] := by
    decide +kernel
  have hcopies : WithCopies ["in/arrow-up.xml", "in/arrow_up.xml", "in/notes.txt"]
      ["in/arrow-up.xml", "in/arrow_up.xml", "in//./arrow-up.xml", "in/notes.txt"] :=
    @WithCopies.insert _ ["in/arrow-up.xml", "in/arrow_up.xml"] ["in/notes.txt"] _ _ .none
      List.mem_cons_self (by decide +kernel)
  refine ⟨?_, hlist _ _ hcopies⟩
  rw [← hnames]
  exact hdirectory "in" _ flatTree_flat

end Batch

end Iconsmith
