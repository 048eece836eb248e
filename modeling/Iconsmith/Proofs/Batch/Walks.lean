import Mathlib.Data.List.Sort
import Iconsmith.Proofs.Batch.Visits
import Iconsmith.Proofs.Files.Locations

/-!
# Which files are visited

A visit goes through the files that names without a leading point lead to, as far as the bound on
the levels allows. Each of them has one outcome, and nothing else has any but directories with which
something goes wrong while they are listed.
-/

namespace Iconsmith

namespace FileView

/-- What a file system promises: what is inside a directory has names that differ, none of which
leads out of it. -/
structure Lawful (v : FileView) : Prop where
  nodup : ∀ {dir names}, v.entries dir = .ok names → names.Nodup
  isName : ∀ {dir names}, v.entries dir = .ok names → ∀ n ∈ names, Location.IsName n

/-- Some names lead from a directory to something below it. -/
inductive Leads (v : FileView) : String → List String → Prop
  | inside {dir name : String} {names : List String} (entries : v.entries dir = .ok names)
      (mem : name ∈ names) : Leads v dir [name]
  | step {dir name : String} {names path : List String} (entries : v.entries dir = .ok names)
      (mem : name ∈ names) (directory : v.isDirectory (Location.join dir name) = true)
      (rest : Leads v (Location.join dir name) path) : Leads v dir (name :: path)

/-- All directories are listed, and no entry is left out. -/
def Listable (v : FileView) : Prop :=
  ∀ dir, v.isDirectory dir = true → v.faults dir = []

/-- A directory that is listed, even if entries are left out. -/
def IsListed (v : FileView) (dir : String) : Prop :=
  v.isDirectory dir = true ∧ ∃ names, v.entries dir = .ok names

/-- What goes wrong with a directory that is listed is that entries are left out. -/
lemma IsListed.faults {v : FileView} {dir : String} (h : v.IsListed dir) :
    v.faults dir = v.lost dir := by
  obtain ⟨-, names, hentries⟩ := h
  exact faults_of_entries hentries

/-- A file that a visit comes to: the names that lead to it are visible and at most `n`
directories lie between. -/
structure Reaches (v : FileView) (n : Nat) (dir : String) (path : List String) : Prop where
  leads : v.Leads dir path
  visible : ∀ name ∈ path, Batch.Workshop.isVisible name = true
  length_le : path.length ≤ n + 1
  isFile : v.isDirectory (Location.below dir path) = false

lemma Leads.ne_nil {v : FileView} {dir : String} {path : List String} (h : v.Leads dir path) :
    path ≠ [] := by
  cases h <;> simp

/-- What a visit has outcomes for: the files that it reaches, and the directories on its way with which
something goes wrong while they are listed. -/
inductive Meets (v : FileView) : Nat → String → List String → Prop
  | faulty {n : Nat} {dir : String} {fault : FileFault} (failed : fault ∈ v.faults dir) :
      Meets v n dir []
  | file {n : Nat} {dir name : String} {names : List String} (entries : v.entries dir = .ok names)
      (mem : name ∈ names) (visible : Batch.Workshop.isVisible name = true)
      (isFile : v.isDirectory (Location.join dir name) = false) : Meets v n dir [name]
  | step {n : Nat} {dir name : String} {names path : List String}
      (entries : v.entries dir = .ok names) (mem : name ∈ names)
      (visible : Batch.Workshop.isVisible name = true)
      (directory : v.isDirectory (Location.join dir name) = true)
      (rest : Meets v n (Location.join dir name) path) : Meets v (n + 1) dir (name :: path)

lemma Meets.isName {v : FileView} (hv : v.Lawful) {n : Nat} {dir : String} {path : List String}
    (h : v.Meets n dir path) : ∀ m ∈ path, Location.IsName m := by
  induction h with
  | faulty => simp
  | file entries mem =>
    intro m hm
    rw [List.mem_singleton.mp hm]
    exact hv.isName entries _ mem
  | step entries mem visible directory rest ih =>
    exact List.forall_mem_cons.mpr ⟨hv.isName entries _ mem, ih⟩

/-- The files that are reached are what is met but is no directory. -/
lemma reaches_iff_meets {v : FileView} {n : Nat} {dir : String} {path : List String}
    (hdir : v.isDirectory dir = true) :
    v.Reaches n dir path ↔ v.Meets n dir path ∧ v.isDirectory (Location.below dir path) = false := by
  constructor
  · rintro ⟨leads, visible, length_le, isFile⟩
    refine ⟨?_, isFile⟩
    induction leads generalizing n with
    | inside entries mem => exact .file entries mem (visible _ List.mem_cons_self) isFile
    | step entries mem directory rest ih =>
      rw [List.forall_mem_cons] at visible
      have hpos := List.length_pos_iff.mpr rest.ne_nil
      rw [List.length_cons] at length_le
      obtain ⟨m, rfl⟩ : ∃ m, n = m + 1 := ⟨n - 1, by omega⟩
      exact .step entries mem visible.1 directory (ih directory visible.2 (by omega) isFile)
  · rintro ⟨hmeets, isFile⟩
    induction hmeets with
    | faulty => exact absurd (hdir.symm.trans isFile) (by decide)
    | file entries mem visible => exact ⟨.inside entries mem, by simpa using visible, by simp, isFile⟩
    | step entries mem visible directory rest ih =>
      obtain ⟨leads, visible', length_le, -⟩ := ih directory isFile
      refine ⟨.step entries mem directory leads, List.forall_mem_cons.mpr ⟨visible, visible'⟩, ?_,
        isFile⟩
      rw [List.length_cons]
      omega

/-- Where all directories are listed, a visit meets the files that it reaches and nothing else. -/
lemma meets_iff_reaches {v : FileView} (hlistable : v.Listable)
    {n : Nat} {dir : String} {path : List String} (hdir : v.isDirectory dir = true) :
    v.Meets n dir path ↔ v.Reaches n dir path := by
  rw [reaches_iff_meets hdir]
  refine ⟨fun hmeets => ⟨hmeets, ?_⟩, And.left⟩
  induction hmeets with
  | faulty failed => simp [hlistable _ hdir] at failed
  | file entries mem visible isFile => exact isFile
  | step entries mem visible directory rest ih => exact ih directory

end FileView

namespace Batch

/-- Some outcomes are those of what certain paths lead to. There is one for each path, unless it leads
to a directory that is listed, with which several things can go wrong. -/
def Enumerates (v : FileView) (dir : String) (paths : List String → Prop) (os : List Outcome) :
    Prop :=
  ∃ ps : List (List String), os.map (·.location) = ps.map (Location.below dir)
    ∧ ps.Pairwise (fun p q => p = q → v.IsListed (Location.below dir p))
    ∧ ∀ path, path ∈ ps ↔ paths path

namespace Workshop

variable {w : Workshop}

/-- The paths below some directories are enumerated one directory after the other. -/
lemma Descends.enumerates {v : FileView} {visit : String → Group → Tree → List Outcome → Prop}
    {below : String → List String → Prop} {dir : String} {names : List String}
    (hnodup : names.Nodup)
    (hvisit : ∀ name ∈ names, ∀ group t os, visit (Location.join dir name) group t os →
      Enumerates v (Location.join dir name) (below (Location.join dir name)) os)
    {group : Group} {s : Naming.Siblings} {ts : List Tree} {os : List Outcome}
    (h : w.Descends visit group s (names.map (Location.join dir)) ts os) :
    Enumerates v dir (fun path => ∃ name ∈ names, ∃ rest, path = name :: rest
      ∧ below (Location.join dir name) rest) os := by
  induction names generalizing s ts os with
  | nil =>
    cases h
    exact ⟨[], rfl, .nil, by simp⟩
  | cons name names ih =>
    rw [List.nodup_cons] at hnodup
    rw [List.forall_mem_cons] at hvisit
    cases h with
    | cons named visited others =>
      obtain ⟨ps, hps, hpsApart, hpsMem⟩ := hvisit.1 _ _ _ visited
      obtain ⟨qs, hqs, hqsApart, hqsMem⟩ := ih hnodup.2 hvisit.2 others
      refine ⟨ps.map (name :: ·) ++ qs, ?_, ?_, ?_⟩
      · rw [List.map_append, List.map_append, hps, hqs, List.map_map]
        rfl
      · rw [List.pairwise_append]
        refine ⟨hpsApart.map _ fun p q h heq => h (List.cons.inj heq).2, hqsApart, ?_⟩
        intro p hp q hq heq
        obtain ⟨p', -, rfl⟩ := List.mem_map.mp hp
        obtain ⟨name', hname', rest', rfl, -⟩ := (hqsMem q).mp hq
        exact absurd ((List.cons.inj heq).1 ▸ hname') hnodup.1
      · intro path
        rw [List.mem_append, List.mem_map, hqsMem]
        constructor
        · rintro (⟨rest, hrest, rfl⟩ | ⟨name', hname', rest, rfl, hrest⟩)
          · exact ⟨name, by simp, rest, rfl, (hpsMem rest).mp hrest⟩
          · exact ⟨name', by simp [hname'], rest, rfl, hrest⟩
        · rintro ⟨name', hname', rest, rfl, hrest⟩
          rcases List.mem_cons.mp hname' with rfl | hname'
          · exact Or.inl ⟨rest, (hpsMem rest).mpr hrest, rfl⟩
          · exact Or.inr ⟨name', hname', rest, rfl, hrest⟩

lemma mem_visibleNames {names : List String} {name : String} :
    name ∈ sorted (names.filter isVisible) ↔ name ∈ names ∧ isVisible name = true := by
  rw [sorted, (List.mergeSort_perm _ _).mem_iff, List.mem_filter]

lemma nodup_visibleNames {names : List String} (h : names.Nodup) :
    (sorted (names.filter isVisible)).Nodup :=
  (List.mergeSort_perm _ _).nodup_iff.mpr (h.filter _)

lemma pairwise_sorted (names : List String) : (sorted names).Pairwise (· ≤ ·) := by
  have hsorted := List.sortedLE_mergeSort (l := names)
  exact hsorted.pairwise

lemma sorted_filter (p : String → Bool) (names : List String) :
    sorted (names.filter p) = (sorted names).filter p := by
  refine List.Perm.eq_of_pairwise' (pairwise_sorted _) ((pairwise_sorted names).filter p) ?_
  exact (List.mergeSort_perm _ _).trans ((List.mergeSort_perm _ _).symm.filter p)

/-- The names of the files of a run inside a directory. -/
def fileNames (w : Workshop) (dir : String) (names : List String) : List String :=
  (sorted (names.filter isVisible)).filter fun n => !w.files.isDirectory (Location.join dir n)

/-- The names of the directories of a run inside a directory. -/
def dirNames (w : Workshop) (dir : String) (names : List String) : List String :=
  (sorted (names.filter isVisible)).filter fun n => w.files.isDirectory (Location.join dir n)

lemma filesIn_eq (dir : String) (names : List String) :
    w.filesIn dir names = (w.fileNames dir names).map (Location.join dir) :=
  List.filter_map

lemma dirsIn_eq (dir : String) (names : List String) :
    w.dirsIn dir names = (w.dirNames dir names).map (Location.join dir) :=
  List.filter_map

lemma mem_fileNames {dir name : String} {names : List String} :
    name ∈ w.fileNames dir names ↔ name ∈ names ∧ isVisible name = true
      ∧ w.files.isDirectory (Location.join dir name) = false := by
  rw [fileNames, List.mem_filter, mem_visibleNames, Bool.not_eq_true', and_assoc]

lemma mem_dirNames {dir name : String} {names : List String} :
    name ∈ w.dirNames dir names ↔ name ∈ names ∧ isVisible name = true
      ∧ w.files.isDirectory (Location.join dir name) = true := by
  rw [dirNames, List.mem_filter, mem_visibleNames, and_assoc]

/-- The outcomes of a directory that can be listed are those of what goes wrong, of the files inside it
and of what is below. -/
lemma Listed.enumerates (hfiles : w.files.Lawful)
    {descend : Group → Naming.Siblings → List String → List Tree → List Outcome → Prop}
    {dir : String} (hdir : w.files.isDirectory dir = true) {names : List String}
    (hentries : w.files.entries dir = .ok names) {below : List String → Prop}
    (hdescend : ∀ group s ts os, descend group s ((w.dirNames dir names).map (Location.join dir))
      ts os → Enumerates w.files dir below os)
    (hbelow : ∀ path, below path → ∃ name ∈ w.dirNames dir names, ∃ rest, path = name :: rest)
    {group : Group} {t : Tree} {os : List Outcome} (h : w.Listed descend dir group t os) :
    Enumerates w.files dir (fun path => (path = [] ∧ ∃ fault, fault ∈ w.files.faults dir)
      ∨ (∃ name ∈ w.fileNames dir names, path = [name]) ∨ below path) os := by
  cases h with
  | unlisted failed => simp [hentries] at failed
  | @listed names' os os' symbols ts entries icons children =>
    rw [hentries] at entries
    cases entries
    rw [dirsIn_eq] at children
    obtain ⟨ps, hps, hpsApart, hpsMem⟩ := hdescend _ _ _ _ children
    have hlocations := w.map_location_outcomes group (ownNames group) (w.filesIn dir names)
    rw [icons, filesIn_eq] at hlocations
    have hown : (w.faultsOf dir).map (·.location)
        = ((w.files.faults dir).map fun _ => []).map (Location.below dir) := by
      rw [faultsOf, List.map_map, List.map_map]
      rfl
    refine ⟨(w.files.faults dir).map (fun _ => [])
      ++ ((w.fileNames dir names).map (fun name => [name]) ++ ps), ?_, ?_, ?_⟩
    · simp only [List.map_append, hown, hlocations, hps, List.map_map]
      rfl
    · rw [List.pairwise_append, List.pairwise_append]
      refine ⟨?_, ⟨?_, hpsApart, ?_⟩, ?_⟩
      · refine List.pairwise_of_forall_mem_list fun p hp q _ _ => ?_
        obtain ⟨-, -, rfl⟩ := List.mem_map.mp hp
        exact ⟨hdir, names, hentries⟩
      · have hnodup := (nodup_visibleNames (hfiles.nodup hentries)).filter
          fun n => !w.files.isDirectory (Location.join dir n)
        exact (hnodup.map List.singleton_injective).imp fun hne heq => absurd heq hne
      · intro p hp q hq heq
        obtain ⟨name, hname, rfl⟩ := List.mem_map.mp hp
        obtain ⟨name', hname', rest, rfl⟩ := hbelow q ((hpsMem q).mp hq)
        have hisFile := (mem_fileNames.mp hname).2.2
        rw [(List.cons.inj heq).1, (mem_dirNames.mp hname').2.2] at hisFile
        contradiction
      · intro p hp q hq heq
        obtain ⟨-, -, rfl⟩ := List.mem_map.mp hp
        rcases List.mem_append.mp hq with hq | hq
        · obtain ⟨name, -, rfl⟩ := List.mem_map.mp hq
          cases heq
        · obtain ⟨name, -, rest, rfl⟩ := hbelow q ((hpsMem q).mp hq)
          cases heq
    · intro path
      rw [List.mem_append, List.mem_append, List.mem_map, List.mem_map, hpsMem]
      simp only [eq_comm, and_comm, exists_and_left]

/-- Below the lowest level there are no outcomes. -/
lemma enumerates_none {v : FileView} {dir : String} (_ : Group) (_ : Naming.Siblings)
    (ts : List Tree) (os : List Outcome) (h : ts = [] ∧ os = []) :
    Enumerates v dir (fun _ => False) os := by
  obtain ⟨-, rfl⟩ := h
  exact ⟨[], rfl, .nil, by simp⟩

/-! ### What a visit meets -/

/-- Of a directory that cannot be listed there is only one outcome. -/
lemma Listed.meets_of_error {n : Nat}
    {descend : Group → Naming.Siblings → List String → List Tree → List Outcome → Prop}
    {dir : String} {fault : FileFault} (hentries : w.files.entries dir = .error fault)
    {group : Group} {t : Tree} {os : List Outcome} (h : w.Listed descend dir group t os) :
    Enumerates w.files dir (w.files.Meets n dir) os := by
  have hfaults : w.files.faults dir = [fault] := by
    rw [FileView.faults, hentries]
  cases h with
  | unlisted =>
    refine ⟨[[]], ?_, List.pairwise_singleton _ _, fun path => ?_⟩
    · rw [faultsOf, hfaults]
      rfl
    rw [List.mem_singleton]
    constructor
    · rintro rfl
      exact .faulty (hfaults ▸ List.mem_singleton_self fault)
    · intro hpath
      cases hpath with
      | faulty => rfl
      | file entries | step entries => simp [hentries] at entries
  | listed entries => simp [hentries] at entries

/-- What is met of a directory that can be listed: the directory itself if something goes wrong, the
files inside it and, above the lowest level, what is met of the directories inside. -/
lemma meets_iff {n : Nat} {dir : String} {names path : List String}
    (hentries : w.files.entries dir = .ok names) :
    w.files.Meets n dir path ↔ (path = [] ∧ ∃ fault, fault ∈ w.files.faults dir)
      ∨ (∃ name ∈ w.fileNames dir names, path = [name])
      ∨ ∃ m, n = m + 1 ∧ ∃ name ∈ w.dirNames dir names, ∃ rest, path = name :: rest
        ∧ w.files.Meets m (Location.join dir name) rest := by
  constructor
  · intro h
    cases h with
    | faulty failed => exact Or.inl ⟨rfl, _, failed⟩
    | file entries mem visible isFile =>
      obtain rfl := Except.ok.inj (hentries.symm.trans entries)
      exact Or.inr (Or.inl ⟨_, mem_fileNames.mpr ⟨mem, visible, isFile⟩, rfl⟩)
    | step entries mem visible directory rest =>
      obtain rfl := Except.ok.inj (hentries.symm.trans entries)
      exact Or.inr (Or.inr ⟨_, rfl, _, mem_dirNames.mpr ⟨mem, visible, directory⟩, _, rfl, rest⟩)
  · rintro (⟨rfl, fault, hfault⟩ | ⟨name, hname, rfl⟩ | ⟨m, rfl, name, hname, rest, rfl, hrest⟩)
    · exact .faulty hfault
    · obtain ⟨mem, visible, isFile⟩ := mem_fileNames.mp hname
      exact .file hentries mem visible isFile
    · obtain ⟨mem, visible, directory⟩ := mem_dirNames.mp hname
      exact .step hentries mem visible directory hrest

/-- The outcomes of a visit are those of what it meets. -/
lemma Visits.meets (hfiles : w.files.Lawful) {n : Nat} {dir : String}
    (hdir : w.files.isDirectory dir = true) {group : Group} {t : Tree} {os : List Outcome}
    (h : w.Visits n dir group t os) : Enumerates w.files dir (w.files.Meets n dir) os := by
  induction n generalizing dir group t os with
  | zero =>
    cases hentries : w.files.entries dir with
    | error fault => exact Listed.meets_of_error hentries h
    | ok names =>
      obtain ⟨ps, hps, hapart, hmem⟩ :=
        Listed.enumerates hfiles hdir hentries enumerates_none (by simp) h
      refine ⟨ps, hps, hapart, fun path => ?_⟩
      simp [hmem, meets_iff hentries]
  | succ n ih =>
    cases hentries : w.files.entries dir with
    | error fault => exact Listed.meets_of_error hentries h
    | ok names =>
      have hdirNodup : (w.dirNames dir names).Nodup :=
        (nodup_visibleNames (hfiles.nodup hentries)).filter _
      obtain ⟨ps, hps, hapart, hmem⟩ := Listed.enumerates hfiles hdir hentries
        (fun group s ts os hdescends => hdescends.enumerates hdirNodup fun name hname group t os =>
          ih (mem_dirNames.mp hname).2.2)
        (fun path ⟨name, hname, rest, hpath, _⟩ => ⟨name, hname, rest, hpath⟩) h
      refine ⟨ps, hps, hapart, fun path => ?_⟩
      simp [hmem, meets_iff hentries]

end Workshop

end Batch

end Iconsmith
