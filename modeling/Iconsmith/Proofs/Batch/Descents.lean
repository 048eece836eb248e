import Iconsmith.Proofs.Batch.Names
import Iconsmith.Proofs.Batch.Walks
import Iconsmith.Proofs.Naming.Searches

/-!
# Icons by directories

The icons of a directory are those of its files, followed by those of the directories inside it,
each visited for a group that is named before. Which files they come from does not depend on the
group, and all their groups are below it.
-/

namespace Iconsmith.Batch

open Naming (Siblings)

namespace Workshop

variable (w : Workshop)

/-! ### Groups for directories -/

/-- The name that a directory gets beside its siblings. -/
def childName (s : Siblings) (dir : String) : String :=
  (s.nameChild (w.identifierOf dir)).1.getLast?.getD (w.identifierOf dir)

lemma answers_childName (s : Siblings) (dir : String) :
    Naming.Allocator.Answers (w.identifierOf dir) (w.childName s dir) := by
  obtain ⟨name, hlast, hanswers, -⟩ := s.nameChild_spec (w.identifierOf dir)
  rwa [childName, hlast, Option.getD_some]

/-- The siblings when all directories of a list have been named. -/
def siblingsAfter (s : Siblings) (dirs : List String) : Siblings :=
  dirs.foldl (fun s dir => (s.nameChild (w.identifierOf dir)).2) s

/-- Directories with the groups that they are visited for. -/
def childGroups (group : Group) : Siblings → List String → List (String × Group)
  | _, [] => []
  | s, dir :: dirs => (dir, group.child (w.childName s dir))
      :: childGroups group (s.nameChild (w.identifierOf dir)).2 dirs

lemma map_fst_childGroups (group : Group) (s : Siblings) (dirs : List String) :
    (w.childGroups group s dirs).map (·.1) = dirs := by
  induction dirs generalizing s with
  | nil => rfl
  | cons dir dirs ih => rw [childGroups, List.map_cons, ih]

lemma childGroups_append (group : Group) (s : Siblings) (dirs dirs' : List String) :
    w.childGroups group s (dirs ++ dirs')
      = w.childGroups group s dirs ++ w.childGroups group (w.siblingsAfter s dirs) dirs' := by
  induction dirs generalizing s with
  | nil => rfl
  | cons dir dirs ih =>
    rw [List.cons_append, childGroups, childGroups, ih, List.cons_append]
    rfl

lemma root_of_mem_childGroups {group : Group} {s : Siblings} {dirs : List String}
    {c : String × Group} (hc : c ∈ w.childGroups group s dirs) : c.2.root = group.root := by
  induction dirs generalizing s with
  | nil => contradiction
  | cons dir dirs ih =>
    rcases List.mem_cons.mp hc with rfl | hc
    · rfl
    · exact ih hc

/-! ### Segments of sibling groups -/

lemma siblingsAfter_cons (s : Siblings) (dir : String) (dirs : List String) :
    w.siblingsAfter s (dir :: dirs)
      = w.siblingsAfter (s.nameChild (w.identifierOf dir)).2 dirs := rfl

/-- Each directory takes the segment of the group that it is visited for. -/
lemma segments_siblingsAfter (group : Group) (s : Siblings) (dirs : List String) :
    (w.siblingsAfter s dirs).segments
      = ((w.childGroups group s dirs).map fun c => Naming.packageSegment c.2.name).reverse
        ++ s.segments := by
  induction dirs generalizing s with
  | nil => rfl
  | cons dir dirs ih =>
    obtain ⟨name, hlast, -, hnamed⟩ := s.nameChild_spec (w.identifierOf dir)
    have hname : w.childName s dir = name := by rw [childName, hlast, Option.getD_some]
    rw [siblingsAfter_cons, ih, hnamed.segments, childGroups, hname]
    simp

/-- No directory takes a segment that was taken before. -/
lemma card_segments_siblingsAfter (s : Siblings) (dirs : List String) :
    (w.siblingsAfter s dirs).segments.toFinset.card = s.segments.toFinset.card + dirs.length := by
  induction dirs generalizing s with
  | nil => rfl
  | cons dir dirs ih =>
    obtain ⟨name, -, -, hnamed⟩ := s.nameChild_spec (w.identifierOf dir)
    rw [siblingsAfter_cons, ih, hnamed.card_segments, List.length_cons]
    omega

/-- The search for a group's name among its siblings ends, whatever names and segments are taken, after at
most one try more than there are segments. The last name tried is the request or the request with a number;
neither it nor its segment was taken before. So when directories are named one after the other, each for one
group, there are as many new segments as directories. -/
theorem segments_of_siblings (s : Siblings) :
    (∀ request,
      (∀ tried s', s.Search request tried s' ↔ s.nameChild request = (tried, s'))
      ∧ (s.nameChild request).1.length ≤ s.segments.length + 1
      ∧ ∃ name, (s.nameChild request).1.getLast? = some name
        ∧ Naming.Allocator.Answers request name ∧ s.Named name (s.nameChild request).2)
    ∧ ∀ group dirs,
      (w.childGroups group s dirs).map (·.1) = dirs
      ∧ (w.siblingsAfter s dirs).segments
        = ((w.childGroups group s dirs).map fun c => Naming.packageSegment c.2.name).reverse
          ++ s.segments
      ∧ (w.siblingsAfter s dirs).segments.toFinset.card
        = s.segments.toFinset.card + dirs.length := by
  refine ⟨fun request => ⟨fun _ _ => Siblings.search_iff, ?_, s.nameChild_spec request⟩,
    fun group dirs => ⟨w.map_fst_childGroups group s dirs, w.segments_siblingsAfter group s dirs,
      w.card_segments_siblingsAfter s dirs⟩⟩
  exact s.length_tryNames_le request _

/-! ### Icons of a visit -/

/-- The icons that a visit makes. -/
def iconsOf (n : Nat) (dir : String) (group : Group) : List Entry :=
  (w.directory n dir group).alone.value.entries

/-- The icons of directories inside a directory, where some levels are left. -/
def childIcons : Nat → List (String × Group) → List Entry
  | 0, _ => []
  | n + 1, cs => cs.flatMap fun c => w.iconsOf n c.1 c.2

/-- The icons of the files inside a directory. -/
def fileEntries (dir : String) (names : List String) (group : Group) : List Entry :=
  (Outcome.icons (w.outcomes group (ownNames group) (w.filesIn dir names)).1).map (group, ·)

/-- The names that are taken when the directories inside a directory are named. -/
def firstSiblings (dir : String) (names : List String) (group : Group) : Siblings :=
  ⟨(w.outcomes group (ownNames group) (w.filesIn dir names)).2, []⟩

variable {w}

lemma iconsOf_of_error {dir : String} {fault : FileFault}
    (hentries : w.files.entries dir = .error fault) (n : Nat) (group : Group) :
    w.iconsOf n dir group = [] := by
  have hvisit {descend : Group → Siblings → List String → Work (List Tree)} :
      (w.visitWith descend dir group).alone.value.entries = [] := by
    rw [w.alone_visitWith_of_error hentries]
    rfl
  cases n <;> exact hvisit

lemma entries_visitWith
    {descend : Group → Siblings → List String → Work (List Tree)}
    (hdescend : ∀ group s dirs, (descend group s dirs).Steady) {dir : String}
    {names : List String} (hentries : w.files.entries dir = .ok names) (group : Group) :
    (w.visitWith descend dir group).alone.value.entries = w.fileEntries dir names group
      ++ (descend group (w.firstSiblings dir names group) (w.dirsIn dir names)).alone.value.flatMap
        Tree.entries := by
  rw [visitWith_of_entries hdescend hentries]
  change (Tree.node group (w.icons group (ownNames group) (w.filesIn dir names)).alone.value.1
    (descend group ⟨(w.icons group (ownNames group) (w.filesIn dir names)).alone.value.2, []⟩
      (w.dirsIn dir names)).alone.value).entries = _
  rw [(w.icons_spec group (ownNames group) (w.filesIn dir names)).1, Tree.entries_eq]
  rfl

lemma value_subdirectories_cons {visit : String → Group → Work Tree}
    (hvisit : ∀ dir group, (visit dir group).Steady) (group : Group) (s : Siblings) (dir : String)
    (dirs : List String) :
    (w.subdirectories visit group s (dir :: dirs)).alone.value =
      let t := (visit dir (group.child (w.childName s dir))).alone.value
      let rest := (w.subdirectories visit group (s.nameChild (w.identifierOf dir)).2 dirs).alone.value
      if t.isEmpty then rest else t :: rest := by
  rw [w.alone_subdirectories_cons hvisit]
  unfold childName identifierOf
  dsimp only [Production.value_bind]
  split_ifs <;> rfl

lemma entries_subdirectories {visit : String → Group → Work Tree}
    (hvisit : ∀ dir group, (visit dir group).Steady) (group : Group) (s : Siblings)
    (dirs : List String) :
    (w.subdirectories visit group s dirs).alone.value.flatMap Tree.entries
      = (w.childGroups group s dirs).flatMap fun c => (visit c.1 c.2).alone.value.entries := by
  induction dirs generalizing s with
  | nil => rfl
  | cons dir dirs ih =>
    rw [childGroups, List.flatMap_cons, ← ih, value_subdirectories_cons hvisit]
    dsimp only
    split_ifs with hempty
    · rw [Tree.isEmpty_iff.mp hempty, List.nil_append]
    · rfl

/-- The icons of a directory: those of its files, and then those of the directories inside it. -/
lemma iconsOf_eq {dir : String} {names : List String} (hentries : w.files.entries dir = .ok names)
    (n : Nat) (group : Group) :
    w.iconsOf n dir group = w.fileEntries dir names group
      ++ w.childIcons n (w.childGroups group (w.firstSiblings dir names group)
        ((w.dirNames dir names).map (Location.join dir))) := by
  rw [← dirsIn_eq]
  cases n with
  | zero => exact entries_visitWith steady_depthNotices hentries group
  | succ n =>
    rw [iconsOf, directory,
      entries_visitWith (w.steady_subdirectories (w.steady_directory n)) hentries,
      entries_subdirectories (w.steady_directory n)]
    rfl

lemma exists_name_of_mem {group : Group} {s : Siblings} {dir : String} {ms : List String}
    {c : String × Group} (hc : c ∈ w.childGroups group s (ms.map (Location.join dir))) :
    ∃ m ∈ ms, Location.join dir m = c.1 := by
  have hmem := List.mem_map_of_mem (f := Prod.fst) hc
  rwa [w.map_fst_childGroups, List.mem_map] at hmem

/-- The icons of a directory inside a directory are icons of that directory. -/
lemma mem_iconsOf_of_child {dir : String} {names : List String}
    (hentries : w.files.entries dir = .ok names) {n : Nat} {group : Group} {c : String × Group}
    (hc : c ∈ w.childGroups group (w.firstSiblings dir names group)
      ((w.dirNames dir names).map (Location.join dir))) {e : Entry} (he : e ∈ w.iconsOf n c.1 c.2) :
    e ∈ w.iconsOf (n + 1) dir group := by
  rw [iconsOf_eq hentries]
  exact List.mem_append_right _ (List.mem_flatMap.mpr ⟨c, hc, he⟩)

lemma identifierOf_join (dir : String) {name : String} (hname : Location.IsName name) :
    w.identifierOf (Location.join dir name) = w.backend.identifier name := by
  rw [identifierOf, Location.fileName?, Location.parts_join dir hname, List.getLast?_concat]
  rfl

/-! ### Files and groups of icons -/

lemma files_fileEntries (dir : String) (names : List String) (group group' : Group) :
    (w.fileEntries dir names group).map (·.2.1) = (w.fileEntries dir names group').map (·.2.1) := by
  rw [fileEntries, fileEntries, List.map_map, List.map_map]
  exact Outcome.icons_of_alike (w.outcomes_alike group group' _ _ (w.filesIn dir names))

/-- The files that become icons in a visit do not depend on the group. -/
lemma files_iconsOf (n : Nat) (dir : String) (group group' : Group) :
    (w.iconsOf n dir group).map (·.2.1) = (w.iconsOf n dir group').map (·.2.1) := by
  induction n using Nat.strong_induction_on generalizing dir group group' with
  | _ n ih =>
    have hchildren (g : Group) (s : Siblings) (dirs : List String) :
        (w.childIcons n (w.childGroups g s dirs)).map (·.2.1)
          = (w.childIcons n (dirs.map (·, group))).map (·.2.1) := by
      cases n with
      | zero => rfl
      | succ n =>
        rw [childIcons, childIcons, List.map_flatMap, List.map_flatMap, List.flatMap_map,
          ← w.map_fst_childGroups g s dirs, List.flatMap_map, w.map_fst_childGroups]
        exact List.flatMap_congr fun c _ => ih n n.lt_succ_self c.1 c.2 group
    cases hentries : w.files.entries dir with
    | error fault => rw [iconsOf_of_error hentries, iconsOf_of_error hentries]
    | ok names =>
      rw [iconsOf_eq hentries, iconsOf_eq hentries, List.map_append, List.map_append,
        files_fileEntries dir names group group', hchildren, hchildren]

/-- The groups of all icons of a visit are below that of the visit. -/
lemma isWithin_of_mem {n : Nat} {dir : String} {group : Group} {e : Entry}
    (h : e ∈ w.iconsOf n dir group) : e.1.IsWithin group := by
  obtain ⟨os, hvisits, -⟩ := w.directory_visits n dir group
  obtain ⟨hgroup, hsound⟩ := hvisits.sound
  obtain ⟨u, hu, hu', -⟩ := Tree.mem_entries.mp h
  rw [← hu', ← hgroup]
  exact hsound.isWithin hu

/-- All icons of a visit come from files below the directory. -/
lemma exists_path_of_mem (hfiles : w.files.Lawful) {n : Nat} {dir : String}
    (hdir : w.files.isDirectory dir = true) {group : Group} {e : Entry}
    (h : e ∈ w.iconsOf n dir group) :
    ∃ path, (∀ name ∈ path, Location.IsName name) ∧ e.2.1 = Location.below dir path := by
  obtain ⟨os, hvisits, -⟩ := w.directory_visits n dir group
  obtain ⟨ps, hps, -, hmeets⟩ := hvisits.meets hfiles hdir
  have hicon : e.2 ∈ Outcome.icons os := by
    rw [← hvisits.traced.icons]
    exact List.mem_map_of_mem h
  obtain ⟨o, ho, a, -, ha⟩ := Outcome.mem_icons.mp hicon
  have hlocation : o.location ∈ ps.map (Location.below dir) := hps ▸ List.mem_map_of_mem ho
  obtain ⟨path, hpath, heq⟩ := List.mem_map.mp hlocation
  exact ⟨path, ((hmeets path).mp hpath).isName hfiles, by rw [heq, ← ha]⟩

end Workshop

end Iconsmith.Batch
