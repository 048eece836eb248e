import Iconsmith.Batch.Run
import Iconsmith.Proofs.Batch.Outcomes
import Iconsmith.Proofs.Naming.Segments

/-!
# What becomes of directories

A visit of a directory gives a tree of groups and a list of outcomes. The relations here say which
ones, along the recursion of the visit: `Listed` is about one directory, `Descends` about the
directories inside it, and `Visits` ties both together down to a number of levels.
-/

namespace Iconsmith.Batch

/-- The icons and the failures of a production are those of a list of outcomes. -/
structure Production.Explained {α : Type} (p : Production α) (os : List Outcome) : Prop where
  artifacts : p.artifacts = Outcome.artifacts os
  failures : p.failures = Outcome.failures os

lemma Production.Explained.bind {α β : Type} {p : Production α} {f : α → Production β}
    {os os' : List Outcome} (hp : p.Explained os) (hf : (f p.value).Explained os') :
    (p >>= f).Explained (os ++ os') where
  artifacts := by simp [hp.artifacts, hf.artifacts]
  failures := by simp [hp.failures, hf.failures]

lemma Production.Explained.after_notes {α : Type} {f : Unit → Production α} {os : List Outcome}
    (hf : (f ()).Explained os) (level : Log.Level) (source : Log.Source) (texts : List String) :
    (Production.notes level source texts >>= f).Explained os where
  artifacts := by simp [hf.artifacts]
  failures := by simp [hf.failures]

lemma Production.Explained.bind_pure {α β : Type} {p : Production α} {os : List Outcome}
    (hp : p.Explained os) (f : α → β) : (p >>= fun x => pure (f x)).Explained os where
  artifacts := by simp [hp.artifacts]
  failures := by simp [hp.failures]

namespace Workshop

variable (w : Workshop)

/-- The locations of what takes part in a run among the names inside a directory. -/
def inside (dir : String) (names : List String) : List String :=
  (sorted (names.filter isVisible)).map (Location.join dir)

/-- The files of a run inside a directory. -/
def filesIn (dir : String) (names : List String) : List String :=
  (inside dir names).filter (!w.files.isDirectory ·)

/-- The directories of a run inside a directory. -/
def dirsIn (dir : String) (names : List String) : List String :=
  (inside dir names).filter (w.files.isDirectory ·)

/-- The outcomes of a directory itself, one for each thing that goes wrong while it is listed. -/
def faultsOf (dir : String) : List Outcome :=
  (w.files.faults dir).map fun fault => ⟨dir, .error (.filesystem dir fault)⟩

/-- The trees and the outcomes of the directories inside a directory. Each is visited for a group
with a new name, and leaves no group behind without icons. -/
inductive Descends (visit : String → Group → Tree → List Outcome → Prop) (group : Group) :
    Naming.Siblings → List String → List Tree → List Outcome → Prop
  | nil (s : Naming.Siblings) : Descends visit group s [] [] []
  | cons {s : Naming.Siblings} {dir name : String} {dirs : List String} {t : Tree}
      {ts : List Tree} {os os' : List Outcome}
      (named : s.Named name (s.nameChild (w.identifierOf dir)).2)
      (visited : visit dir (group.child name) t os)
      (rest : Descends visit group (s.nameChild (w.identifierOf dir)).2 dirs ts os') :
      Descends visit group s (dir :: dirs) (if t.isEmpty then ts else t :: ts) (os ++ os')

/-- The tree and the outcomes of a directory, by those of the directories inside it. -/
inductive Listed (descend : Group → Naming.Siblings → List String → List Tree → List Outcome → Prop)
    (dir : String) (group : Group) : Tree → List Outcome → Prop
  | unlisted {fault : FileFault} (failed : w.files.entries dir = .error fault) :
      Listed descend dir group (.node group [] []) (w.faultsOf dir)
  | listed {names : List String} {os os' : List Outcome} {symbols : Naming.Allocator}
      {ts : List Tree} (entries : w.files.entries dir = .ok names)
      (icons : w.outcomes group (ownNames group) (w.filesIn dir names) = (os, symbols))
      (children : descend group ⟨symbols, []⟩ (w.dirsIn dir names) ts os') :
      Listed descend dir group (.node group (Outcome.icons os) ts) (w.faultsOf dir ++ (os ++ os'))

/-- The tree and the outcomes of a directory, down to a number of levels below it. -/
def Visits : Nat → String → Group → Tree → List Outcome → Prop
  | 0 => w.Listed fun _ _ _ ts os => ts = [] ∧ os = []
  | n + 1 => w.Listed (w.Descends (Visits n))

variable {w}

/-- Where all names inside a directory take part and are in order, they are not rearranged. -/
lemma inside_of_pairwise (dir : String) {names : List String}
    (hvisible : ∀ n ∈ names, isVisible n = true) (h : names.Pairwise (· ≤ ·)) :
    inside dir names = names.map (Location.join dir) := by
  unfold inside sorted
  rw [List.filter_eq_self.mpr hvisible, List.mergeSort_of_pairwise]
  simpa using h

lemma mem_faultsOf {dir : String} {o : Outcome} : o ∈ w.faultsOf dir
    ↔ ∃ fault ∈ w.files.faults dir, ⟨dir, .error (.filesystem dir fault)⟩ = o :=
  List.mem_map

lemma artifacts_faultsOf (dir : String) : Outcome.artifacts (w.faultsOf dir) = [] := by
  simp [faultsOf, Outcome.artifacts, Outcome.artifact?, Except.toOption]

lemma icons_faultsOf (dir : String) : Outcome.icons (w.faultsOf dir) = [] := by
  simp [faultsOf, Outcome.icons, Outcome.icon?, Outcome.artifact?, Except.toOption]

lemma failures_faultsOf (dir : String) :
    Outcome.failures (w.faultsOf dir) = (w.files.faults dir).map (.filesystem dir) := by
  rw [faultsOf, Outcome.failures, List.flatMap_map, List.map_eq_flatMap]
  rfl

lemma explained_fails (dir : String) :
    (Production.fails ((w.files.faults dir).map (.filesystem dir))).Explained (w.faultsOf dir) where
  artifacts := (artifacts_faultsOf dir).symm
  failures := (failures_faultsOf dir).symm

/-- A directory that can be listed is visited for its files, and then for the directories inside. -/
lemma visitWith_of_entries
    {descend : Group → Naming.Siblings → List String → Work (List Tree)}
    (hdescend : ∀ group s dirs, (descend group s dirs).Steady) {dir : String} {names : List String}
    (hentries : w.files.entries dir = .ok names) (group : Group) :
    (w.visitWith descend dir group).alone = do
      .fails ((w.files.faults dir).map (.filesystem dir))
      let (icons, symbols) ← (w.icons group (ownNames group) (w.filesIn dir names)).alone
      let children ← (descend group ⟨symbols, []⟩ (w.dirsIn dir names)).alone
      return .node group icons children := by
  unfold visitWith
  rw [hentries]
  exact ((Work.gives_lift _).bind fun _ => Work.Gives.bind (w.steady_icons group _ _) fun _ =>
    Work.Gives.bind (hdescend group _ _) fun _ => Work.gives_pure _).alone

lemma subdirectories_spec {visit : String → Group → Work Tree}
    {R : String → Group → Tree → List Outcome → Prop}
    (hvisit : ∀ dir group, (visit dir group).Steady)
    (h : ∀ dir group, ∃ os, R dir group (visit dir group).alone.value os
      ∧ (visit dir group).alone.Explained os)
    (group : Group) (s : Naming.Siblings) (dirs : List String) :
    ∃ os, w.Descends R group s dirs (w.subdirectories visit group s dirs).alone.value os
      ∧ (w.subdirectories visit group s dirs).alone.Explained os := by
  induction dirs generalizing s with
  | nil => exact ⟨[], .nil s, rfl, rfl⟩
  | cons dir dirs ih =>
    obtain ⟨name, hlast, -, hnamed⟩ := s.nameChild_spec (w.identifierOf dir)
    obtain ⟨os, hvisits, hos⟩ := h dir (group.child name)
    obtain ⟨os', hrest, hos'⟩ := ih (s.nameChild (w.identifierOf dir)).2
    have hname : ((s.nameChild (w.identifierOf dir)).1.getLast?.getD (w.identifierOf dir)) = name := by
      rw [hlast, Option.getD_some]
    have hcons := Descends.cons hnamed hvisits hrest
    refine ⟨os ++ os', ?_⟩
    rw [w.alone_subdirectories_cons hvisit]
    unfold identifierOf at hname hcons hos'
    simp only [hname]
    cases hempty : (visit dir (group.child name)).alone.value.isEmpty with
    | true =>
      refine ⟨by simpa [hempty] using hcons, .after_notes (hos.bind ?_) ..⟩
      simp only [hempty, if_true]
      exact .after_notes (hos'.bind_pure id) ..
    | false =>
      refine ⟨by simpa [hempty] using hcons, .after_notes (hos.bind ?_) ..⟩
      simp only [hempty, Bool.false_eq_true, if_false]
      exact hos'.bind_pure (List.cons _)

lemma visitWith_spec
    {descend : Group → Naming.Siblings → List String → Work (List Tree)}
    {R : Group → Naming.Siblings → List String → List Tree → List Outcome → Prop}
    (hdescend : ∀ group s dirs, (descend group s dirs).Steady)
    (h : ∀ group s dirs, ∃ os, R group s dirs (descend group s dirs).alone.value os
      ∧ (descend group s dirs).alone.Explained os)
    (dir : String) (group : Group) :
    ∃ os, w.Listed R dir group (w.visitWith descend dir group).alone.value os
      ∧ (w.visitWith descend dir group).alone.Explained os := by
  cases hentries : w.files.entries dir with
  | error fault =>
    rw [w.alone_visitWith_of_error hentries]
    exact ⟨_, .unlisted hentries, (explained_fails dir).bind_pure _⟩
  | ok names =>
    rw [visitWith_of_entries hdescend hentries]
    obtain ⟨hvalue, hartifacts, hfailures⟩ :=
      w.icons_spec group (ownNames group) (w.filesIn dir names)
    obtain ⟨os', hrest, hos'⟩ := h group
      ⟨(w.outcomes group (ownNames group) (w.filesIn dir names)).2, []⟩ (w.dirsIn dir names)
    refine ⟨w.faultsOf dir
      ++ ((w.outcomes group (ownNames group) (w.filesIn dir names)).1 ++ os'), ?_, ?_⟩
    · simpa [hvalue] using Listed.listed hentries rfl hrest
    · have hicons : (w.icons group (ownNames group) (w.filesIn dir names)).alone.Explained _ :=
        ⟨hartifacts, hfailures⟩
      refine (explained_fails dir).bind (hicons.bind ?_)
      rw [hvalue]
      exact hos'.bind_pure _

/-- What a visit makes of a directory. -/
lemma directory_visits (n : Nat) (dir : String) (group : Group) :
    ∃ os, w.Visits n dir group (w.directory n dir group).alone.value os
      ∧ (w.directory n dir group).alone.Explained os := by
  induction n generalizing dir group with
  | zero =>
    exact visitWith_spec steady_depthNotices (fun group s dirs => ⟨[], ⟨rfl, rfl⟩, rfl, rfl⟩) dir
      group
  | succ n ih =>
    exact visitWith_spec (w.steady_subdirectories (w.steady_directory n))
      (subdirectories_spec (w.steady_directory n) ih) dir group

/-! ### Induction along a visit -/

/-- What holds of a directory that cannot be listed, and of one that can when something holds of the
directories inside it, holds of every visit. On the lowest level there is nothing of the directories
inside; elsewhere the first of them is visited, and then the others are. -/
theorem Visits.induction {P : String → Group → Tree → List Outcome → Prop}
    {Q : Group → Naming.Siblings → List Tree → List Outcome → Prop}
    (unlisted : ∀ dir group fault, w.files.entries dir = .error fault →
      P dir group (.node group [] []) (w.faultsOf dir))
    (listed : ∀ dir group names ts os, w.files.entries dir = .ok names →
      Q group ⟨(w.outcomes group (ownNames group) (w.filesIn dir names)).2, []⟩ ts os →
      P dir group
        (.node group (Outcome.icons (w.outcomes group (ownNames group) (w.filesIn dir names)).1) ts)
        (w.faultsOf dir ++ ((w.outcomes group (ownNames group) (w.filesIn dir names)).1 ++ os)))
    (nothing : ∀ group s, Q group s [] [])
    (below : ∀ group s dir name t ts os os', s.Named name (s.nameChild (w.identifierOf dir)).2 →
      P dir (group.child name) t os → Q group (s.nameChild (w.identifierOf dir)).2 ts os' →
      Q group s (if t.isEmpty then ts else t :: ts) (os ++ os'))
    {n : Nat} {dir : String} {group : Group} {t : Tree} {os : List Outcome}
    (h : w.Visits n dir group t os) : P dir group t os := by
  have hlisted {descend : Group → Naming.Siblings → List String → List Tree → List Outcome → Prop}
      (hdescend : ∀ group s dirs ts os, descend group s dirs ts os → Q group s ts os)
      {dir : String} {group : Group} {t : Tree} {os : List Outcome}
      (h : w.Listed descend dir group t os) : P dir group t os := by
    cases h with
    | unlisted failed => exact unlisted dir group _ failed
    | listed entries icons children =>
      have hdir := hdescend _ _ _ _ _ children
      obtain ⟨rfl, rfl⟩ := Prod.mk.inj icons
      exact listed dir group _ _ _ entries hdir
  induction n generalizing dir group t os with
  | zero =>
    refine hlisted ?_ h
    rintro group s dirs ts os ⟨rfl, rfl⟩
    exact nothing group s
  | succ n ih =>
    refine hlisted (fun group s dirs ts os hdescends => ?_) h
    induction hdescends with
    | nil s => exact nothing group s
    | cons named visited _ ihrest => exact below _ _ _ _ _ _ _ _ named (ih visited) ihrest

/-- What holds of the outcomes of files and of what goes wrong while directories are listed holds of
all outcomes of a visit. -/
lemma Visits.forall_mem {R : Outcome → Prop}
    (hfile : ∀ o group before after, w.files.isDirectory o.location = false →
      w.Becomes group before o.location o.result after → R o)
    (hdir : ∀ dir, ∀ fault ∈ w.files.faults dir, R ⟨dir, .error (.filesystem dir fault)⟩)
    {n : Nat} {dir : String} {group : Group} {t : Tree} {os : List Outcome}
    (h : w.Visits n dir group t os) : ∀ o ∈ os, R o := by
  have hfaults (dir : String) : ∀ o ∈ w.faultsOf dir, R o := by
    intro o ho
    obtain ⟨fault, hfault, rfl⟩ := mem_faultsOf.mp ho
    exact hdir dir fault hfault
  refine h.induction (P := fun _ _ _ os => ∀ o ∈ os, R o) (Q := fun _ _ _ os => ∀ o ∈ os, R o)
    ?unlisted ?listed ?nothing ?below
  case unlisted => exact fun dir _ _ _ => hfaults dir
  case listed =>
    intro dir group names ts os _ hbelow
    refine List.forall_mem_append.mpr ⟨hfaults dir, List.forall_mem_append.mpr ⟨fun o ho => ?_, hbelow⟩⟩
    have hlocation : o.location ∈ w.filesIn dir names := by
      rw [← w.map_location_outcomes group (ownNames group) (w.filesIn dir names)]
      exact List.mem_map_of_mem ho
    have hisFile : w.files.isDirectory o.location = false := by
      simpa using (List.mem_filter.mp hlocation).2
    obtain ⟨before, after, hbecomes⟩ := w.exists_becomes ho
    exact hfile o group before after hisFile hbecomes
  case nothing => simp
  case below =>
    intro _ _ _ _ _ _ _ _ _ hvisited hrest
    exact List.forall_mem_append.mpr ⟨hvisited, hrest⟩

end Workshop

end Iconsmith.Batch
