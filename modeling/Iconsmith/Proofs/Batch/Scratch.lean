import Iconsmith.Batch.Generate
import Iconsmith.Proofs.Files.Disks

/-!
# The scratch directory

The drawables of a run are kept in one directory, where a file may take the place of that of another
one. Each of them is read right after it was written, so no work on an icon depends on what earlier
icons left behind: it does what it would do alone. The invariant is that there are only files in the
scratch directory, so that every name can be written.
-/

namespace Iconsmith

namespace Disk

/-- There are files on a disk, but no directories. -/
def IsFlat (d : Disk) : Prop :=
  ∀ place, d.lookup? place = some .directory → place = []

lemma isFlat_empty : empty.IsFlat := by
  intro place h
  by_contra hne
  simp [lookup?, empty, hne] at h

lemma resolve_name (d : Disk) {name : String} (h : Location.IsName name) :
    d.resolve name = .ok [name] := by
  have hstep : d.step [] name = .ok [name] :=
    step_eq_ok.mpr ⟨rfl, by simp [target, h.nonempty, h.notHere, h.notAbove]⟩
  simp only [resolve, h.nonempty, h.relative, Location.pieces_of_noSlash h.noSlash,
    List.foldlM_cons, hstep]
  rfl

/-- A file can be written to a flat disk under every name, and be read again. -/
lemma IsFlat.write {d : Disk} (hd : d.IsFlat) {name : String} (hname : Location.IsName name)
    (text : String) :
    (d.write name text).2 = .ok () ∧ (d.write name text).1.IsFlat
      ∧ (d.write name text).1.view.text name = .ok text := by
  have hdirectory : d.lookup? [name] ≠ some .directory := fun h => by cases hd [name] h
  have hwrite : d.write name text = (d.put [name] (.file text.toUTF8), .ok ()) := by
    unfold Disk.write
    rw [d.resolve_name hname]
    dsimp only
    split
    · contradiction
    · rfl
  have hholds := (d.write_spec name text).2 (by rw [hwrite])
  refine ⟨by rw [hwrite], ?_, ?_⟩
  · rw [hwrite]
    intro place hplace
    by_cases heq : place = [name]
    · subst heq
      rw [lookup?_put_self _ (by simp)] at hplace
      cases hplace
    · exact hd place (by rwa [lookup?_put_of_ne _ heq] at hplace)
  · exact hholds.text

end Disk

namespace Batch

/-! ### Steady work -/

namespace Work

variable {α β : Type} {x : Work α} {p : Production α} {f : α → Work β} {q : α → Production β}

/-- Whatever files are in the scratch directory, some work does what a production says. -/
def Gives (x : Work α) (p : Production α) : Prop :=
  ∀ scratch : Disk, scratch.IsFlat →
    ∃ scratch' : Disk, scratch'.IsFlat ∧ x.run scratch = (·, scratch') <$> p

/-- Whatever files are in the scratch directory, some work does what it would do alone. -/
def Steady (x : Work α) : Prop :=
  x.Gives x.alone

lemma Gives.alone (h : x.Gives p) : x.alone = p := by
  obtain ⟨scratch, -, hrun⟩ := h Disk.empty Disk.isFlat_empty
  rw [Work.alone, hrun]
  rfl

lemma Gives.steady (h : x.Gives p) : x.Steady := by
  rw [Steady, h.alone]
  exact h

lemma gives_pure (a : α) : Work.Gives (pure a) (pure a) :=
  fun scratch hscratch => ⟨scratch, hscratch, rfl⟩

lemma gives_lift (p : Production α) : Work.Gives (liftM p) p := by
  intro scratch hscratch
  refine ⟨scratch, hscratch, ?_⟩
  change (p >>= fun a => pure (a, scratch)) = _
  ext1 <;> simp

lemma Gives.bind (hx : x.Gives p) (hf : ∀ a, (f a).Gives (q a)) :
    Work.Gives (x >>= f) (p >>= q) := by
  intro scratch hscratch
  obtain ⟨scratch₁, hflat₁, hrun₁⟩ := hx scratch hscratch
  obtain ⟨scratch₂, hflat₂, hrun₂⟩ := hf p.value scratch₁ hflat₁
  refine ⟨scratch₂, hflat₂, ?_⟩
  change (x.run scratch >>= fun r => (f r.1).run r.2) = _
  rw [hrun₁]
  change (p >>= fun a => (f a).run scratch₁) = _
  ext1 <;> simp [hrun₂]

@[simp] lemma alone_pure (a : α) : Work.alone (pure a) = pure a :=
  (gives_pure a).alone

@[simp] lemma alone_lift (p : Production α) : Work.alone (liftM p) = p :=
  (gives_lift p).alone

lemma steady_pure (a : α) : Work.Steady (pure a) :=
  (gives_pure a).steady

lemma steady_lift (p : Production α) : Work.Steady (liftM p) :=
  (gives_lift p).steady

lemma Steady.bind (hx : x.Steady) (hf : ∀ a, (f a).Steady) : Work.Steady (x >>= f) :=
  (Gives.bind hx hf).steady

end Work

/-! ### Steady steps of a run -/

namespace Workshop

variable (w : Workshop)

lemma isName_scratchName (file : String) : Location.IsName (scratchName file) := by
  apply Location.isName_append_xml
  unfold Location.stem?
  cases hname : Location.fileName? file with
  | none => decide
  | some name =>
    have hslash := (Location.isName_of_fileName? hname).noSlash
    exact fun h => hslash ((Location.stemOf_isPrefix name).subset h)

/-- The text of the drawable that a file holds or is made into, without the way through the scratch
directory. -/
def ownText (file : String) : Production (Option String) :=
  match w.options.inputFormat with
  | .drawable => .accept ((w.files.text file).mapError (Failure.filesystem file))
  | .svg => do
    let n := w.normalize w.files file
    .log n.notices
    .accept n.drawable

/-- What is read from the scratch directory is what was written there just before. -/
lemma drawableText_gives (file : String) : (w.drawableText file).Gives (w.ownText file) := by
  unfold drawableText ownText
  cases w.options.inputFormat with
  | drawable => exact Work.gives_lift _
  | svg =>
    intro scratch hscratch
    cases hdrawable : (w.normalize w.files file).drawable with
    | error e =>
      refine ⟨scratch, hscratch, ?_⟩
      simp [normalized, hdrawable, Production.accept_error]
    | ok text =>
      obtain ⟨hwritten, hflat, htext⟩ := hscratch.write (isName_scratchName file) text
      refine ⟨(scratch.write (scratchName file) text).1, hflat, ?_⟩
      simp [normalized, hdrawable, Production.accept_ok, hwritten, htext, Except.map, Except.mapError]

lemma load_gives (file fileName identifier : String) :
    (w.load file fileName identifier).Gives (do
      let some text ← w.ownText file | return none
      w.parse file fileName identifier text) := by
  refine (w.drawableText_gives file).bind fun text => ?_
  cases text with
  | none => exact Work.gives_pure none
  | some text => exact Work.gives_lift _

lemma icon_gives (group : Group) (names : Naming.Allocator) (file : String) :
    (w.icon group names file).Gives
      (if !w.options.inputFormat.accepts file then do
        .fail (.inputFormat file ((Location.extension? file).getD ""))
        return (none, names)
      else do
        let fileName := (Location.fileName? file).getD ""
        let identifier := w.backend.identifier fileName
        match ← (w.load file fileName identifier).alone with
        | none => return (none, names)
        | some g => w.emit group names file identifier g) := by
  unfold icon
  split_ifs
  · exact (Work.gives_lift _).bind fun _ => Work.gives_pure _
  · refine Work.Gives.bind (w.load_gives file _ _).steady fun graphic => ?_
    cases graphic with
    | none => exact Work.gives_pure _
    | some g => exact Work.gives_lift _

lemma steady_icon (group : Group) (names : Naming.Allocator) (file : String) :
    (w.icon group names file).Steady :=
  (w.icon_gives group names file).steady

lemma steady_icons (group : Group) (names : Naming.Allocator) (files : List String) :
    (w.icons group names files).Steady := by
  induction files generalizing names with
  | nil => exact Work.steady_pure _
  | cons file files ih =>
    exact (w.steady_icon group names file).bind fun first => (ih first.2).bind fun _ =>
      Work.steady_pure _

lemma alone_icons_cons (group : Group) (names : Naming.Allocator) (file : String)
    (files : List String) :
    (w.icons group names (file :: files)).alone = (do
      let (symbol, names) ← (w.icon group names file).alone
      let (rest, names) ← (w.icons group names files).alone
      return ((symbol.map (file, ·)).toList ++ rest, names)) :=
  (Work.Gives.bind (w.steady_icon group names file) fun first =>
    Work.Gives.bind (w.steady_icons group first.2 files) fun _ => Work.gives_pure _).alone

lemma steady_subdirectories {visit : String → Group → Work Tree}
    (hvisit : ∀ dir group, (visit dir group).Steady) (group : Group) (siblings : Naming.Siblings)
    (dirs : List String) : (w.subdirectories visit group siblings dirs).Steady := by
  induction dirs generalizing siblings with
  | nil => exact Work.steady_pure _
  | cons dir dirs ih =>
    unfold subdirectories
    refine (Work.steady_lift _).bind fun _ => (hvisit _ _).bind fun tree => ?_
    split_ifs
    · exact (Work.steady_lift _).bind fun _ => (ih _).bind fun _ => Work.steady_pure _
    · exact (ih _).bind fun _ => Work.steady_pure _

lemma alone_subdirectories_cons {visit : String → Group → Work Tree}
    (hvisit : ∀ dir group, (visit dir group).Steady) (group : Group) (siblings : Naming.Siblings)
    (dir : String) (dirs : List String) :
    (w.subdirectories visit group siblings (dir :: dirs)).alone = (do
      let identifier := w.backend.identifier ((Location.fileName? dir).getD "")
      let (tried, siblings) := siblings.nameChild identifier
      .notes .debug .names (tried.flatMap (renameNotices identifier))
      let tree ← (visit dir (group.child (tried.getLast?.getD identifier))).alone
      if tree.isEmpty then .note .debug .batch s!"no icons under {dir}"
      let rest ← (w.subdirectories visit group siblings dirs).alone
      return if tree.isEmpty then rest else tree :: rest) := by
  apply Work.Gives.alone
  refine (Work.gives_lift _).bind fun _ => Work.Gives.bind (hvisit _ _) fun tree => ?_
  split_ifs
  · exact (Work.gives_lift _).bind fun _ => Work.Gives.bind
      (w.steady_subdirectories hvisit group _ dirs) fun _ => Work.gives_pure _
  · exact Work.Gives.bind (w.steady_subdirectories hvisit group _ dirs) fun _ => Work.gives_pure _

lemma steady_visitWith {descend : Group → Naming.Siblings → List String → Work (List Tree)}
    (hdescend : ∀ group siblings dirs, (descend group siblings dirs).Steady) (dir : String)
    (group : Group) : (w.visitWith descend dir group).Steady := by
  unfold visitWith
  refine (Work.steady_lift _).bind fun _ => ?_
  cases w.files.entries dir with
  | error fault => exact Work.steady_pure _
  | ok names =>
    exact (w.steady_icons group _ _).bind fun _ => (hdescend group _ _).bind fun _ =>
      Work.steady_pure _

lemma alone_visitWith_of_error
    {descend : Group → Naming.Siblings → List String → Work (List Tree)} {dir : String}
    {fault : FileFault} (hentries : w.files.entries dir = .error fault) (group : Group) :
    (w.visitWith descend dir group).alone = (do
      .fails ((w.files.faults dir).map (.filesystem dir))
      return .node group [] []) := by
  unfold visitWith
  rw [hentries]
  exact ((Work.gives_lift _).bind fun _ => Work.gives_pure _).alone

/-- The directories that are too deep are only noted. -/
lemma steady_depthNotices (_ : Group) (_ : Naming.Siblings) (dirs : List String) :
    (do
      Production.notes .warning .batch (dirs.map depthNotice)
      return [] : Work (List Tree)).Steady :=
  (Work.steady_lift _).bind fun _ => Work.steady_pure _

/-- A whole visit does not depend on what is in the scratch directory when it begins. -/
lemma steady_directory (n : Nat) (dir : String) (group : Group) :
    (w.directory n dir group).Steady := by
  induction n generalizing dir group with
  | zero => exact w.steady_visitWith steady_depthNotices dir group
  | succ n ih => exact w.steady_visitWith (w.steady_subdirectories ih) dir group

lemma alone_fileList (files : List String) (group : Group) :
    (w.fileList files group).alone = (do
      let unique := distinct files
      if unique.length < files.length then
        .note .debug .batch s!"ignoring {files.length - unique.length} duplicate inputs"
      let (icons, _) ← (w.icons group (ownNames group) unique).alone
      return .node group icons []) := by
  apply Work.Gives.alone
  simp only [fileList]
  split_ifs
  · exact (Work.gives_lift _).bind fun _ => Work.Gives.bind (w.steady_icons group _ _) fun _ =>
      Work.gives_pure _
  · exact Work.Gives.bind (w.steady_icons group _ _) fun _ => Work.gives_pure _

end Workshop

end Batch

end Iconsmith
