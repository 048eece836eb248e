import Iconsmith.Proofs.Batch.Conservation
import Iconsmith.Proofs.Svg.Pictures

/-!
# The order of directories

A file system lists what is inside a directory in any order. Names are sorted before any of them is
given a symbol or a group, at every level, so a run does the same for every order.
-/

namespace Iconsmith

/-- A choice of the order in which the names inside each directory are listed. -/
structure ListingOrder where
  arrange : String → List String → List String
  perm : ∀ dir names, (arrange dir names).Perm names

namespace FileView

/-- The same directories and files, where the names inside a directory are listed in another order. -/
def reorder (v : FileView) (o : ListingOrder) : FileView :=
  { v with entries := fun dir => (v.entries dir).map (o.arrange dir) }

variable (v : FileView) (o : ListingOrder)

@[simp] lemma bytes_reorder : (v.reorder o).bytes = v.bytes := rfl

lemma faults_reorder (dir : String) : (v.reorder o).faults dir = v.faults dir := by
  unfold faults reorder
  dsimp only
  cases v.entries dir with
  | error fault => rfl
  | ok names => rfl

end FileView

namespace Batch

/-- What makes drawables depends on the content of files only, and lists no directories. -/
def ReadsFiles (normalize : FileView → String → Normalized) : Prop :=
  ∀ v v' : FileView, v'.bytes = v.bytes → normalize v' = normalize v

/-- Drawables are made of files only if scenes are. -/
lemma readsFiles_normalize {read : Svg.SceneReader} {embedded : String → List String}
    (hread : read.LooksAt embedded) : ReadsFiles read.normalize := by
  intro v v' hbytes
  have hscene (text : String) : read v' text = read v text :=
    hread v v' text fun location _ => by rw [hbytes]
  funext location
  unfold Svg.SceneReader.normalize FileView.text
  simp only [hbytes, hscene]

namespace Workshop

/-- Names that are listed in any order are sorted into one. -/
lemma sorted_congr {names names' : List String} (h : names.Perm names') :
    sorted names = sorted names' := by
  refine List.Perm.eq_of_pairwise' (pairwise_sorted names) (pairwise_sorted names') ?_
  exact (List.mergeSort_perm names _).trans (h.trans (List.mergeSort_perm names' _).symm)

/-- A workshop over the same files, listed in another order. -/
def reorder (w : Workshop) (o : ListingOrder) : Workshop :=
  { w with files := w.files.reorder o }

variable {w : Workshop} {o : ListingOrder}
  (hnormalize : w.options.inputFormat = .svg →
    w.normalize (w.files.reorder o) = w.normalize w.files)

include hnormalize

lemma icon_reorder : (w.reorder o).icon = w.icon := by
  have htext : (w.reorder o).drawableText = w.drawableText := by
    funext file
    unfold drawableText
    have hformat : (w.reorder o).options.inputFormat = w.options.inputFormat := rfl
    rw [hformat]
    cases hsvg : w.options.inputFormat with
    | drawable => rfl
    | svg =>
      have hmade : (w.reorder o).normalize (w.reorder o).files = w.normalize w.files :=
        hnormalize hsvg
      unfold normalized
      rw [hmade]
  funext group names file
  unfold icon load
  rw [htext]
  rfl

lemma icons_reorder (group : Group) (names : Naming.Allocator) (files : List String) :
    (w.reorder o).icons group names files = w.icons group names files := by
  induction files generalizing names with
  | nil => rfl
  | cons file files ih =>
    unfold icons
    simp only [icon_reorder hnormalize, ih]

lemma visitWith_reorder (descend : Group → Naming.Siblings → List String → Work (List Tree)) :
    (w.reorder o).visitWith descend = w.visitWith descend := by
  funext dir group
  unfold visitWith
  have hentries : (w.reorder o).files.entries dir = (w.files.entries dir).map (o.arrange dir) := rfl
  have hfaults : (w.reorder o).files.faults dir = w.files.faults dir := w.files.faults_reorder o dir
  rw [hentries, hfaults]
  cases w.files.entries dir with
  | error fault => rfl
  | ok names =>
    have hsorted : sorted ((o.arrange dir names).filter isVisible) =
        sorted (names.filter isVisible) :=
      sorted_congr ((o.perm dir names).filter isVisible)
    simp only [Except.map, hsorted, icons_reorder hnormalize]
    rfl

lemma directory_reorder (n : Nat) : (w.reorder o).directory n = w.directory n := by
  induction n with
  | zero => exact visitWith_reorder hnormalize _
  | succ n ih =>
    unfold directory
    rw [visitWith_reorder hnormalize, ih]
    congr 1
    funext group siblings dirs
    induction dirs generalizing siblings with
    | nil => rfl
    | cons dir dirs ih =>
      unfold subdirectories
      simp only [ih]
      rfl

lemma generate_reorder (input : Input) : (w.reorder o).generate input = w.generate input := by
  cases input with
  | directory root =>
    simp only [generate, directory_reorder hnormalize]
    rfl
  | files locations =>
    simp only [generate, fileList, icons_reorder hnormalize]
    rfl

end Workshop

section Run

variable {m : Type → Type} [Monad m] (write : String → String → m (Except Failure Unit))

lemma accessors_reorder (w : Workshop) (o : ListingOrder) (ts : List Tree) :
    (w.reorder o).accessors ts = w.accessors ts := by
  induction ts with
  | nil => rfl
  | cons t ts ih =>
    unfold Workshop.accessors
    rw [ih]
    rfl

lemma output_reorder (w : Workshop) (o : ListingOrder) (out : String) (p : Production Tree) :
    output write (w.reorder o) out p = output write w out p := by
  unfold output
  rw [accessors_reorder]

end Run

/-- The order in which the directories are listed makes no difference to a run: not to its report, not
to its log, and not to what it writes. -/
theorem run_of_any_order {m : Type → Type} [Monad m]
    (write : String → String → m (Except Failure Unit))
    (normalize : FileView → String → Normalized) (files : FileView) (o : ListingOrder)
    (options : Options) (out : Option String) (input : Input)
    (hnormalize : options.inputFormat = .svg → ReadsFiles normalize) :
    run write normalize (files.reorder o) options out input =
      run write normalize files options out input := by
  have hinput : checkInput (files.reorder o) input = checkInput files input := by
    cases input <;> rfl
  have hcolors : loadColors (files.reorder o) options.colorResources =
      loadColors files options.colorResources := by
    cases options.colorResources <;> rfl
  unfold run
  rw [prepare_congr options normalize hinput rfl hcolors]
  cases hprepare : prepare options files normalize input with
  | error e => rfl
  | ok p =>
    obtain ⟨w, notices⟩ := p
    obtain ⟨-, -, rfl, rfl, rfl⟩ := prepare_eq_ok hprepare
    have hmade : w.options.inputFormat = .svg →
        w.normalize (w.files.reorder o) = w.normalize w.files :=
      fun hformat => hnormalize hformat _ _ (w.files.bytes_reorder o)
    have hgenerate := Workshop.generate_reorder hmade input
    have houtput := output_reorder write w o
    unfold Workshop.reorder at hgenerate houtput
    simp only [Except.map, hgenerate, houtput]

/-- Every directory is listed the other way round. -/
def backwards : ListingOrder where
  arrange _ names := names.reverse
  perm _ names := names.reverse_perm

/-- A directory in which there is another one gives the same when both are listed backwards. -/
theorem run_backwards :
    (sampleTree.reorder backwards).entries "in" = .ok ["d.txt", "b", "a.svg"]
      ∧ (sampleTree.reorder backwards).entries "in/b" = .ok ["e.svg", ".c.svg"]
      ∧ run (m := Id) writeNothing Svg.normalize (sampleTree.reorder backwards) {} (some "out")
          (.directory "in")
        = run (m := Id) writeNothing Svg.normalize sampleTree {} (some "out") (.directory "in") :=
  ⟨rfl, rfl, run_of_any_order writeNothing Svg.normalize sampleTree backwards {} (some "out")
    (.directory "in") fun _ => readsFiles_normalize Svg.Scene.reader_looksAt⟩

end Batch

end Iconsmith
