import Iconsmith.Proofs.Batch.Conservation
import Iconsmith.Proofs.Batch.Reports
import Iconsmith.Proofs.Drawable.RoundTrip
import Iconsmith.Proofs.Results
import Iconsmith.Proofs.Svg.Pictures

/-!
# Sources of single files

The source of an icon is made of the text of its file, under the symbol and for the group of the icon.
No other file of the run has a part in it, but for the pictures that an SVG document embeds, although
the drawables of all files of a run go through one scratch directory.
-/

namespace Iconsmith.Batch

/-! ### Sources of texts -/

section Sources

variable (read : Svg.SceneReader) (embedded : String → List String)

/-- The drawable that a text in some format is or is made into, with pictures from a view. -/
def drawableOf? (files : FileView) (text : String) : InputFormat → Option String
  | .drawable => some text
  | .svg => (read files text).toOption.map fun s => Drawable.write s.graphic

/-- The pictures that a text in some format embeds. -/
def picturesOf (text : String) : InputFormat → List String
  | .drawable => []
  | .svg => embedded text

/-- The source that a text alone gives under a symbol, with pictures from a view. -/
def ownSource? (options : Options) (colors : Color.Table) (files : FileView) (text : String)
    (group : Group) (symbol : String) : Option Source.File := do
  let drawable ← drawableOf? read files text options.inputFormat
  let g ← (Drawable.read colors drawable).result.toOption
  (options.backend.icon options.settings group symbol g).toOption

/-- The colors of a run with some options. -/
def colors? (files : FileView) (options : Options) : Option Color.Table :=
  (loadColors files options.colorResources).toOption.map (·.1)

/-- An artifact is what the text of its file alone gives for its group and under its symbol. -/
def FromOwnFile (options : Options) (colors : Color.Table) (files : FileView) (e : Entry)
    (a : Artifact) : Prop :=
  a.name = e.2.2 ∧ a.group = e.1.qualifiedName ∧ ∃ text, files.text e.2.1 = .ok text
    ∧ ownSource? read options colors files text e.1 e.2.2 = some a.source

/-- A file of another view holds the same, and so do the pictures that it embeds. -/
def SameFile (format : InputFormat) (files files' : FileView) (file file' : String) : Prop :=
  files'.bytes file' = files.bytes file ∧ ∀ text, files.text file = .ok text →
    ∀ picture ∈ picturesOf embedded text format,
      (files'.bytes picture).toOption = (files.bytes picture).toOption

variable {read embedded} {options : Options} {colors : Color.Table}

/-- Views that agree on the pictures that a text embeds give it the same source. -/
lemma ownSource?_congr (hread : options.inputFormat = .svg → read.LooksAt embedded)
    {files files' : FileView} {text : String}
    (h : ∀ picture ∈ picturesOf embedded text options.inputFormat,
      (files'.bytes picture).toOption = (files.bytes picture).toOption)
    (group : Group) (symbol : String) :
    ownSource? read options colors files' text group symbol
      = ownSource? read options colors files text group symbol := by
  have hdrawable : drawableOf? read files' text options.inputFormat
      = drawableOf? read files text options.inputFormat := by
    cases hformat : options.inputFormat with
    | drawable => rfl
    | svg =>
      rw [hformat] at h
      rw [drawableOf?, drawableOf?, hread hformat files files' text h]
  rw [ownSource?, ownSource?, hdrawable]

end Sources

/-! ### Runs -/

namespace Workshop

variable {w : Workshop} {read : Svg.SceneReader}

/-- The drawable of a file is that of its text. -/
lemma drawable_eq_ok (hnormalize : w.normalize = read.normalize) {file drawable : String}
    (h : w.drawable file = .ok drawable) :
    ∃ text, w.files.text file = .ok text
      ∧ drawableOf? read w.files text w.options.inputFormat = some drawable := by
  unfold Workshop.drawable at h
  cases hformat : w.options.inputFormat with
  | drawable =>
    rw [hformat] at h
    exact ⟨drawable, mapError_eq_ok.mp h, rfl⟩
  | svg =>
    rw [hformat, hnormalize] at h
    obtain ⟨text, scene, htext, hscene, rfl⟩ := Svg.SceneReader.normalize_eq_ok h
    refine ⟨text, htext, ?_⟩
    rw [drawableOf?, hscene]
    rfl

lemma Generated.fromOwnFile (hnormalize : w.normalize = read.normalize) {e : Entry} {a : Artifact}
    (h : w.Generated e a) : FromOwnFile read w.options w.colors w.files e a := by
  obtain ⟨g, source, hgraphic, hicon, rfl⟩ := h
  obtain ⟨drawable, hdrawable, hread⟩ := bind_eq_ok.mp hgraphic
  obtain ⟨text, htext, hof⟩ := drawable_eq_ok hnormalize hdrawable
  refine ⟨rfl, rfl, text, htext, ?_⟩
  rw [ownSource?, hof]
  change ((Drawable.read w.colors drawable).result.toOption >>= _) = _
  rw [mapError_eq_ok.mp hread]
  change (w.backend.icon w.options.settings e.1 e.2.2 g).toOption = some source
  rw [hicon]
  rfl

end Workshop

lemma colors_of_prepare {options : Options} {files : FileView}
    {normalize : FileView → String → Normalized} {input : Input} {w : Workshop}
    {notices : List Log.Record} (h : prepare options files normalize input = .ok (w, notices)) :
    colors? files options = some w.colors := by
  obtain ⟨-, -, h⟩ := bind_eq_ok.mp h
  obtain ⟨-, -, h⟩ := bind_eq_ok.mp h
  obtain ⟨-, -, h⟩ := bind_eq_ok.mp h
  obtain ⟨⟨colors, loaded⟩, hcolors, h⟩ := bind_eq_ok.mp h
  cases h
  rw [colors?, hcolors]
  rfl

section Run

variable {read : Svg.SceneReader} {σ : Type}
  {write : String → String → StateM σ (Except Failure Unit)} {files : FileView}
  {options : Options} {out : Option String} {input : Input} {s s' : σ} {log : List Log.Record}
  {r : Report} {colors : Color.Table}

/-- Every artifact of a run is made from its own file. -/
lemma fromOwnFile_of_run (hcolors : colors? files options = some colors)
    (hrun : (run write read.normalize files options out input).run s = ((log, .ok r), s')) :
    List.Forall₂ (FromOwnFile read options colors files) r.root.entries r.artifacts := by
  obtain ⟨w, notices, hprepare⟩ := exists_prepare hrun
  obtain ⟨-, -, hoptions, rfl, hnormalize⟩ := prepare_eq_ok hprepare
  obtain rfl : w.colors = colors :=
    Option.some.inj ((colors_of_prepare hprepare).symm.trans hcolors)
  obtain ⟨rfl, hreports⟩ := reports_of_prepare hprepare hrun
  exact hreports.generated.imp fun _ _ => Workshop.Generated.fromOwnFile hnormalize

end Run

/-- The source of an icon depends on its own file, its group and its symbol: every artifact is what its
file alone gives, and two runs with the same options and colors that give the same file the same group
and symbol give it the same source. A document that embeds pictures is the same only with them. -/
theorem sources_of_own_files {σ σ' : Type}
    (write : String → String → StateM σ (Except Failure Unit))
    (write' : String → String → StateM σ' (Except Failure Unit)) (read : Svg.SceneReader)
    (embedded : String → List String) (files files' : FileView) (options : Options)
    (out out' : Option String) (input input' : Input) (s t : σ) (s' t' : σ')
    (log log' : List Log.Record) (r r' : Report) (colors : Color.Table)
    (hread : options.inputFormat = .svg → read.LooksAt embedded)
    (hcolors : colors? files options = some colors)
    (hcolors' : colors? files' options = some colors)
    (hrun : (run write read.normalize files options out input).run s = ((log, .ok r), t))
    (hrun' : (run write' read.normalize files' options out' input').run s' = ((log', .ok r'), t')) :
    List.Forall₂ (FromOwnFile read options colors files) r.root.entries r.artifacts
      ∧ ∀ e a e' a', (e, a) ∈ r.root.entries.zip r.artifacts →
        (e', a') ∈ r'.root.entries.zip r'.artifacts → e'.1 = e.1 → a'.name = a.name →
        SameFile embedded options.inputFormat files files' e.2.1 e'.2.1 → a'.source = a.source := by
  have hown := fromOwnFile_of_run hcolors hrun
  have hown' := fromOwnFile_of_run hcolors' hrun'
  refine ⟨hown, fun e a e' a' he he' hgroup hsymbol hsame => ?_⟩
  obtain ⟨hname, -, text, htext, hsource⟩ := (List.forall₂_iff_zip.mp hown).2 he
  obtain ⟨hname', -, text', htext', hsource'⟩ := (List.forall₂_iff_zip.mp hown').2 he'
  obtain rfl : text = text' := by
    rw [FileView.text, hsame.1] at htext'
    exact Except.ok.inj (htext.symm.trans htext')
  rw [hgroup, ← hname', hsymbol, hname, ownSource?_congr hread (hsame.2 text htext)] at hsource'
  exact Option.some.inj (hsource'.symm.trans hsource)

/-- A picture of one pixel. -/
def pixel : ByteArray :=
  ⟨#[0x47, 0x49, 0x46, 0x38, 0x39, 0x61, 1, 0, 1, 0, 0, 0]⟩

/-- Documents that link to one picture, but for one of them. -/
def linkingFiles (picture : Except FileFault ByteArray) : FileView where
  isDirectory _ := false
  entries _ := .error .notDirectory
  bytes location :=
    if location = "p.gif" then picture
    else if location = "b/a.svg" then .ok "<svg xmlns='http://www.w3.org/2000/svg'/>".toUTF8
    else .ok "<svg xmlns='http://www.w3.org/2000/svg'><image href='p.gif'/></svg>".toUTF8

/-- Options for image vectors without previews. -/
def linkingOptions : Options where
  preview := false

/-- A run over some of these files. -/
def linkingRun (picture : Except FileFault ByteArray) (locations : List String) :
    (List Log.Record × Except Failure Report) × Unit :=
  (run (m := StateM Unit) writeNothing Svg.normalize (linkingFiles picture) linkingOptions none
    (.files locations)).run ()

/-- What becomes of some of these files, each on its own. -/
def linkingOutcomes (picture : Except FileFault ByteArray) (locations : List String) :
    List Outcome :=
  Workshop.listOutcomes ⟨linkingOptions, linkingFiles picture, .empty, Svg.normalize⟩ locations

lemma exists_linkingRun (picture : Except FileFault ByteArray) (locations : List String) :
    ∃ log r s, linkingRun picture locations = ((log, .ok r), s)
      ∧ r.root
        = .node linkingOptions.rootGroup (Outcome.icons (linkingOutcomes picture locations)) []
      ∧ r.artifacts = Outcome.artifacts (linkingOutcomes picture locations) := by
  have hprepare := @prepare_of_ok linkingOptions (linkingFiles picture) Svg.normalize
    (.files locations) (.empty, []) rfl rfl rfl rfl
  obtain ⟨log, hrun⟩ := run_none (m := StateM Unit) writeNothing hprepare
  obtain ⟨hroot, hartifacts, -⟩ := Workshop.generate_files
    ⟨linkingOptions, linkingFiles picture, .empty, Svg.normalize⟩ locations
  exact ⟨log, _, (), by rw [linkingRun, hrun]; rfl, hroot, hartifacts⟩

/-- The workshop of a run over them. -/
def linkingShop (picture : Except FileFault ByteArray) : Workshop :=
  ⟨linkingOptions, linkingFiles picture, .empty, Svg.normalize⟩

lemma linkingOutcomes_eq (picture : Except FileFault ByteArray) (locations : List String) :
    linkingOutcomes picture locations = (linkingShop picture).listOutcomes locations :=
  rfl

lemma outcome_linking {picture : Except FileFault ByteArray} {location : String} {size : Float}
    (hsize : size.isFinite = true ∧ 0 < size)
    (hscene : (sceneAt? Svg.Scene.reader (linkingFiles picture) location).map
      (fun s => (s.size.x, s.size.y, s.graphic.nodes.length)) = some (size, size, 0))
    (haccepts : linkingOptions.inputFormat.accepts location = true) (group : Group)
    (names : Naming.Allocator) :
    (linkingShop picture).outcome group names location
      = (⟨location, (linkingShop picture).emission group location
          (names.allocate ((linkingShop picture).identifierOf location)).1
          ((blank size).map Double.unsigned)⟩,
        (names.allocate ((linkingShop picture).identifierOf location)).2) :=
  Workshop.outcome_of_graphic haccepts
    (Workshop.graphic_of_blank rfl rfl hsize hscene) group names

/-- A file gives the same source alone as behind another one whose drawable has the same name. -/
theorem sources_behind_namesake :
    ∃ log log' r r' s s', linkingRun (.ok pixel) ["a2.svg"] = ((log, .ok r), s)
      ∧ linkingRun (.ok pixel) ["b/a.svg", "a.svg"] = ((log', .ok r'), s')
      ∧ ∃ a a₁ a₂, r.artifacts = [a] ∧ r'.artifacts = [a₁, a₂] ∧ a₂.name = "A2"
        ∧ a₂.source = a.source := by
  have hone : Float.isFinite 1 = true ∧ (0 : Float) < 1 := by decide +kernel
  have hhundred : Float.isFinite 100 = true ∧ (0 : Float) < 100 := by decide +kernel
  have hicon : Outcome.icons (linkingOutcomes (.ok pixel) ["a2.svg"]) = [("a2.svg", "A2")] := by
    have hdistinct : Workshop.distinct ["a2.svg"] = ["a2.svg"] := by decide +kernel
    have houtcome := @outcome_linking (.ok pixel) "a2.svg" _ hone (by decide +kernel)
      (by decide +kernel)
    rw [linkingOutcomes_eq, Workshop.listOutcomes, hdistinct, Workshop.outcomes_cons, houtcome]
    decide +kernel
  have hicons : Outcome.icons (linkingOutcomes (.ok pixel) ["b/a.svg", "a.svg"])
      = [("b/a.svg", "A"), ("a.svg", "A2")] := by
    have hdistinct : Workshop.distinct ["b/a.svg", "a.svg"] = ["b/a.svg", "a.svg"] := by decide +kernel
    have hfirst := @outcome_linking (.ok pixel) "b/a.svg" _ hhundred (by decide +kernel)
      (by decide +kernel)
    have hsecond := @outcome_linking (.ok pixel) "a.svg" _ hone (by decide +kernel)
      (by decide +kernel)
    rw [linkingOutcomes_eq, Workshop.listOutcomes, hdistinct, Workshop.outcomes_cons,
      Workshop.outcomes_cons, hfirst, hsecond]
    decide +kernel
  obtain ⟨log, r, s, hrun, hroot, -⟩ := exists_linkingRun (.ok pixel) ["a2.svg"]
  obtain ⟨log', r', s', hrun', hroot', -⟩ := exists_linkingRun (.ok pixel) ["b/a.svg", "a.svg"]
  rw [hicon] at hroot
  rw [hicons] at hroot'
  have hcolors : colors? (linkingFiles (.ok pixel)) linkingOptions = some .empty := rfl
  obtain ⟨hown, hsources⟩ := sources_of_own_files writeNothing writeNothing Svg.Scene.reader
    Svg.linkedFiles (linkingFiles (.ok pixel)) (linkingFiles (.ok pixel)) linkingOptions none none
    (.files ["a2.svg"]) (.files ["b/a.svg", "a.svg"]) () s () s' log log' r r' .empty
    (fun _ => Svg.Scene.reader_looksAt) hcolors hcolors hrun hrun'
  have hown' : List.Forall₂ (FromOwnFile Svg.Scene.reader linkingOptions .empty
      (linkingFiles (.ok pixel))) r'.root.entries r'.artifacts := fromOwnFile_of_run hcolors hrun'
  rw [hroot] at hown hsources
  rw [hroot'] at hown' hsources
  obtain ⟨a, _, ⟨hname, -⟩, hnil, hartifacts⟩ := List.forall₂_cons_left_iff.mp hown
  obtain rfl := List.forall₂_nil_left_iff.mp hnil
  obtain ⟨a₁, _, -, hown', hartifacts'⟩ := List.forall₂_cons_left_iff.mp hown'
  obtain ⟨a₂, _, ⟨hname', -⟩, hnil, rfl⟩ := List.forall₂_cons_left_iff.mp hown'
  obtain rfl := List.forall₂_nil_left_iff.mp hnil
  rw [hartifacts, hartifacts'] at hsources
  refine ⟨log, log', r, r', s, s', hrun, hrun', a, a₁, a₂, hartifacts, hartifacts', hname', ?_⟩
  exact hsources _ a _ a₂ List.mem_cons_self (List.mem_cons_of_mem _ List.mem_cons_self) rfl
    (hname'.trans hname.symm) ⟨rfl, fun _ _ _ _ => rfl⟩

/-- The picture that a document links to has a part in the source of its icon. -/
theorem sources_without_picture :
    ∃ log log' r r' s s', linkingRun (.ok pixel) ["a.svg"] = ((log, .ok r), s)
      ∧ linkingRun (.error .notFound) ["a.svg"] = ((log', .ok r'), s')
      ∧ (linkingFiles (.error .notFound)).bytes "a.svg" = (linkingFiles (.ok pixel)).bytes "a.svg"
      ∧ r'.root.entries = r.root.entries
      ∧ r'.artifacts.map (·.source.text) ≠ r.artifacts.map (·.source.text) := by
  have hone : Float.isFinite 1 = true ∧ (0 : Float) < 1 := by decide +kernel
  have hhundred : Float.isFinite 100 = true ∧ (0 : Float) < 100 := by decide +kernel
  have hdistinct : Workshop.distinct ["a.svg"] = ["a.svg"] := by decide +kernel
  have hfound := @outcome_linking (.ok pixel) "a.svg" _ hone (by decide +kernel) (by decide +kernel)
  have hlost := @outcome_linking (.error .notFound) "a.svg" _ hhundred (by decide +kernel)
    (by decide +kernel)
  have houtcomes : Outcome.icons (linkingOutcomes (.error .notFound) ["a.svg"])
        = Outcome.icons (linkingOutcomes (.ok pixel) ["a.svg"])
      ∧ (Outcome.artifacts (linkingOutcomes (.error .notFound) ["a.svg"])).map (·.source.text)
        ≠ (Outcome.artifacts (linkingOutcomes (.ok pixel) ["a.svg"])).map (·.source.text) := by
    rw [linkingOutcomes_eq, linkingOutcomes_eq, Workshop.listOutcomes, Workshop.listOutcomes, hdistinct,
      Workshop.outcomes_cons, Workshop.outcomes_cons, hfound, hlost]
    decide +kernel
  obtain ⟨log, r, s, hrun, hroot, hartifacts⟩ := exists_linkingRun (.ok pixel) ["a.svg"]
  obtain ⟨log', r', s', hrun', hroot', hartifacts'⟩ := exists_linkingRun (.error .notFound) ["a.svg"]
  refine ⟨log, log', r, r', s, s', hrun, hrun', rfl, ?_, ?_⟩
  · rw [hroot, hroot', houtcomes.1]
  · rw [hartifacts, hartifacts']
    exact houtcomes.2

end Iconsmith.Batch
