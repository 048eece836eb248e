import Iconsmith.Proofs.Batch.Reports
import Iconsmith.Proofs.Batch.Walks
import Iconsmith.Proofs.Drawable.RoundTrip
import Iconsmith.Proofs.Results
import Iconsmith.Svg.Linked

/-!
# Inputs of a run

Every file that a run considers becomes one icon or one failure that carries its location. In a
directory these are the visible files down to the bound on the levels, and in a list of files the
distinct locations of the list.
-/

namespace Iconsmith.Batch

/-! ### Distinct locations -/

lemma same_iff {a b : String} :
    Location.same a b = true ↔ Location.parts a = Location.parts b := by
  rw [Location.same, beq_iff_eq]

lemma distinct_sublist (locations : List String) :
    (Workshop.distinct locations).Sublist locations := by
  induction locations with
  | nil => exact .slnil
  | cons a rest ih => exact (List.filter_sublist.trans ih).cons_cons a

lemma pairwise_distinct (locations : List String) :
    (Workshop.distinct locations).Pairwise fun a b => Location.same a b = false := by
  induction locations with
  | nil => exact .nil
  | cons a rest ih =>
    refine List.pairwise_cons.mpr ⟨fun b hb => ?_, ih.filter _⟩
    simpa using (List.mem_filter.mp hb).2

lemma exists_same_distinct {locations : List String} {location : String}
    (h : location ∈ locations) :
    ∃ a ∈ Workshop.distinct locations, Location.same a location = true := by
  induction locations with
  | nil => simp at h
  | cons a rest ih =>
    cases hsame : Location.same a location with
    | true => exact ⟨a, List.mem_cons_self, hsame⟩
    | false =>
      have hrest : location ∈ rest := by
        rcases List.mem_cons.mp h with rfl | h
        · simp [Location.same] at hsame
        · exact h
      obtain ⟨b, hb, hbsame⟩ := ih hrest
      refine ⟨b, List.mem_cons_of_mem _ (List.mem_filter.mpr ⟨hb, ?_⟩), hbsame⟩
      rw [Bool.not_eq_true', Bool.eq_false_iff]
      intro hab
      rw [← Bool.not_eq_true, same_iff, same_iff.mp hab] at hsame
      exact hsame (same_iff.mp hbsame)

/-! ### Outcomes below a directory -/

section Enumerates

variable {v : FileView} {dir : String} {paths : List String → Prop} {os : List Outcome}

lemma Enumerates.exists_location_iff (h : Enumerates v dir paths os) {location : String} :
    (∃ o ∈ os, o.location = location) ↔ ∃ path, paths path ∧ location = Location.below dir path := by
  obtain ⟨ps, hps, -, hmem⟩ := h
  rw [← List.mem_map (f := Outcome.location), hps, List.mem_map]
  constructor
  · rintro ⟨path, hpath, rfl⟩
    exact ⟨path, (hmem path).mp hpath, rfl⟩
  · rintro ⟨path, hpath, rfl⟩
    exact ⟨path, (hmem path).mpr hpath, rfl⟩

/-- Two outcomes below a directory have the same location only if a directory is listed there. -/
lemma Enumerates.pairwise (h : Enumerates v dir paths os)
    (hnames : ∀ path, paths path → ∀ n ∈ path, Location.IsName n) :
    os.Pairwise fun o o' => Location.same o.location o'.location = true →
      o'.location = o.location ∧ v.IsListed o.location := by
  obtain ⟨ps, hps, hapart, hmem⟩ := h
  rw [← List.pairwise_map (R := fun a b => Location.same a b = true → b = a ∧ v.IsListed a), hps,
    List.pairwise_map]
  refine hapart.imp_of_mem fun {p q} hp hq hlisted hsame => ?_
  rw [same_iff, Location.parts_below dir (hnames p ((hmem p).mp hp)),
    Location.parts_below dir (hnames q ((hmem q).mp hq))] at hsame
  have hinj : Function.Injective LocationPart.named := fun a b h => LocationPart.named.inj h
  obtain rfl := hinj.list_map (List.append_cancel_left hsame)
  exact ⟨rfl, hlisted rfl⟩

end Enumerates

/-! ### Faithful outcomes -/

/-- What makes drawables says of every failure which file it is about. -/
def Blames (normalize : FileView → String → Normalized) (files : FileView) : Prop :=
  ∀ location e, (normalize files location).drawable = .error e → e.location? = some location

/-- Whatever reads the scenes, a failure to make a drawable of a file is about that file. -/
lemma blames_normalize (read : Svg.SceneReader) (files : FileView) :
    Blames read.normalize files := by
  intro location e h
  rcases Svg.SceneReader.normalize_eq_error h with ⟨fault, rfl⟩ | ⟨message, rfl⟩
  · rfl
  · rfl

/-- An icon is the one generated from the file. A failure carries its location or, for an SVG file, is
what the normalizer says about it. -/
structure Workshop.Faithful (w : Workshop) (o : Outcome) : Prop where
  icon : ∀ a, o.result = .ok a → ∃ group, w.Generated (group, o.location, a.name) a
  failure : ∀ e, o.result = .error e → e.location? = some o.location
    ∨ w.options.inputFormat = .svg ∧ (w.normalize w.files o.location).drawable = .error e

namespace Workshop

variable {w : Workshop}

/-- A failure carries the location of its file if the normalizer sees to that. -/
lemma Faithful.location? {o : Outcome} (h : w.Faithful o)
    (hnormalize : w.options.inputFormat = .svg → Blames w.normalize w.files) {e : Failure}
    (he : o.result = .error e) : e.location? = some o.location := by
  rcases h.failure e he with hlocation | ⟨hformat, hdrawable⟩
  · exact hlocation
  · exact hnormalize hformat o.location e hdrawable

lemma location?_ofDrawable (location : String) (e : Drawable.Error) :
    (Failure.ofDrawable location e).location? = some location := by
  cases e <;> rfl

/-- A file holds no graphic because it cannot be read, because it gives no drawable, or because of what
is in the drawable. -/
lemma graphic_eq_error {file : String} {e : Failure} (h : w.graphic file = .error e) :
    (∃ fault, e = .filesystem file fault)
      ∨ (w.options.inputFormat = .svg ∧ (w.normalize w.files file).drawable = .error e)
      ∨ ∃ fault, e = .ofDrawable file fault := by
  rcases bind_eq_error.mp h with h | ⟨text, -, h⟩
  · unfold drawable at h
    cases hformat : w.options.inputFormat with
    | drawable =>
      rw [hformat] at h
      obtain ⟨fault, -, rfl⟩ := mapError_eq_error.mp h
      exact Or.inl ⟨fault, rfl⟩
    | svg =>
      rw [hformat] at h
      exact Or.inr (Or.inl ⟨rfl, h⟩)
  · obtain ⟨fault, -, rfl⟩ := mapError_eq_error.mp h
    exact Or.inr (Or.inr ⟨fault, rfl⟩)

lemma Becomes.faithful {group : Group} {names after : Naming.Allocator} {o : Outcome}
    (h : w.Becomes group names o.location o.result after) : w.Faithful o where
  icon a ha := ⟨group, h.generated ha⟩
  failure e he := by
    generalize o.result = r at h he
    cases h with
    | foreign => cases he; exact Or.inl rfl
    | unreadable accepted failed =>
      cases he
      rcases graphic_eq_error failed with ⟨fault, rfl⟩ | hdrawable | ⟨fault, rfl⟩
      · exact Or.inl rfl
      · exact Or.inr hdrawable
      · exact Or.inl (location?_ofDrawable o.location fault)
    | inexpressible => cases he; exact Or.inl rfl
    | icon => cases he

lemma faithful_of_mem_outcomes {group : Group} {names : Naming.Allocator} {files : List String}
    {o : Outcome} (h : o ∈ (w.outcomes group names files).1) : w.Faithful o := by
  obtain ⟨before, after, hbecomes⟩ := w.exists_becomes h
  exact hbecomes.faithful

lemma Visits.faithful {n : Nat} {dir : String} {group : Group} {t : Tree} {os : List Outcome}
    (h : w.Visits n dir group t os) : ∀ o ∈ os, w.Faithful o := by
  refine h.forall_mem (fun o group before after _ hbecomes => hbecomes.faithful) fun dir fault _ => ?_
  refine ⟨by simp, ?_⟩
  rintro e ⟨⟩
  exact Or.inl rfl

end Workshop

/-! ### Scenes of files -/

/-- What a reader makes of the file at a location. -/
def sceneAt? (read : Svg.SceneReader) (files : FileView) (location : String) : Option Svg.Scene := do
  let text ← (files.text location).toOption
  (read files text).toOption

/-- A graphic of some size, in which nothing is drawn. -/
def blank (size : Float) : Graphic Float :=
  Svg.Scene.graphic ⟨⟨size, size⟩, []⟩

lemma spelled_blank {size : Float} (hsize : size.isFinite = true ∧ 0 < size) :
    (blank size).Spelled where
  finite := by
    change ∀ x ∈ [size, size, size, size], x.isFinite = true
    simp [hsize]
  viewport := ⟨hsize.2, hsize.2⟩
  nodes := trivial

namespace Workshop

variable {w : Workshop} {read : Svg.SceneReader}

/-- A file in which nothing is drawn holds a graphic of its size. -/
lemma graphic_of_blank (hformat : w.options.inputFormat = .svg)
    (hnormalize : w.normalize = read.normalize) {file : String} {size : Float}
    (hsize : size.isFinite = true ∧ 0 < size)
    (hscene : (sceneAt? read w.files file).map
      (fun s => (s.size.x, s.size.y, s.graphic.nodes.length)) = some (size, size, 0)) :
    w.graphic file = .ok ((blank size).map Double.unsigned) := by
  obtain ⟨s, hs, heq⟩ := Option.map_eq_some_iff.mp hscene
  obtain ⟨text, htext, hread⟩ := Option.bind_eq_some_iff.mp hs
  rw [toOption_eq_some] at htext hread
  obtain ⟨hx, hy, hnodes⟩ : s.size.x = size ∧ s.size.y = size ∧ s.graphic.nodes.length = 0 := by
    simpa using heq
  have hgraphic : s.graphic = blank size := by
    rw [blank, Svg.Scene.graphic, Svg.Scene.graphic, Graphic.mk.injEq, hx, hy]
    exact ⟨rfl, rfl, Point.ext hx hy, List.length_eq_zero_iff.mp hnodes⟩
  have hdrawable : w.drawable file = .ok (Drawable.write (blank size)) := by
    rw [drawable, hformat, hnormalize]
    simp only [Svg.SceneReader.normalize, htext, hread, hgraphic]
  rw [graphic, hdrawable, ok_bind, Drawable.read_write_of_spelled (spelled_blank hsize)]
  rfl

/-- What becomes of a file that holds a graphic. -/
lemma outcome_of_graphic {file : String} {g : Graphic Float}
    (haccepts : w.options.inputFormat.accepts file = true) (hgraphic : w.graphic file = .ok g)
    (group : Group) (names : Naming.Allocator) :
    w.outcome group names file
      = (⟨file, w.emission group file (names.allocate (w.identifierOf file)).1 g⟩,
        (names.allocate (w.identifierOf file)).2) := by
  simp [outcome, haccepts, hgraphic]

end Workshop

/-! ### Runs -/

/-- The outcomes are about the files that a run considers. -/
def Covers (files : FileView) (os : List Outcome) : Input → Prop
  | .directory root => ∀ location, (∃ o ∈ os, o.location = location)
      ↔ ∃ path, files.Reaches Workshop.maxDepth root path ∧ location = Location.below root path
  | .files locations => (os.map (·.location)).Sublist locations
      ∧ ∀ location ∈ locations, ∃ o ∈ os, Location.same o.location location = true

/-- The outcomes are about what a run meets, also where directories cannot be listed. -/
def Concerns (files : FileView) (os : List Outcome) : Input → Prop
  | .directory root => ∀ location, (∃ o ∈ os, o.location = location)
      ↔ ∃ path, files.Meets Workshop.maxDepth root path ∧ location = Location.below root path
  | .files locations => Covers files os (.files locations)

/-- Two outcomes are about different locations, or both are about entries that were left out while one
directory below the input was listed. -/
def Outcome.Separate (files : FileView) (input : Input) (o o' : Outcome) : Prop :=
  Location.same o.location o'.location = false
    ∨ ∃ root dir, input = .directory root ∧ files.IsListed dir
      ∧ ∃ fault ∈ files.lost dir, ∃ fault' ∈ files.lost dir,
        o = ⟨dir, .error (.filesystem dir fault)⟩ ∧ o' = ⟨dir, .error (.filesystem dir fault')⟩

/-- Where no entry is left out, outcomes that are separate are about different locations. -/
lemma Outcome.Separate.same_eq_false {files : FileView} {input : Input} {o o' : Outcome}
    (h : o.Separate files input o') (hfiles : ∀ root, input = .directory root → files.Listable) :
    Location.same o.location o'.location = false := by
  rcases h with h | ⟨root, dir, hinput, hlisted, fault, hfault, -⟩
  · exact h
  · rw [← hlisted.faults, hfiles root hinput dir hlisted.1] at hfault
    exact absurd hfault List.not_mem_nil

lemma prepare_of_ok {options : Options} {files : FileView}
    (normalize : FileView → String → Normalized) {input : Input}
    {colors : Color.Table × List String} (hvalid : options.validate = .ok ())
    (hinput : checkInput files input = .ok ()) (hscratch : files.scratch = .ok ())
    (hcolors : loadColors files options.colorResources = .ok colors) :
    prepare options files normalize input
      = .ok (⟨options, files, colors.1, normalize⟩, colors.2.map (⟨.debug, .resources, ·⟩)) := by
  unfold prepare checkScratch
  rw [hvalid, hinput, hscratch, hcolors]
  rfl

/-- A directory that is accepted as an input is one. -/
lemma isDirectory_of_checkInput {files : FileView} {root : String}
    (h : checkInput files (.directory root) = .ok ()) : files.isDirectory root = true := by
  by_contra hroot
  simp [checkInput, hroot] at h

lemma run_none {m : Type → Type} [Monad m] [LawfulMonad m]
    (write : String → String → m (Except Failure Unit))
    {normalize : FileView → String → Normalized} {files : FileView} {options : Options}
    {input : Input} {w : Workshop} {notices : List Log.Record}
    (hprepare : prepare options files normalize input = .ok (w, notices)) :
    ∃ log, run write normalize files options none input = pure (log, .ok
      { artifacts := (w.generate input).artifacts
        failures := (w.generate input).failures
        root := (w.generate input).value
        written := [] }) := by
  unfold run
  rw [hprepare]
  simp only [report, pure_bind, Production.artifacts_bind, Production.artifacts_pure,
    Production.failures_bind, Production.failures_pure, Production.value_bind,
    Production.value_pure, List.append_nil]
  exact ⟨_, rfl⟩

namespace Workshop

variable {w : Workshop}

/-- The outcomes of a list of files are about its distinct locations. -/
lemma listOutcomes_covers (locations : List String) :
    Covers w.files (w.listOutcomes locations) (.files locations)
      ∧ (w.listOutcomes locations).Pairwise fun o o' =>
        Location.same o.location o'.location = false := by
  have hlocations : (w.listOutcomes locations).map (·.location) = distinct locations :=
    w.map_location_outcomes ..
  refine ⟨⟨?_, fun location hlocation => ?_⟩, ?_⟩
  · rw [hlocations]
    exact distinct_sublist locations
  · obtain ⟨a, ha, hsame⟩ := exists_same_distinct hlocation
    rw [← hlocations] at ha
    obtain ⟨o, ho, rfl⟩ := List.mem_map.mp ha
    exact ⟨o, ho, hsame⟩
  · rw [← List.pairwise_map (R := fun a b => Location.same a b = false), hlocations]
    exact pairwise_distinct locations

/-- What has an outcome at the location of a directory went wrong while it was listed. -/
lemma Visits.faulty {n : Nat} {dir : String} {group : Group} {t : Tree} {os : List Outcome}
    (h : w.Visits n dir group t os) : ∀ o ∈ os, w.files.isDirectory o.location = true →
      ∃ fault ∈ w.files.faults o.location, o.result = .error (.filesystem o.location fault) := by
  refine h.forall_mem ?_ ?_
  · intro o group before after hisFile _ hdirectory
    exact absurd (hisFile.symm.trans hdirectory) (by decide)
  · intro dir fault hfault _
    exact ⟨fault, hfault, rfl⟩

/-- The outcomes of a visit are about different locations, but for entries that are left out. -/
lemma Visits.separate (hfiles : w.files.Lawful) {n : Nat} {dir : String}
    (hdir : w.files.isDirectory dir = true) {group : Group} {t : Tree} {os : List Outcome}
    (h : w.Visits n dir group t os) :
    os.Pairwise (Outcome.Separate w.files (.directory dir)) := by
  have hpairwise := (h.meets hfiles hdir).pairwise fun _ hpath => hpath.isName hfiles
  refine hpairwise.imp_of_mem fun {o o'} ho ho' hlisted => ?_
  cases hsame : Location.same o.location o'.location with
  | false => exact Or.inl hsame
  | true =>
    obtain ⟨hlocation, hlisted⟩ := hlisted hsame
    obtain ⟨fault, hfault, hresult⟩ := h.faulty o ho hlisted.1
    obtain ⟨fault', hfault', hresult'⟩ := h.faulty o' ho' (hlocation ▸ hlisted.1)
    rw [hlocation] at hfault' hresult'
    rw [hlisted.faults] at hfault hfault'
    refine Or.inr ⟨dir, o.location, rfl, hlisted, fault, hfault, fault', hfault', ?_, ?_⟩
    · rw [← hresult]
    · rw [← hresult', ← hlocation]

/-- What is known of the outcomes of an input. -/
structure Considers (w : Workshop) (input : Input) (os : List Outcome) : Prop where
  explained : (w.generate input).Explained os
  traced : w.Traced (w.generate input).value.entries os
  concerns : Concerns w.files os input
  pairwise : os.Pairwise (Outcome.Separate w.files input)
  faithful : ∀ o ∈ os, w.Faithful o

lemma exists_considers {input : Input} (hinput : checkInput w.files input = .ok ())
    (hfiles : ∀ root, input = .directory root → w.files.Lawful) : ∃ os, w.Considers input os := by
  cases input with
  | directory root =>
    have hlawful := hfiles root rfl
    have hroot := isDirectory_of_checkInput hinput
    obtain ⟨os, hvisits, hos⟩ := w.generate_directory root
    have hmeets := hvisits.meets hlawful hroot
    exact ⟨os, hos, hvisits.traced, fun _ => hmeets.exists_location_iff,
      hvisits.separate hlawful hroot, hvisits.faithful⟩
  | files locations =>
    obtain ⟨hvalue, hos⟩ := w.generate_files locations
    obtain ⟨hcovers, hpairwise⟩ := w.listOutcomes_covers locations
    refine ⟨_, hos, ?_, hcovers, hpairwise.imp Or.inl, fun o => faithful_of_mem_outcomes⟩
    rw [hvalue]
    exact w.leaf_traced w.options.rootGroup (distinct locations)

/-- Where all directories are listed, the outcomes of an input are those of the files that a run
considers, one for each. -/
lemma Considers.covers {input : Input} {os : List Outcome} (h : w.Considers input os)
    (hinput : checkInput w.files input = .ok ())
    (hfiles : ∀ root, input = .directory root → w.files.Listable) : Covers w.files os input := by
  cases input with
  | directory root =>
    intro location
    rw [h.concerns location]
    refine exists_congr fun path => and_congr_left fun _ => ?_
    exact FileView.meets_iff_reaches (hfiles root rfl) (isDirectory_of_checkInput hinput)
  | files locations => exact h.concerns

end Workshop

/-- A run without a directory for output gives a report whose icons and failures are those of one
list of outcomes, with one outcome for each file that the run considers, and each failure carries the
location of its file. -/
theorem inputs_conserved {m : Type → Type} [Monad m] [LawfulMonad m]
    (write : String → String → m (Except Failure Unit))
    (normalize : FileView → String → Normalized) (files : FileView) (options : Options)
    (input : Input) (colors : Color.Table × List String)
    (hvalid : options.validate = .ok ()) (hinput : checkInput files input = .ok ())
    (hscratch : files.scratch = .ok ())
    (hcolors : loadColors files options.colorResources = .ok colors)
    (hfiles : ∀ root, input = .directory root → files.Lawful ∧ files.Listable)
    (hnormalize : options.inputFormat = .svg → Blames normalize files) :
    ∃ log r os, run write normalize files options none input = pure (log, .ok r)
      ∧ r.artifacts = Outcome.artifacts os ∧ r.failures = Outcome.failures os
      ∧ r.root.entries.map (·.2) = Outcome.icons os
      ∧ os.Pairwise (fun o o' => Location.same o.location o'.location = false)
      ∧ Covers files os input
      ∧ (∀ o ∈ os, Workshop.Faithful ⟨options, files, colors.1, normalize⟩ o)
      ∧ ∀ o ∈ os, ∀ e, o.result = .error e → e.location? = some o.location := by
  have hprepare := prepare_of_ok normalize hvalid hinput hscratch hcolors
  obtain ⟨log, hrun⟩ := run_none write hprepare
  obtain ⟨os, hos⟩ := Workshop.exists_considers
    (w := ⟨options, files, colors.1, normalize⟩) hinput fun root hroot => (hfiles root hroot).1
  have hlistable : ∀ root, input = .directory root → files.Listable :=
    fun root hroot => (hfiles root hroot).2
  exact ⟨log, _, os, hrun, hos.explained.artifacts, hos.explained.failures, hos.traced.icons,
    hos.pairwise.imp fun h => h.same_eq_false hlistable, hos.covers hinput hlistable, hos.faithful,
    fun o ho _ => (hos.faithful o ho).location? hnormalize⟩

/-! ### A directory -/

/-- A directory with a document, a file of another format and a directory, in which there are a hidden
file and one that cannot be read. -/
def sampleTree : FileView where
  isDirectory location := location = "in" || location = "in/b"
  entries location :=
    if location = "in" then .ok ["a.svg", "b", "d.txt"]
    else if location = "in/b" then .ok [".c.svg", "e.svg"]
    else .error .notDirectory
  bytes location :=
    if location = "in/a.svg" then
      .ok "<svg xmlns='http://www.w3.org/2000/svg' width='1' height='1'/>".toUTF8
    else .error .notFound

lemma sampleTree_entries {dir : String} {names : List String}
    (h : sampleTree.entries dir = .ok names) :
    names = ["a.svg", "b", "d.txt"] ∨ names = [".c.svg", "e.svg"] := by
  simp only [sampleTree] at h
  split_ifs at h <;> cases h <;> simp

lemma sampleTree_lawful : sampleTree.Lawful where
  nodup h := by rcases sampleTree_entries h with rfl | rfl <;> decide
  isName h := by
    rcases sampleTree_entries h with rfl | rfl <;> intro n hn <;>
      simp only [List.mem_cons, List.not_mem_nil, or_false] at hn
    · rcases hn with rfl | rfl | rfl <;> constructor <;> decide
    · rcases hn with rfl | rfl <;> constructor <;> decide

lemma sampleTree_listable : sampleTree.Listable := by
  intro dir hdir
  simp only [sampleTree, Bool.or_eq_true, decide_eq_true_eq] at hdir
  rcases hdir with rfl | rfl
  · rfl
  · rfl

lemma reaches_foreign : sampleTree.Reaches Workshop.maxDepth "in" ["d.txt"] where
  leads := .inside rfl (by simp)
  visible := by decide +kernel
  length_le := by decide
  isFile := by decide +kernel

lemma reaches_inner : sampleTree.Reaches Workshop.maxDepth "in" ["b", "e.svg"] where
  leads := by
    have hjoin : Location.join "in" "b" = "in/b" := by decide +kernel
    refine .step rfl (by simp) (by decide +kernel) ?_
    rw [hjoin]
    exact .inside rfl (by simp)
  visible := by decide +kernel
  length_le := by decide
  isFile := by decide +kernel

/-- Writes nothing and reports no failure. -/
def writeNothing {m : Type → Type} [Monad m] (_ _ : String) : m (Except Failure Unit) :=
  pure (.ok ())

/-- The workshop of a run over the directory. -/
def sampleShop : Workshop :=
  ⟨{}, sampleTree, .empty, Svg.normalize⟩

lemma icons_sampleShop :
    (sampleShop.generate (.directory "in")).value.entries.map (·.2) = [("in/a.svg", "A")] := by
  have hsize : Float.isFinite 1 = true ∧ (0 : Float) < 1 := by decide +kernel
  have hgraphic : sampleShop.graphic "in/a.svg" = .ok ((blank 1).map Double.unsigned) :=
    Workshop.graphic_of_blank rfl rfl hsize (by decide +kernel)
  have hfirst := Workshop.outcome_of_graphic (by decide +kernel) hgraphic
  have hfiles : (["a.svg", "b", "d.txt"].map (Location.join "in")).filter
      (!sampleShop.files.isDirectory ·) = ["in/a.svg", "in/d.txt"] := by decide +kernel
  rw [sampleShop.value_generate_of_pairwise rfl rfl (by decide +kernel) (by decide +kernel) hfiles,
    Workshop.outcomes_cons, hfirst]
  decide +kernel

/-- The document becomes an icon. The other files that can be seen fail, each under its location. -/
theorem outcomes_of_directory :
    ∃ log r os, run (m := Id) writeNothing Svg.normalize sampleTree {} none (.directory "in")
        = pure (log, .ok r)
      ∧ r.artifacts = Outcome.artifacts os ∧ r.failures = Outcome.failures os
      ∧ Outcome.icons os = [("in/a.svg", "A")]
      ∧ (∃ o ∈ os, o.location = "in/d.txt")
      ∧ ∃ o ∈ os, o.location = "in/b/e.svg"
        ∧ ∃ e, o.result = .error e ∧ e.location? = some "in/b/e.svg" := by
  obtain ⟨log, r, os, hrun, hartifacts, hfailures, hentries, -, hcovers, -, hlocated⟩ :=
    inputs_conserved (m := Id) writeNothing Svg.normalize sampleTree {} (.directory "in")
      (.empty, []) rfl rfl rfl rfl (fun _ _ => ⟨sampleTree_lawful, sampleTree_listable⟩)
      fun _ => blames_normalize Svg.Scene.reader sampleTree
  have hroot : r.root = (sampleShop.generate (.directory "in")).value := by
    have hprepare := @prepare_of_ok {} sampleTree Svg.normalize (.directory "in") (.empty, [])
      rfl rfl rfl rfl
    obtain ⟨log', hrun'⟩ := run_none (m := Id) writeNothing hprepare
    cases hrun.symm.trans hrun'
    rfl
  have hicons : Outcome.icons os = [("in/a.svg", "A")] := by
    rw [← hentries, hroot, icons_sampleShop]
  have hforeign : ∃ o ∈ os, o.location = "in/d.txt" :=
    (hcovers _).mpr ⟨_, reaches_foreign, by decide +kernel⟩
  obtain ⟨o, ho, hlocation⟩ : ∃ o ∈ os, o.location = "in/b/e.svg" :=
    (hcovers _).mpr ⟨_, reaches_inner, by decide +kernel⟩
  refine ⟨log, r, os, hrun, hartifacts, hfailures, hicons, hforeign, o, ho, hlocation, ?_⟩
  cases hresult : o.result with
  | error e => exact ⟨e, rfl, hlocation ▸ hlocated o ho e hresult⟩
  | ok a =>
    have hicon := Outcome.mem_icons.mpr ⟨o, ho, a, hresult, rfl⟩
    rw [hicons, hlocation] at hicon
    simp at hicon

end Iconsmith.Batch
