import Iconsmith.Proofs.Batch.Scratch

/-!
# What becomes of files

Every file of a run becomes one icon or one failure, which its own content, the group and the names
taken before decide. An `Outcome` records this, and what a run makes of a list of files is read off
the outcomes of the list.
-/

namespace Iconsmith.Batch

/-- The failure of a result, if it is one. -/
def errors {α : Type} : Except Failure α → List Failure
  | .ok _ => []
  | .error e => [e]

/-- What became of the file or the directory at a location. -/
structure Outcome where
  location : String
  result : Except Failure Artifact

namespace Outcome

/-- The icon of an outcome. -/
def artifact? (o : Outcome) : Option Artifact :=
  o.result.toOption

/-- The file and the symbol of an outcome that is an icon. -/
def icon? (o : Outcome) : Option (String × String) :=
  o.artifact?.map fun a => (o.location, a.name)

/-- The icons of a list of outcomes. -/
def artifacts (os : List Outcome) : List Artifact :=
  os.filterMap artifact?

/-- The icons of a list of outcomes, as file and symbol. -/
def icons (os : List Outcome) : List (String × String) :=
  os.filterMap icon?

/-- The failures of a list of outcomes. -/
def failures (os : List Outcome) : List Failure :=
  os.flatMap fun o => errors o.result

@[simp] lemma artifacts_nil : artifacts [] = [] := rfl

@[simp] lemma icons_nil : icons [] = [] := rfl

@[simp] lemma failures_nil : failures [] = [] := rfl

@[simp] lemma artifacts_cons (o : Outcome) (os : List Outcome) :
    artifacts (o :: os) = o.artifact?.toList ++ artifacts os := by
  cases h : o.artifact? <;> simp [artifacts, h]

@[simp] lemma icons_cons (o : Outcome) (os : List Outcome) :
    icons (o :: os) = o.icon?.toList ++ icons os := by
  cases h : o.icon? <;> simp [icons, h]

@[simp] lemma failures_cons (o : Outcome) (os : List Outcome) :
    failures (o :: os) = errors o.result ++ failures os := rfl

@[simp] lemma artifacts_append (os os' : List Outcome) :
    artifacts (os ++ os') = artifacts os ++ artifacts os' :=
  List.filterMap_append

@[simp] lemma icons_append (os os' : List Outcome) : icons (os ++ os') = icons os ++ icons os' :=
  List.filterMap_append

@[simp] lemma failures_append (os os' : List Outcome) :
    failures (os ++ os') = failures os ++ failures os' :=
  List.flatMap_append

lemma artifact?_eq_some {o : Outcome} {a : Artifact} : o.artifact? = some a ↔ o.result = .ok a := by
  obtain ⟨location, result⟩ := o
  cases result <;> simp [artifact?, Except.toOption]

lemma mem_failures {os : List Outcome} {e : Failure} :
    e ∈ failures os ↔ ∃ o ∈ os, o.result = .error e := by
  simp only [failures, List.mem_flatMap]
  refine exists_congr fun o => and_congr_right fun _ => ?_
  cases o.result <;> simp [errors, eq_comm]

lemma mem_icons {os : List Outcome} {icon : String × String} :
    icon ∈ icons os ↔ ∃ o ∈ os, ∃ a, o.result = .ok a ∧ (o.location, a.name) = icon := by
  simp only [icons, List.mem_filterMap, icon?, Option.map_eq_some_iff, artifact?_eq_some]

lemma map_snd_icons (os : List Outcome) : (icons os).map (·.2) = (artifacts os).map (·.name) := by
  induction os with
  | nil => rfl
  | cons o os ih => cases h : o.artifact? <;> simp [icon?, h, ih]

end Outcome

namespace Workshop

variable (w : Workshop)

/-! ### One file -/

/-- The text of the drawable that a file holds or is made into. -/
def drawable (file : String) : Except Failure String :=
  match w.options.inputFormat with
  | .drawable => (w.files.text file).mapError (Failure.filesystem file)
  | .svg => (w.normalize w.files file).drawable

/-- The graphic that a file holds, or why it holds none. -/
def graphic (file : String) : Except Failure (Graphic Float) := do
  let text ← w.drawable file
  (Drawable.read w.colors text).result.mapError (Failure.ofDrawable file)

/-- The identifier for the name of a file. -/
def identifierOf (file : String) : String :=
  w.backend.identifier ((Location.fileName? file).getD "")

/-- The icon of a graphic that was read from a file. -/
def artifactOf (group : Group) (file symbol : String) (source : Source.File) : Artifact where
  name := symbol
  group := group.qualifiedName
  source := source
  preview := if w.options.inputFormat = .svg then some file else none

/-- What a graphic becomes under a symbol. -/
def emission (group : Group) (file symbol : String) (g : Graphic Float) :
    Except Failure Artifact :=
  match w.backend.icon w.options.settings group symbol g with
  | .ok source => .ok (w.artifactOf group file symbol source)
  | .error e => .error (.emit file e.message)

/-- What becomes of a file, and the names taken afterwards. -/
def outcome (group : Group) (names : Naming.Allocator) (file : String) :
    Outcome × Naming.Allocator :=
  if !w.options.inputFormat.accepts file then
    (⟨file, .error (.inputFormat file ((Location.extension? file).getD ""))⟩, names)
  else
    match w.graphic file with
    | .error e => (⟨file, .error e⟩, names)
    | .ok g =>
      let (symbol, names) := names.allocate (w.identifierOf file)
      (⟨file, w.emission group file symbol g⟩, names)

/-- A production gives a result or fails with it, and makes no icons. -/
structure Makes {α : Type} (p : Production (Option α)) (r : Except Failure α) : Prop where
  value : p.value = r.toOption
  artifacts : p.artifacts = []
  failures : p.failures = errors r

lemma makes_accept {α : Type} (r : Except Failure α) : Makes (.accept r) r := by
  cases r <;> constructor <;> rfl

lemma ownText_makes (file : String) : Makes (w.ownText file) (w.drawable file) := by
  unfold ownText drawable
  cases w.options.inputFormat with
  | drawable => exact makes_accept _
  | svg =>
    obtain ⟨hvalue, hartifacts, hfailures⟩ := makes_accept (w.normalize w.files file).drawable
    constructor
    · exact hvalue
    · exact hartifacts
    · exact hfailures

lemma load_makes (file fileName identifier : String) :
    Makes (w.load file fileName identifier).alone (w.graphic file) := by
  obtain ⟨hvalue, hartifacts, hfailures⟩ := w.ownText_makes file
  rw [(w.load_gives file fileName identifier).alone]
  unfold parse graphic
  cases htext : w.drawable file with
  | error e =>
    rw [htext] at hvalue hfailures
    change (w.ownText file).value = none at hvalue
    constructor <;> simp [hvalue, hartifacts, hfailures] <;> rfl
  | ok text =>
    rw [htext] at hvalue hfailures
    change (w.ownText file).value = some text at hvalue
    cases hread : (Drawable.read w.colors text).result.mapError (Failure.ofDrawable file) with
    | error e =>
      constructor <;> simp [hvalue, hartifacts, hfailures, hread, bind, Except.bind] <;> rfl
    | ok g =>
      constructor <;> simp [hvalue, hartifacts, hfailures, hread, bind, Except.bind] <;> rfl

/-- A production turns a file into a result and leaves some names taken. -/
structure Settles (p : Production (Option String × Naming.Allocator))
    (r : Except Failure Artifact) (names : Naming.Allocator) : Prop where
  value : p.value = (r.toOption.map (·.name), names)
  artifacts : p.artifacts = r.toOption.toList
  failures : p.failures = errors r

lemma emit_settles (group : Group) (names : Naming.Allocator) (file identifier : String)
    (g : Graphic Float) : Settles (w.emit group names file identifier g)
      (w.emission group file (names.allocate identifier).1 g) (names.allocate identifier).2 := by
  unfold emit emission
  generalize names.allocate identifier = given
  obtain ⟨symbol, names⟩ := given
  dsimp only
  cases w.backend.icon w.options.settings group symbol g with
  | error e => constructor <;> rfl
  | ok source => constructor <;> rfl

section

variable {α : Type} {p : Production (Option α)}
  {k : Option α → Production (Option String × Naming.Allocator)} {names : Naming.Allocator}

lemma Makes.settles_error {e : Failure} (hp : Makes p (.error e))
    (hk : k none = pure (none, names)) : Settles (p >>= k) (.error e) names := by
  obtain ⟨hvalue, hartifacts, hfailures⟩ := hp
  change p.value = none at hvalue
  constructor
  · rw [Production.value_bind, hvalue, hk]
    rfl
  · rw [Production.artifacts_bind, hvalue, hk, hartifacts]
    rfl
  · rw [Production.failures_bind, hvalue, hk, hfailures]
    rfl

lemma Makes.settles_ok {x : α} {r : Except Failure Artifact} (hp : Makes p (.ok x))
    (hk : Settles (k (some x)) r names) : Settles (p >>= k) r names := by
  obtain ⟨hvalue, hartifacts, hfailures⟩ := hp
  change p.value = some x at hvalue
  constructor
  · rw [Production.value_bind, hvalue, hk.value]
  · rw [Production.artifacts_bind, hvalue, hk.artifacts, hartifacts, List.nil_append]
  · rw [Production.failures_bind, hvalue, hk.failures, hfailures]
    rfl

end

/-- What is made of a file is what its outcome says. -/
lemma icon_settles (group : Group) (names : Naming.Allocator) (file : String) :
    Settles (w.icon group names file).alone (w.outcome group names file).1.result
      (w.outcome group names file).2 := by
  rw [(w.icon_gives group names file).alone]
  unfold outcome
  by_cases haccepts : w.options.inputFormat.accepts file = true
  · simp only [haccepts, Bool.not_true, Bool.false_eq_true, if_false]
    have hload := w.load_makes file ((Location.fileName? file).getD "") (w.identifierOf file)
    cases hgraphic : w.graphic file with
    | error e =>
      rw [hgraphic] at hload
      exact hload.settles_error rfl
    | ok g =>
      rw [hgraphic] at hload
      exact hload.settles_ok (w.emit_settles group names file (w.identifierOf file) g)
  · simp only [haccepts]
    constructor <;> rfl

/-- The ways in which a file becomes a failure or an icon, with the names taken afterwards. -/
inductive Becomes (group : Group) (names : Naming.Allocator) (file : String) :
    Except Failure Artifact → Naming.Allocator → Prop
  | foreign (other : w.options.inputFormat.accepts file = false) :
      Becomes group names file
        (.error (.inputFormat file ((Location.extension? file).getD ""))) names
  | unreadable {e : Failure} (accepted : w.options.inputFormat.accepts file = true)
      (failed : w.graphic file = .error e) : Becomes group names file (.error e) names
  | inexpressible {g : Graphic Float} {e : Source.Error}
      (accepted : w.options.inputFormat.accepts file = true) (read : w.graphic file = .ok g)
      (failed : w.backend.icon w.options.settings group
        (names.allocate (w.identifierOf file)).1 g = .error e) :
      Becomes group names file (.error (.emit file e.message))
        (names.allocate (w.identifierOf file)).2
  | icon {g : Graphic Float} {source : Source.File}
      (accepted : w.options.inputFormat.accepts file = true) (read : w.graphic file = .ok g)
      (made : w.backend.icon w.options.settings group
        (names.allocate (w.identifierOf file)).1 g = .ok source) :
      Becomes group names file
        (.ok (w.artifactOf group file (names.allocate (w.identifierOf file)).1 source))
        (names.allocate (w.identifierOf file)).2

lemma outcome_becomes (group : Group) (names : Naming.Allocator) (file : String) :
    w.Becomes group names file (w.outcome group names file).1.result
      (w.outcome group names file).2 := by
  unfold outcome
  by_cases haccepts : w.options.inputFormat.accepts file = true
  · simp only [haccepts, Bool.not_true, Bool.false_eq_true, if_false]
    cases hgraphic : w.graphic file with
    | error e => exact .unreadable haccepts hgraphic
    | ok g =>
      dsimp only [emission]
      cases hicon : w.backend.icon w.options.settings group
        (names.allocate (w.identifierOf file)).1 g with
      | error e => exact .inexpressible haccepts hgraphic hicon
      | ok source => exact .icon haccepts hgraphic hicon
  · simp only [haccepts]
    exact .foreign (by simpa using haccepts)

/-- An outcome is about its file. -/
lemma location_outcome (group : Group) (names : Naming.Allocator) (file : String) :
    (w.outcome group names file).1.location = file := by
  unfold outcome
  split_ifs
  · rfl
  · cases w.graphic file <;> rfl

/-! ### Several files -/

/-- What becomes of a list of files, and the names taken afterwards. -/
def outcomes (group : Group) (names : Naming.Allocator) :
    List String → List Outcome × Naming.Allocator
  | [] => ([], names)
  | file :: files =>
    let (o, names) := w.outcome group names file
    let (os, names) := outcomes group names files
    (o :: os, names)

lemma outcomes_cons (group : Group) (names : Naming.Allocator) (file : String)
    (files : List String) :
    w.outcomes group names (file :: files)
      = ((w.outcome group names file).1
          :: (w.outcomes group (w.outcome group names file).2 files).1,
        (w.outcomes group (w.outcome group names file).2 files).2) :=
  rfl

/-- What is made of a list of files is what their outcomes say. -/
lemma icons_spec (group : Group) (names : Naming.Allocator) (files : List String) :
    (w.icons group names files).alone.value
        = (Outcome.icons (w.outcomes group names files).1, (w.outcomes group names files).2)
      ∧ (w.icons group names files).alone.artifacts
        = Outcome.artifacts (w.outcomes group names files).1
      ∧ (w.icons group names files).alone.failures
        = Outcome.failures (w.outcomes group names files).1 := by
  induction files generalizing names with
  | nil => exact ⟨rfl, rfl, rfl⟩
  | cons file files ih =>
    obtain ⟨hvalue, hartifacts, hfailures⟩ := w.icon_settles group names file
    obtain ⟨ihv, iha, ihf⟩ := ih (w.outcome group names file).2
    rw [w.alone_icons_cons]
    simp only [Production.value_bind, Production.artifacts_bind, Production.failures_bind, hvalue,
      hartifacts, hfailures, ihv, iha, ihf, outcomes]
    refine ⟨?_, ?_, ?_⟩
    · simp [Outcome.icon?, Outcome.artifact?, w.location_outcome, Function.comp_def]
    · simp [Outcome.artifact?]
    · simp

lemma map_location_outcomes (group : Group) (names : Naming.Allocator) (files : List String) :
    (w.outcomes group names files).1.map (·.location) = files := by
  induction files generalizing names with
  | nil => rfl
  | cons file files ih => simp [outcomes, w.location_outcome, ih]

/-- Every outcome of a list is that of one file, for the names taken when its turn comes. -/
lemma exists_becomes {group : Group} {names : Naming.Allocator} {files : List String}
    {o : Outcome} (h : o ∈ (w.outcomes group names files).1) :
    ∃ before after, w.Becomes group before o.location o.result after := by
  induction files generalizing names with
  | nil => simp [outcomes] at h
  | cons file files ih =>
    simp only [outcomes, List.mem_cons] at h
    rcases h with rfl | h
    · rw [w.location_outcome]
      exact ⟨_, _, w.outcome_becomes group names file⟩
    · exact ih h

end Workshop

end Iconsmith.Batch
