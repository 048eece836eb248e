import Iconsmith.Proofs.Batch.Conservation
import Iconsmith.Proofs.Naming.Identifiers
import Iconsmith.Proofs.Naming.Requests
import Iconsmith.Proofs.Source.Acceptance

/-!
# Files that fail

A file that fails changes nothing about what becomes of the other files of a list, apart from one
thing. When its graphic was read and no source can express it, the symbol meant for it stays taken, and
another file that asks for that symbol gets the next one.
-/

namespace Iconsmith.Batch

/-! ### Outcomes under other names -/

namespace Outcome

/-- Two outcomes of a file differ at most in the icon. -/
structure Alike (o o' : Outcome) : Prop where
  location : o.location = o'.location
  result : o.result.map (fun _ => ()) = o'.result.map (fun _ => ())

variable {o o' : Outcome} {os os' : List Outcome}

lemma Alike.icon? (h : o.Alike o') : o.icon?.map (·.1) = o'.icon?.map (·.1) := by
  obtain ⟨location, result⟩ := o
  obtain ⟨location', result'⟩ := o'
  obtain ⟨rfl, hresult⟩ := h
  revert hresult
  cases result <;> cases result' <;>
    simp [Outcome.icon?, Outcome.artifact?, Except.map, Except.toOption]

lemma icons_of_alike (h : List.Forall₂ Alike os os') :
    (icons os).map (·.1) = (icons os').map (·.1) := by
  induction h with
  | nil => rfl
  | cons hfirst _ ih =>
    simp only [icons_cons, List.map_append, ← Option.toList_map, hfirst.icon?, ih]

end Outcome

namespace Workshop

variable (w : Workshop)

lemma isIdentifier_identifierOf (file : String) :
    Naming.isIdentifier (w.identifierOf file) = true :=
  Naming.isIdentifier_identifier w.backend.reserved ((Location.fileName? file).getD "")

lemma isIdentifier_allocate (names : Naming.Allocator) (file : String) :
    Naming.isIdentifier (names.allocate (w.identifierOf file)).1 = true :=
  (names.allocate_answers (w.identifierOf file)).isIdentifier (w.isIdentifier_identifierOf file)

/-- Whether a graphic has a source depends neither on its group nor on the names that are taken. -/
lemma emission_alike (group group' : Group) (names names' : Naming.Allocator) (file : String)
    (g : Graphic Float) :
    (w.emission group file (names.allocate (w.identifierOf file)).1 g).map (fun _ => ()) =
      (w.emission group' file (names'.allocate (w.identifierOf file)).1 g).map (fun _ => ()) := by
  have hicon := w.backend.icon_of_isIdentifier w.options.settings group
    (w.isIdentifier_allocate names file) g
  rw [← w.backend.icon_of_isIdentifier w.options.settings group'
    (w.isIdentifier_allocate names' file) g] at hicon
  revert hicon
  unfold emission
  cases w.backend.icon w.options.settings group (names.allocate (w.identifierOf file)).1 g <;>
    cases w.backend.icon w.options.settings group' (names'.allocate (w.identifierOf file)).1 g <;>
    simp +contextual [Except.map]

/-- Neither its group nor the names that are taken decide whether a file becomes an icon, or why it
does not. -/
lemma outcome_alike (group group' : Group) (names names' : Naming.Allocator) (file : String) :
    (w.outcome group names file).1.Alike (w.outcome group' names' file).1 := by
  refine ⟨by rw [w.location_outcome, w.location_outcome], ?_⟩
  unfold outcome
  by_cases haccepts : w.options.inputFormat.accepts file = true
  · simp only [haccepts, Bool.not_true, Bool.false_eq_true, if_false]
    cases w.graphic file with
    | error e => rfl
    | ok g => exact w.emission_alike group group' names names' file g
  · simp only [haccepts]
    rfl

lemma outcomes_alike (group group' : Group) (names names' : Naming.Allocator)
    (files : List String) : List.Forall₂ Outcome.Alike (w.outcomes group names files).1
      (w.outcomes group' names' files).1 := by
  induction files generalizing names names' with
  | nil => exact .nil
  | cons file files ih => exact .cons (w.outcome_alike group group' names names' file) (ih _ _)

lemma outcomes_append (group : Group) (names : Naming.Allocator) (xs ys : List String) :
    w.outcomes group names (xs ++ ys) =
      ((w.outcomes group names xs).1 ++ (w.outcomes group (w.outcomes group names xs).2 ys).1,
        (w.outcomes group (w.outcomes group names xs).2 ys).2) := by
  induction xs generalizing names with
  | nil => rfl
  | cons x xs ih => simp [outcomes, ih]

/-- A name that no file of a list gets can be set aside without any change. -/
lemma outcomes_of_adds (group : Group) {names names' : Naming.Allocator} {extra : String}
    (h : names.Adds names' extra) {files : List String}
    (hextra : extra ∉ (w.outcomes group names files).2.taken) :
    (w.outcomes group names' files).1 = (w.outcomes group names files).1 := by
  induction files generalizing names names' with
  | nil => rfl
  | cons file files ih =>
    have hkept := (w.outcomes_names group (w.outcome group names file).2 files).1
    have hstep : (w.outcome group names' file).1 = (w.outcome group names file).1
        ∧ (w.outcome group names file).2.Adds (w.outcome group names' file).2 extra := by
      have hne : extra ∉ (w.outcome group names file).2.taken := fun hmem => hextra (hkept hmem)
      revert hne
      unfold outcome
      by_cases haccepts : w.options.inputFormat.accepts file = true
      · simp only [haccepts, Bool.not_true, Bool.false_eq_true, if_false]
        cases w.graphic file with
        | error e => exact fun _ => ⟨rfl, h⟩
        | ok g =>
          intro hne
          have hsymbol : (names.allocate (w.identifierOf file)).1 ≠ extra := by
            rintro rfl
            exact hne List.mem_cons_self
          dsimp only
          rw [h.allocate_eq hsymbol]
          exact ⟨rfl, h.allocate_adds hsymbol⟩
      · simp only [haccepts]
        exact fun _ => ⟨rfl, h⟩
    simp only [outcomes, hstep.1, ih hstep.2 hextra]

/-! ### Lists without a file -/

/-- The locations of a list that do not name a given file. -/
def without (file : String) (locations : List String) : List String :=
  locations.filter (!Location.same file ·)

lemma same_congr {a b : String} (h : Location.same a b = true) (c : String) :
    Location.same a c = Location.same b c := by
  rw [Location.same, Location.same, same_iff.mp h]

lemma distinct_without (file : String) (locations : List String) :
    distinct (without file locations) = without file (distinct locations) := by
  induction locations with
  | nil => rfl
  | cons a rest ih =>
    unfold without at *
    cases hsame : Location.same file a with
    | true =>
      have hcongr : (fun b => !Location.same a b) = fun b => !Location.same file b :=
        funext fun b => by rw [same_congr hsame b]
      rw [List.filter_cons_of_neg (by simp [hsame]), ih, distinct,
        List.filter_cons_of_neg (by simp [hsame]), hcongr, List.filter_filter]
      simp
    | false => simp [distinct, hsame, ih, Bool.and_comm]

/-- A file of a list has one place among the distinct locations. -/
lemma distinct_split {locations before after : List String} {location : String}
    (h : distinct locations = before ++ location :: after) :
    distinct (without location locations) = before ++ after
      ∧ (distinct locations).takeWhile (!Location.same location ·) = before := by
  have hpairwise := pairwise_distinct locations
  rw [h, List.pairwise_append, List.pairwise_cons] at hpairwise
  obtain ⟨-, ⟨hafter, -⟩, hbefore⟩ := hpairwise
  have hself : Location.same location location = true := same_iff.mpr rfl
  have hkept : ∀ a ∈ before, (!Location.same location a) = true := by
    intro a ha
    have hne := hbefore a ha location List.mem_cons_self
    rw [← Bool.not_eq_true, same_iff] at hne
    rw [Bool.not_eq_true', ← Bool.not_eq_true, same_iff]
    exact fun heq => hne heq.symm
  constructor
  · rw [distinct_without, h, without, List.filter_append, List.filter_cons,
      List.filter_eq_self.mpr hkept, List.filter_eq_self.mpr fun a ha => by simp [hafter a ha]]
    simp [hself]
  · rw [h, List.takeWhile_append_of_pos hkept, List.takeWhile_cons]
    simp [hself]

/-! ### Failures in lists -/

/-- A file of a list fails. -/
def FailsWith (locations : List String) (file : String) (e : Failure) : Prop :=
  ∃ o ∈ w.listOutcomes locations, Location.same o.location file = true ∧ o.result = .error e

/-- The names that are taken after all files of a list. -/
def listNames (locations : List String) : Naming.Allocator :=
  (w.outcomes w.options.rootGroup (ownNames w.options.rootGroup) (distinct locations)).2

/-- The symbol that is meant for a file of a list when its turn comes. -/
def listSymbol (locations : List String) (file : String) : String :=
  ((w.outcomes w.options.rootGroup (ownNames w.options.rootGroup)
    ((distinct locations).takeWhile (!Location.same file ·))).2.allocate (w.identifierOf file)).1

/-- Every outcome of a list is that of one file when its turn comes. -/
lemma exists_turn {group : Group} {names : Naming.Allocator} {files : List String} {o : Outcome}
    (h : o ∈ (w.outcomes group names files).1) :
    ∃ before after, files = before ++ o.location :: after
      ∧ (w.outcome group (w.outcomes group names before).2 o.location).1 = o := by
  induction files generalizing names with
  | nil => simp [outcomes] at h
  | cons file files ih =>
    simp only [outcomes, List.mem_cons] at h
    rcases h with rfl | h
    · refine ⟨[], files, ?_, ?_⟩
      · rw [w.location_outcome, List.nil_append]
      · rw [w.location_outcome]
        rfl
    · obtain ⟨before, after, hsplit, hturn⟩ := ih h
      exact ⟨file :: before, after, by rw [hsplit, List.cons_append], hturn⟩

/-- A file that fails leaves the names as they are, or one of them taken if it cannot be expressed. -/
lemma outcome_error {group : Group} {names : Naming.Allocator} {file : String} {e : Failure}
    (h : (w.outcome group names file).1.result = .error e) :
    (w.outcome group names file).2 = names
      ∨ (∃ message, e = .emit file message)
        ∧ (w.outcome group names file).2 = (names.allocate (w.identifierOf file)).2 := by
  have hbecomes := w.outcome_becomes group names file
  rw [h] at hbecomes
  generalize (w.outcome group names file).2 = names' at hbecomes
  cases hbecomes with
  | foreign => exact Or.inl rfl
  | unreadable => exact Or.inl rfl
  | inexpressible => exact Or.inr ⟨⟨_, rfl⟩, rfl⟩

/-- A file leaves the names as they are, or the symbol meant for it taken. -/
lemma names_outcome (group : Group) (names : Naming.Allocator) (file : String) :
    (w.outcome group names file).2 = names
      ∨ (w.outcome group names file).2 = (names.allocate (w.identifierOf file)).2 := by
  have hbecomes := w.outcome_becomes group names file
  generalize (w.outcome group names file).1.result = result at hbecomes
  generalize (w.outcome group names file).2 = names' at hbecomes
  cases hbecomes with
  | foreign => exact Or.inl rfl
  | unreadable => exact Or.inl rfl
  | inexpressible => exact Or.inr rfl
  | icon => exact Or.inr rfl

lemma outcomes_singleton (group : Group) (names : Naming.Allocator) (file : String) :
    (w.outcomes group names [file]).2 = (w.outcome group names file).2 := rfl

/-- A list whose first file fails has a file that fails. -/
lemma failsWith_cons {file : String} {e : Failure}
    (h : (w.outcome w.options.rootGroup (ownNames w.options.rootGroup) file).1.result = .error e)
    (locations : List String) : w.FailsWith (file :: locations) file e := by
  refine ⟨(w.outcome w.options.rootGroup (ownNames w.options.rootGroup) file).1, ?_, ?_, h⟩
  · rw [listOutcomes, distinct, outcomes]
    exact List.mem_cons_self
  · rw [location_outcome]
    exact same_iff.mpr rfl

/-- What the outcomes of a list are without one of them. -/
structure Removes (locations : List String) (o : Outcome) (os os' : List Outcome) : Prop where
  outcomes : w.listOutcomes locations = os ++ o :: os'
  alike : List.Forall₂ Outcome.Alike (os ++ os') (w.listOutcomes (without o.location locations))
  same : ∀ e, o.result = .error e →
    (∀ message, e ≠ .emit o.location message)
      ∨ w.listSymbol locations o.location
        ∉ (w.listNames (without o.location locations)).taken →
    w.listOutcomes (without o.location locations) = os ++ os'

/-- The files of a list come to the same end without one of them. If that one fails and its symbol is
not asked for, then they do so under the same symbols. -/
lemma exists_removes {locations : List String} {o : Outcome} (ho : o ∈ w.listOutcomes locations) :
    ∃ os os', w.Removes locations o os os' := by
  obtain ⟨before, after, hsplit, hturn⟩ := w.exists_turn ho
  obtain ⟨hwithout, hbefore⟩ := distinct_split hsplit
  let group := w.options.rootGroup
  let names := (w.outcomes group (ownNames group) before).2
  let names' := (w.outcome group names o.location).2
  have hrest : w.listOutcomes (without o.location locations) =
      (w.outcomes group (ownNames group) before).1 ++ (w.outcomes group names after).1 := by
    rw [listOutcomes, hwithout, outcomes_append]
  refine ⟨(w.outcomes group (ownNames group) before).1, (w.outcomes group names' after).1, ?_, ?_, ?_⟩
  · rw [listOutcomes, hsplit, outcomes_append]
    simp only [outcomes]
    rw [hturn]
  · rw [hrest]
    exact List.rel_append (w.outcomes_alike group group _ _ before)
      (w.outcomes_alike group group _ _ after)
  · intro e he hcondition
    rw [hrest]
    rw [← hturn] at he
    rcases w.outcome_error he with hnames | ⟨⟨message, rfl⟩, hnames⟩
    · rw [show names' = names from hnames]
    · have hsymbol := hcondition.resolve_left fun h => h message rfl
      rw [listSymbol, hbefore, listNames, hwithout, outcomes_append] at hsymbol
      have hadds : names.Adds names' (names.allocate (w.identifierOf o.location)).1 := by
        rw [show names' = _ from hnames]
        exact names.adds_allocate (w.identifierOf o.location)
      rw [w.outcomes_of_adds group hadds hsymbol]

/-! ### Files by other locations -/

lemma without_congr {a b : String} (h : Location.same a b = true) (locations : List String) :
    without a locations = without b locations := by
  unfold without
  exact congrArg (List.filter · locations) (funext fun c => by rw [same_congr h c])

lemma listSymbol_congr {a b : String} (h : Location.same a b = true) (locations : List String) :
    w.listSymbol locations a = w.listSymbol locations b := by
  have hidentifier : w.identifierOf a = w.identifierOf b := by
    rw [identifierOf, identifierOf, Location.fileName?, Location.fileName?, same_iff.mp h]
  have htest : (fun c => !Location.same a c) = fun c => !Location.same b c :=
    funext fun c => by rw [same_congr h c]
  rw [listSymbol, listSymbol, hidentifier, htest]

end Workshop

/-! ### Runs -/

section Run

variable {σ : Type} {write : String → String → StateM σ (Except Failure Unit)}
  {normalize : FileView → String → Normalized} {files : FileView} {options : Options}
  {out : Option String} {input : Input} {w : Workshop} {notices : List Log.Record}

/-- A run that begins gives a report of what was generated. -/
lemma exists_run (hprepare : prepare options files normalize input = .ok (w, notices)) (s : σ) :
    ∃ log r s', (run write normalize files options out input).run s = ((log, .ok r), s')
      ∧ r.artifacts = (w.generate input).artifacts ∧ r.root = (w.generate input).value
      ∧ (w.generate input).failures ⊆ r.failures := by
  have hrun := @run_of_prepare σ write normalize files options input s w notices out hprepare
  refine ⟨_, _, _, hrun, ?_⟩
  obtain ⟨hartifacts, hroot⟩ := run_eq_ok hprepare hrun
  exact ⟨hartifacts, hroot, List.subset_append_left _ _⟩

end Run

open Workshop (without)

/-- A run over a list without a file that fails gives icons for the same other files. They are the same
icons if the file fails before a symbol is meant for it, or if no other file gets that symbol. -/
theorem failures_isolated {σ : Type} (write : String → String → StateM σ (Except Failure Unit))
    (normalize : FileView → String → Normalized) (files : FileView) (options : Options)
    (out : Option String) (locations : List String) (file : String) (e : Failure) (w : Workshop)
    (notices : List Log.Record) (s t : σ)
    (hprepare : prepare options files normalize (.files locations) = .ok (w, notices))
    (hfails : w.FailsWith locations file e) :
    ∃ log r s' log' r' t',
      (run write normalize files options out (.files locations)).run s = ((log, .ok r), s')
      ∧ (run write normalize files options out (.files (without file locations))).run t
        = ((log', .ok r'), t')
      ∧ e ∈ r.failures
      ∧ r'.root.icons.map (·.1) = r.root.icons.map (·.1)
      ∧ ((∀ location message, e ≠ .emit location message)
          ∨ w.listSymbol locations file ∉ (w.listNames (without file locations)).taken →
        r'.artifacts = r.artifacts) := by
  obtain ⟨o, ho, hsame, he⟩ := hfails
  obtain ⟨os, os', houtcomes, halike, hequal⟩ := w.exists_removes ho
  rw [Workshop.without_congr hsame, w.listSymbol_congr hsame] at hequal
  rw [Workshop.without_congr hsame] at halike
  obtain ⟨log, r, s', hrun, hartifacts, hroot, hfailures⟩ := @exists_run σ write normalize files
    options out (.files locations) w notices hprepare s
  obtain ⟨log', r', t', hrun', hartifacts', hroot', -⟩ := @exists_run σ write normalize files
    options out (.files (without file locations)) w notices hprepare t
  obtain ⟨hvalue, hexplained⟩ := w.generate_files locations
  obtain ⟨hvalue', hexplained'⟩ := w.generate_files (without file locations)
  have hnone : o.icon? = none := by simp [Outcome.icon?, Outcome.artifact?, he, Except.toOption]
  have hnothing : o.artifact? = none := by simp [Outcome.artifact?, he, Except.toOption]
  refine ⟨log, r, s', log', r', t', hrun, hrun', ?_, ?_, fun hcondition => ?_⟩
  · apply hfailures
    rw [hexplained.failures]
    exact Outcome.mem_failures.mpr ⟨o, ho, he⟩
  · rw [hroot, hroot', hvalue, hvalue', houtcomes]
    simpa [Tree.icons, hnone] using (Outcome.icons_of_alike halike).symm
  · rw [hartifacts, hartifacts', hexplained.artifacts, hexplained'.artifacts, houtcomes,
      hequal e he (hcondition.imp_left fun h message => h o.location message)]
    simp [hnothing]

/-! ### Lists with a file that cannot be expressed -/

/-- The text of a drawable with a single path. -/
def drawing (data : String) : String :=
  "<vector xmlns:a=\"http://schemas.android.com/apk/res/android\" a:width=\"2\" a:height=\"2\" "
    ++ "a:viewportWidth=\"2\" a:viewportHeight=\"2\"><path a:pathData=\"" ++ data ++ "\"/></vector>"

/-- A file with a number beyond the range of doubles, and files without one. -/
def mixedFiles : FileView where
  isDirectory _ := false
  entries _ := .error .notDirectory
  bytes location :=
    .ok (if location = "a/add.xml" then drawing "M1e309 0" else drawing "M1 2z").toUTF8

/-- Options for shapes from drawables. -/
def mixedOptions : Options where
  inputFormat := .drawable
  backend := .nativeShape
  preview := false

/-- A run over mixed files, which have no colors by name. -/
def mixedShop : Workshop where
  options := mixedOptions
  files := mixedFiles
  colors := .empty
  normalize _ file := ⟨[], .error (.normalize file "no drawable")⟩

/-- The symbols and the failures in the report of a run over mixed files. -/
def mixedReport (locations : List String) : Option (List String × List (Option String)) :=
  (run (m := Id) writeNothing mixedShop.normalize mixedFiles mixedOptions none
    (.files locations)).2.toOption.map
      fun r => (r.artifacts.map (·.name), r.failures.map (·.location?))

lemma mixedShop_failsWith :
    ∃ e, mixedShop.FailsWith ["a/add.xml", "b/sub.xml"] "a/add.xml" e := by
  have hfails : (mixedShop.outcome mixedShop.options.rootGroup
      (Workshop.ownNames mixedShop.options.rootGroup) "a/add.xml").1.result.isOk = false := by
    decide +kernel
  cases hresult : (mixedShop.outcome mixedShop.options.rootGroup
      (Workshop.ownNames mixedShop.options.rootGroup) "a/add.xml").1.result with
  | ok a =>
    rw [hresult] at hfails
    cases hfails
  | error e => exact ⟨e, mixedShop.failsWith_cons hresult ["b/sub.xml"]⟩

/-- A file that cannot be expressed changes nothing if no other file asks for its symbol. -/
theorem failure_beside_another_identifier :
    ∃ log r s' log' r' t',
      (run (m := StateM Unit) writeNothing mixedShop.normalize mixedFiles mixedOptions none
        (.files ["a/add.xml", "b/sub.xml"])).run () = ((log, .ok r), s')
      ∧ (run (m := StateM Unit) writeNothing mixedShop.normalize mixedFiles mixedOptions none
        (.files (without "a/add.xml" ["a/add.xml", "b/sub.xml"]))).run () = ((log', .ok r'), t')
      ∧ r'.artifacts = r.artifacts := by
  have hsymbol : mixedShop.listSymbol ["a/add.xml", "b/sub.xml"] "a/add.xml"
      ∉ (mixedShop.listNames (without "a/add.xml" ["a/add.xml", "b/sub.xml"])).taken := by
    have hlist : Workshop.distinct (without "a/add.xml" ["a/add.xml", "b/sub.xml"])
        = ["b/sub.xml"] := by
      decide +kernel
    rw [Workshop.listNames, hlist]
    rcases mixedShop.names_outcome mixedShop.options.rootGroup
      (Workshop.ownNames mixedShop.options.rootGroup) "b/sub.xml" with hnames | hnames
    · rw [Workshop.outcomes_singleton, hnames]
      decide +kernel
    · rw [Workshop.outcomes_singleton, hnames]
      decide +kernel
  obtain ⟨e, hfails⟩ := mixedShop_failsWith
  have hprepare : prepare mixedOptions mixedFiles mixedShop.normalize
      (.files ["a/add.xml", "b/sub.xml"]) = .ok (mixedShop, []) := rfl
  obtain ⟨log, r, s', log', r', t', hrun, hrun', -, -, hequal⟩ := failures_isolated
    writeNothing mixedShop.normalize mixedFiles mixedOptions none ["a/add.xml", "b/sub.xml"]
    "a/add.xml" e mixedShop [] () () hprepare hfails
  exact ⟨log, r, s', log', r', t', hrun, hrun', hequal (Or.inr hsymbol)⟩

/-- A file that cannot be expressed keeps its symbol from the next file that asks for it. -/
theorem failure_beside_same_identifier :
    mixedReport ["a/add.xml", "b/add.xml"] = some (["Add2"], [some "a/add.xml"])
      ∧ mixedReport (without "a/add.xml" ["a/add.xml", "b/add.xml"]) = some (["Add"], []) := by
  decide +kernel

end Iconsmith.Batch
