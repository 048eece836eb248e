import Iconsmith.Batch.Store
import Iconsmith.Proofs.Files.Locations

/-!
# Writing to a disk

Writing a file changes a disk at one place only, apart from directories that are made where nothing
was. A location leads to the same place as long as directories stay directories.
-/

namespace Iconsmith.Disk

/-! ### Places -/

lemma lookup_filter_of_ne {place q : List String} (h : q ≠ place)
    (entries : List (List String × DiskEntry)) :
    (entries.filter (·.1 != place)).lookup q = entries.lookup q := by
  induction entries with
  | nil => rfl
  | cons e entries ih =>
    obtain ⟨p, entry⟩ := e
    by_cases hp : p = place
    · subst hp
      simp [List.lookup_cons, ih, beq_eq_false_iff_ne.mpr h]
    · simp [List.lookup_cons, ih, hp]

lemma lookup?_put_of_ne {d : Disk} {place q : List String} (e : DiskEntry) (h : q ≠ place) :
    (d.put place e).lookup? q = d.lookup? q := by
  simp [lookup?, put, List.lookup_cons, beq_eq_false_iff_ne.mpr h, lookup_filter_of_ne h]

lemma lookup?_put_self {d : Disk} {place : List String} (e : DiskEntry) (h : place ≠ []) :
    (d.put place e).lookup? place = some e := by
  simp [lookup?, put, h]

/-- What is at a place of one disk is also there on another one. -/
def Keeps (d d' : Disk) (place : List String) : Prop :=
  ∀ e, d.lookup? place = some e → d'.lookup? place = some e

lemma Keeps.refl (d : Disk) (place : List String) : Keeps d d place := fun _ h => h

lemma Keeps.trans {d₁ d₂ d₃ : Disk} {place : List String} (h : Keeps d₁ d₂ place)
    (h' : Keeps d₂ d₃ place) : Keeps d₁ d₃ place :=
  fun e he => h' e (h e he)

/-- Every directory of one disk is a directory of another one. -/
def KeepsDirectories (d d' : Disk) : Prop :=
  ∀ place, d.lookup? place = some .directory → d'.lookup? place = some .directory

/-- A disk has no file at a place that another one does not have. -/
def NoNewFile (d d' : Disk) (place : List String) : Prop :=
  ∀ bytes, d'.lookup? place = some (.file bytes) → d.lookup? place = some (.file bytes)

lemma NoNewFile.refl (d : Disk) (place : List String) : NoNewFile d d place := fun _ h => h

lemma NoNewFile.trans {d₁ d₂ d₃ : Disk} {place : List String} (h : NoNewFile d₁ d₂ place)
    (h' : NoNewFile d₂ d₃ place) : NoNewFile d₁ d₃ place :=
  fun bytes hbytes => h bytes (h' bytes hbytes)

/-- A place that a disk leaves as it was: what was there is still there, and there is no new file. -/
structure Spares (d d' : Disk) (place : List String) : Prop where
  keeps : Keeps d d' place
  noNewFile : NoNewFile d d' place

lemma Spares.refl (d : Disk) (place : List String) : Spares d d place :=
  ⟨Keeps.refl d place, NoNewFile.refl d place⟩

lemma Spares.trans {d₁ d₂ d₃ : Disk} {place : List String} (h : Spares d₁ d₂ place)
    (h' : Spares d₂ d₃ place) : Spares d₁ d₃ place :=
  ⟨h.keeps.trans h'.keeps, h.noNewFile.trans h'.noNewFile⟩

lemma spares_put_of_ne (d : Disk) {place q : List String} (e : DiskEntry) (h : q ≠ place) :
    Spares d (d.put place e) q :=
  ⟨fun _ he => by rwa [lookup?_put_of_ne _ h], fun _ hbytes => by rwa [lookup?_put_of_ne _ h] at hbytes⟩

/-! ### Making directories -/

/-- A directory where nothing was takes the place of nothing, and is no file. -/
lemma spares_putDirectory {d : Disk} {place : List String} (h : d.lookup? place = none)
    (q : List String) : Spares d (d.put place .directory) q := by
  by_cases hq : q = place
  · subst hq
    have hne : q ≠ [] := by
      rintro rfl
      simp [lookup?] at h
    exact ⟨fun e he => by simp [he] at h, fun bytes hbytes => by simp [lookup?_put_self _ hne] at hbytes⟩
  · exact d.spares_put_of_ne _ hq

lemma makeSteps_spares (d : Disk) (place pieces q : List String) :
    Spares d (d.makeSteps place pieces).1 q := by
  induction pieces generalizing d place with
  | nil => exact Spares.refl d q
  | cons piece pieces ih =>
    unfold makeSteps
    cases d.step place piece with
    | error e => exact Spares.refl d q
    | ok next =>
      dsimp only
      cases hnext : d.lookup? next with
      | none => exact (spares_putDirectory hnext q).trans (ih (d.put next .directory) next)
      | some entry =>
        cases entry with
        | directory => exact ih d next
        | file bytes => exact Spares.refl d q

/-- Making directories spares every place. -/
lemma makeDirectories_spares (d : Disk) (location : String) (q : List String) :
    Spares d (d.makeDirectories location).1 q := by
  unfold makeDirectories
  split_ifs
  · exact Spares.refl d q
  · exact Spares.refl d q
  · exact d.makeSteps_spares [] _ q

/-! ### Locations -/

/-- The place to which a step leads if it can be taken. -/
def target (place : List String) (piece : String) : List String :=
  if piece = "" || piece = "." then place
  else if piece = ".." then place.dropLast
  else place ++ [piece]

lemma step_eq_ok {d : Disk} {place next : List String} {piece : String} :
    d.step place piece = .ok next ↔ d.lookup? place = some .directory ∧ next = target place piece := by
  unfold step target
  cases d.lookup? place with
  | none => simp
  | some entry =>
    cases entry with
    | file bytes => simp
    | directory =>
      split_ifs <;> simp [eq_comm]

lemma foldlM_step_eq {d : Disk} {pieces : List String} {place last : List String}
    (h : pieces.foldlM d.step place = .ok last) : last = pieces.foldl target place := by
  induction pieces generalizing place with
  | nil =>
    cases h
    rfl
  | cons piece pieces ih =>
    rw [List.foldlM_cons] at h
    cases hstep : d.step place piece with
    | error e => simp [hstep, bind, Except.bind] at h
    | ok next =>
      simp only [hstep, bind, Except.bind] at h
      rw [List.foldl_cons, ← (step_eq_ok.mp hstep).2]
      exact ih h

lemma foldlM_step_mono {d d' : Disk} (hkeeps : KeepsDirectories d d') {pieces : List String}
    {place last : List String} (h : pieces.foldlM d.step place = .ok last) :
    pieces.foldlM d'.step place = .ok last := by
  induction pieces generalizing place with
  | nil => exact h
  | cons piece pieces ih =>
    rw [List.foldlM_cons] at h ⊢
    cases hstep : d.step place piece with
    | error e => simp [hstep, bind, Except.bind] at h
    | ok next =>
      simp only [hstep, bind, Except.bind] at h
      obtain ⟨hdir, hnext⟩ := step_eq_ok.mp hstep
      have : d'.step place piece = .ok next := step_eq_ok.mpr ⟨hkeeps place hdir, hnext⟩
      simp only [this, bind, Except.bind]
      exact ih h

/-- The place to which a location leads if its steps can be taken. -/
def placeOf (location : String) : List String :=
  (Location.pieces location).foldl target []

lemma resolve_eq {d : Disk} {location : String} {place : List String}
    (h : d.resolve location = .ok place) : place = placeOf location := by
  unfold resolve at h
  split_ifs at h
  exact foldlM_step_eq h

lemma resolve_mono {d d' : Disk} (hkeeps : KeepsDirectories d d') {location : String}
    {place : List String} (h : d.resolve location = .ok place) : d'.resolve location = .ok place := by
  unfold resolve at h ⊢
  split_ifs at h ⊢
  exact foldlM_step_mono hkeeps h

/-- Names lead on from the place of a directory. -/
lemma placeOf_join (dir : String) {location : String} {names : List String}
    (hrel : location.startsWith "/" = false) (hpieces : Location.pieces location = names)
    (hnames : ∀ n ∈ names, Location.IsName n) :
    placeOf (Location.join dir location) = placeOf dir ++ names := by
  have htarget : ∀ place, names.foldl target place = place ++ names := by
    clear hpieces
    induction names with
    | nil => simp
    | cons name names ih =>
      rw [List.forall_mem_cons] at hnames
      intro place
      have : target place name = place ++ [name] := by
        simp [target, hnames.1.nonempty, hnames.1.notHere, hnames.1.notAbove]
      rw [List.foldl_cons, this, ih hnames.2]
      simp
  unfold placeOf
  rcases Location.pieces_join dir hrel with ⟨rfl, hjoin⟩ | ⟨ps, -, ⟨hdir, -⟩ | hdir, hjoin⟩
  · rw [hjoin, hpieces, htarget, Location.pieces_of_noSlash (by simp)]
    rfl
  · rw [hjoin, hpieces, List.foldl_append, htarget, hdir]
  · rw [hjoin, hpieces, List.foldl_append, htarget, hdir, List.foldl_append]
    rfl

/-! ### Saving -/

/-- A disk has changed at one place at most, and its directories are still there. -/
structure Changes (d d' : Disk) (place : List String) : Prop where
  elsewhere : ∀ q, q ≠ place → Keeps d d' q
  directories : KeepsDirectories d d'

lemma Changes.of_keeps {d d' : Disk} (h : ∀ q, Keeps d d' q) (place : List String) :
    Changes d d' place :=
  ⟨fun q _ => h q, fun q => h q .directory⟩

lemma Changes.trans {d₁ d₂ d₃ : Disk} {place : List String} (h : Changes d₁ d₂ place)
    (h' : Changes d₂ d₃ place) : Changes d₁ d₃ place :=
  ⟨fun q hq => (h.elsewhere q hq).trans (h'.elsewhere q hq),
    fun q hq => h'.directories q (h.directories q hq)⟩

/-- A file can be read at a location. -/
structure Holds (d : Disk) (location text : String) : Prop where
  resolves : d.resolve location = .ok (placeOf location)
  entry : d.lookup? (placeOf location) = some (.file text.toUTF8)

lemma Holds.read {d : Disk} {location text : String} (h : d.Holds location text) :
    d.read location = .ok text.toUTF8 := by
  simp [Disk.read, h.resolves, h.entry, bind, Except.bind]

lemma Holds.text {d : Disk} {location text : String} (h : d.Holds location text) :
    d.view.text location = .ok text := by
  have hdecode : String.fromUTF8? text.toUTF8 = some text := by
    simp only [String.fromUTF8?, String.toUTF8_eq_toByteArray, dif_pos text.isValidUTF8]
    rfl
  have hbytes : d.view.bytes location = .ok text.toUTF8 := h.read
  simp only [FileView.text, hbytes, bind, Except.bind, hdecode]

/-- A file can still be read after a change at another place. -/
lemma Holds.of_changes {d d' : Disk} {location text : String} {place : List String}
    (h : d.Holds location text) (hchanges : Changes d d' place) (hne : placeOf location ≠ place) :
    d'.Holds location text :=
  ⟨resolve_mono hchanges.directories h.resolves, hchanges.elsewhere _ hne _ h.entry⟩

/-- Writing changes a disk where the location leads, if it succeeds, and not at all otherwise. -/
lemma write_spec (d : Disk) (location text : String) :
    Changes d (d.write location text).1 (placeOf location)
      ∧ ((d.write location text).2 = .ok () → (d.write location text).1.Holds location text) := by
  have hsame : Changes d d (placeOf location) := .of_keeps (Keeps.refl d) _
  unfold write
  cases hresolve : d.resolve location with
  | error e => exact ⟨hsame, by simp⟩
  | ok place =>
    obtain rfl := resolve_eq hresolve
    dsimp only
    split
    · exact ⟨hsame, by simp⟩
    · next hnot =>
      have hne : placeOf location ≠ [] := fun hnil => hnot (by simp [hnil, lookup?])
      have hchanges : Changes d (d.put (placeOf location) (.file text.toUTF8))
          (placeOf location) := by
        refine ⟨fun q hq e he => by rwa [lookup?_put_of_ne _ hq], fun q hq => ?_⟩
        rwa [lookup?_put_of_ne]
        rintro rfl
        exact hnot hq
      exact ⟨hchanges, fun _ =>
        ⟨resolve_mono hchanges.directories hresolve, lookup?_put_self _ hne⟩⟩

/-- Saving changes a disk where the location leads, and the file can be read if it succeeds. -/
lemma save_spec (d : Disk) (location text : String) :
    Changes d ((save location text).run d).2 (placeOf location)
      ∧ (((save location text).run d).1 = .ok () →
        ((save location text).run d).2.Holds location text) := by
  have hmade := Changes.of_keeps (fun q => (d.makeDirectories_spares (Location.parent location) q).keeps)
    (placeOf location)
  dsimp only [save, StateT.run]
  generalize d.makeDirectories (Location.parent location) = made at hmade ⊢
  obtain ⟨d₁, result⟩ := made
  cases result with
  | error fault => exact ⟨hmade, by simp [failing]⟩
  | ok =>
    obtain ⟨hchanges, hholds⟩ := write_spec d₁ location text
    dsimp only at hmade ⊢
    refine ⟨hmade.trans hchanges, fun hok => hholds ?_⟩
    cases hresult : (d₁.write location text).2 with
    | error fault => simp [hresult, failing] at hok
    | ok => rfl

lemma write_spares (d : Disk) (location text : String) {q : List String}
    (hq : q ≠ placeOf location) : Spares d (d.write location text).1 q := by
  unfold write
  cases hresolve : d.resolve location with
  | error e => exact Spares.refl d q
  | ok place =>
    obtain rfl := resolve_eq hresolve
    dsimp only
    split
    · exact Spares.refl d q
    · exact d.spares_put_of_ne _ hq

/-- Saving spares every place but the one where the location leads. -/
lemma save_spares (d : Disk) (location text : String) {q : List String}
    (hq : q ≠ placeOf location) : Spares d ((save location text).run d).2 q := by
  have hmade := d.makeDirectories_spares (Location.parent location) q
  dsimp only [save, StateT.run]
  generalize d.makeDirectories (Location.parent location) = made at hmade ⊢
  obtain ⟨d₁, result⟩ := made
  cases result with
  | error fault => exact hmade
  | ok => exact hmade.trans (d₁.write_spares location text hq)

end Iconsmith.Disk
