import Iconsmith.Drawable.Writer
import Iconsmith.Proofs.Results
import Iconsmith.Proofs.Xml.Layouts
import Mathlib.Tactic

/-!
# Fields

An element of a drawable has a fixed list of fields, each of them an attribute that may be left out.
Written as settings and read back, the attributes hold what the fields hold.
-/

namespace Iconsmith.Drawable

open Xml (IsWord QName)

/-- The attributes that an element may have, by name; those left out have no value. -/
abbrev Fields := List (String × Option String)

namespace Fields

/-- The attributes that are there. -/
def present (fs : Fields) : List (String × String) :=
  fs.filterMap fun f => f.2.map (f.1, ·)

/-- The settings of a start tag. -/
def settings (fs : Fields) : List Xml.Setting :=
  fs.present.map fun f => setting f.1 (Xml.escaped f.2)

/-- The attributes of an element. -/
def attributes (fs : Fields) : List Xml.Attribute :=
  fs.present.map fun f => ⟨⟨some attributeSpace, f.1⟩, f.2⟩

/-- Fields that can be written: no name twice, and no value that loses characters. -/
structure Writable (fs : Fields) : Prop where
  nodup : (fs.map Prod.fst).Nodup
  words : ∀ n ∈ fs.map Prod.fst, IsWord n
  values : ∀ f ∈ fs, ∀ v ∈ f.2, Xml.IsValue v

/-- Fields whose markup can be read: no name twice, and only characters of a document. -/
structure Legible (fs : Fields) : Prop where
  nodup : (fs.map Prod.fst).Nodup
  words : ∀ n ∈ fs.map Prod.fst, IsWord n
  texts : ∀ f ∈ fs, ∀ v ∈ f.2, Xml.IsText v

/-- What is read of fields: their texts, with spaces in place of tabs and line ends. -/
def spaced (fs : Fields) : Fields :=
  fs.map fun f => (f.1, f.2.map Xml.spaced)

variable {fs : Fields}

@[simp] lemma present_nil : present [] = [] :=
  rfl

@[simp] lemma present_none (n : String) : present ((n, none) :: fs) = fs.present :=
  rfl

@[simp] lemma present_some (n v : String) : present ((n, some v) :: fs) = (n, v) :: fs.present :=
  rfl

lemma present_append (fs gs : Fields) : (fs ++ gs : Fields).present = fs.present ++ gs.present := by
  simp [present]

lemma mem_present {n v : String} : (n, v) ∈ fs.present ↔ (n, some v) ∈ fs := by
  rw [present, List.mem_filterMap]
  constructor
  · rintro ⟨⟨m, w⟩, hmem, hf⟩
    cases w with
    | none => contradiction
    | some w =>
      cases hf
      exact hmem
  · intro h
    exact ⟨_, h, rfl⟩

lemma names_sublist (fs : Fields) : (fs.present.map Prod.fst).Sublist (fs.map Prod.fst) := by
  induction fs with
  | nil => exact .slnil
  | cons f fs ih =>
    obtain ⟨n, v⟩ := f
    cases v with
    | none => exact ih.cons n
    | some v => exact ih.cons_cons n

/-! ### Read back -/

lemma lookup_cons_of_ne {α : Type} {n m : String} (hn : n ≠ m) (x : α) (l : List (String × α)) :
    List.lookup n ((m, x) :: l) = l.lookup n := by
  rw [List.lookup_cons, beq_false_of_ne hn]

lemma lookup_present (h : (fs.map Prod.fst).Nodup) (n : String) :
    fs.present.lookup n = (fs.lookup n).join := by
  induction fs with
  | nil => rfl
  | cons f fs ih =>
    obtain ⟨m, v⟩ := f
    have hrest := ih h.of_cons
    by_cases hn : n = m
    · subst hn
      cases v with
      | some v => simp
      | none =>
        have hnot : n ∉ (present fs).map Prod.fst :=
          fun hmem => (List.nodup_cons.mp h).1 ((names_sublist fs).subset hmem)
        have : List.lookup n (present fs) = none := by
          rw [List.lookup_eq_none_iff]
          intro f hf
          rw [bne_iff_ne]
          rintro rfl
          exact hnot (List.mem_map_of_mem hf)
        simp [this]
    · rw [lookup_cons_of_ne hn, ← hrest]
      cases v with
      | none => rfl
      | some v => exact lookup_cons_of_ne hn v (present fs)

lemma find?_attributes (l : List (String × String)) (n : String) :
    ((l.map fun f => (⟨⟨some attributeSpace, f.1⟩, f.2⟩ : Xml.Attribute)).find?
      (·.name == ⟨some attributeSpace, n⟩)).map (·.value) = l.lookup n := by
  induction l with
  | nil => rfl
  | cons f l ih =>
    obtain ⟨m, v⟩ := f
    by_cases hn : n = m
    · subst hn
      simp
    · rw [lookup_cons_of_ne hn, ← ih]
      have hm : m ≠ n := fun h => hn h.symm
      simp [hm]

/-- An element of fields has the attribute that a field holds. -/
theorem attribute?_attributes (h : fs.Writable) (name : Xml.Name) (children : List Xml.Node)
    (n : String) :
    attribute? (.element name fs.attributes children) n = (fs.lookup n).join := by
  rw [← lookup_present h.nodup, ← find?_attributes]
  rfl

end Fields

/-! ### Tags of fields -/

/-- The namespaces inside of the root. -/
def innerScope : Xml.Scope :=
  [(some "android", attributeSpace), (some "aapt", inlineSpace)]

lemma isWord_android : IsWord "android" := by
  decide

/-- A setting of a field as it is read. -/
def qualified (f : String × String) : QName × String :=
  (⟨"android", f.1⟩, f.2)

/-- A setting with the value for which its text stands. -/
def valued? (s : QName × List Char) : Option (QName × String) :=
  (Xml.valueOf? s.2).bind fun v => some (s.1, v)

lemma splitSettings?_qualified {l : List (String × String)} (hl : ∀ f ∈ l, IsWord f.1)
    (own : Xml.Scope) :
    Xml.splitSettings? own (l.map qualified) = some (own, l.map qualified) := by
  induction l with
  | nil => rfl
  | cons f l ih =>
    have hname : f.1 ≠ "xmlns" := (hl f (by simp)).2.2
    have hrest := ih fun g hg => hl g (List.mem_cons_of_mem f hg)
    have hqualifier : "android" ≠ "xmlns" := by decide
    rw [List.map_cons, qualified, Xml.splitSettings?, if_neg hqualifier, if_neg hname, hrest]
    rfl

namespace Fields

variable {fs : Fields}

lemma Writable.legible (h : fs.Writable) : fs.Legible :=
  ⟨h.nodup, h.words, fun f hf v hv => (h.values f hf v hv).isText⟩

lemma Legible.isWord (h : fs.Legible) {f : String × String} (hf : f ∈ fs.present) : IsWord f.1 :=
  h.words _ ((names_sublist fs).subset (List.mem_map_of_mem hf))

lemma Legible.isText (h : fs.Legible) {f : String × String} (hf : f ∈ fs.present) :
    Xml.IsText f.2 :=
  h.texts _ (mem_present.mp hf) _ rfl

lemma present_spaced (fs : Fields) :
    fs.spaced.present = fs.present.map fun f => (f.1, Xml.spaced f.2) := by
  induction fs with
  | nil => rfl
  | cons f fs ih =>
    obtain ⟨n, v⟩ := f
    cases v with
    | none => exact ih
    | some v => exact congrArg _ ih

lemma Legible.writable_spaced (h : fs.Legible) : fs.spaced.Writable := by
  have hnames : fs.spaced.map Prod.fst = fs.map Prod.fst := by simp [spaced]
  refine ⟨hnames ▸ h.nodup, hnames ▸ h.words, ?_⟩
  simp only [spaced, List.forall_mem_map]
  intro f hf v hv
  obtain ⟨w, hw, rfl⟩ := Option.map_eq_some_iff.mp hv
  exact Xml.isValue_spaced (h.texts f hf w hw)

lemma Writable.spaced_eq (h : fs.Writable) : fs.spaced = fs := by
  refine (List.map_congr_left fun f hf => ?_).trans (List.map_id fs)
  obtain ⟨n, v⟩ := f
  cases v with
  | none => rfl
  | some v =>
    have hv := h.values _ hf v rfl
    rw [Option.map_some, (Xml.spaced_eq_iff hv.isText).mpr hv]
    rfl

section Name

variable {n : String} {v : Option String} (h : Writable ((n, none) :: fs))

include h

lemma Writable.cons (hv : ∀ t ∈ v, Xml.IsValue t) : Writable ((n, v) :: fs) :=
  ⟨h.nodup, h.words, List.forall_mem_cons.mpr ⟨hv, (List.forall_mem_cons.mp h.values).2⟩⟩

lemma Writable.legible_cons (hv : ∀ t ∈ v, Xml.IsText t) : Legible ((n, v) :: fs) :=
  ⟨h.nodup, h.words, List.forall_mem_cons.mpr ⟨hv, (List.forall_mem_cons.mp h.legible.texts).2⟩⟩

lemma Writable.spaced_cons : spaced ((n, v) :: fs) = (n, v.map Xml.spaced) :: fs :=
  congrArg ((n, v.map Xml.spaced) :: ·) (List.tail_eq_of_cons_eq h.spaced_eq)

end Name

/-- The settings of fields as they are read. -/
def written (fs : Fields) : List (QName × List Char) :=
  fs.present.map fun f => (⟨"android", f.1⟩, (Xml.escaped f.2).toList)

lemma written_append (fs gs : Fields) : (fs ++ gs : Fields).written = fs.written ++ gs.written := by
  rw [written, present_append, List.map_append]
  rfl

lemma Writable.of_sublist {gs : Fields} (h : fs.Writable) (hgs : gs.Sublist fs) :
    gs.Writable := by
  have hnames : (gs.map Prod.fst).Sublist (fs.map Prod.fst) := hgs.map Prod.fst
  exact ⟨hnames.nodup h.nodup, fun n hn => h.words n (hnames.subset hn),
    fun f hf => h.values f (hgs.subset hf)⟩

lemma Legible.settings (h : fs.Legible) :
    Xml.Settings (Xml.settingChars fs.settings) fs.written := by
  apply Xml.settings_settingChars
  · intro f hf
    have hprefix : "android:" = "android" ++ ":" := by decide
    rw [setting, hprefix]
    exact isWord_android.named_qualified (h.isWord hf)
  · intro f hf
    rw [setting, Xml.escaped, String.toList_ofList]
    exact Xml.isQuotable_escape (h.isText hf)

lemma Legible.values_written (h : fs.Legible) :
    fs.written.mapM valued? = some (fs.spaced.present.map qualified) := by
  rw [written, List.mapM_map, present_spaced, List.map_map]
  apply mapM_eq_pure
  intro f hf
  have : Xml.valueOf? (Xml.escaped f.2).toList = some (Xml.spaced f.2) := by
    rw [Xml.escaped, String.toList_ofList, Xml.valueOf?_escape_spaced (h.isText hf)]
  simp [valued?, this, qualified]

/-- A tag of fields and declarations has the attributes of the fields. -/
theorem Writable.begin? (h : fs.Writable) {outer own : Xml.Scope} {tag : String}
    {settings : List (QName × List Char)} {values : List (QName × String)}
    (hvalues : settings.mapM valued? = some values)
    (hsplit : Xml.splitSettings? [] values = some (own, fs.present.map qualified))
    (hscope : own ++ outer = innerScope) :
    Xml.Frame.begin? outer ⟨"", tag⟩ settings =
      some ⟨⟨"", tag⟩, ⟨none, tag⟩, fs.attributes, innerScope, []⟩ := by
  have hattributes : (fs.present.map qualified).mapM
      (fun x => Xml.resolveAttribute? innerScope x.1 x.2) = some fs.attributes := by
    rw [List.mapM_map]
    apply mapM_eq_pure
    intro f _
    rfl
  have hnodup : (fs.attributes.map (·.name)).Nodup := by
    have hnames := (names_sublist fs).nodup h.nodup
    have hfull : fs.attributes.map (·.name) =
        (fs.present.map Prod.fst).map (⟨some attributeSpace, ·⟩) := by
      simp [attributes]
    rw [hfull]
    exact hnames.map fun n m h => (Xml.Name.mk.inj h).2
  have hqualifier : "" ≠ "xmlns" := by decide
  unfold valued? at hvalues
  rw [Xml.Frame.begin?]
  simp only [hqualifier, if_false, hvalues, Option.bind_eq_bind, Option.pure_def,
    Option.bind_some, hsplit, hscope,
    hattributes, hnodup, decide_true, Bool.not_true, Bool.false_eq_true]
  rfl

/-- Inside of the root, an element of fields begins with their attributes as they are read. -/
theorem Legible.opens (h : fs.Legible) {tag : String} (htag : IsWord tag) :
    Xml.Opens innerScope tag fs.settings ⟨none, tag⟩ fs.spaced.attributes :=
  ⟨⟨"", tag⟩, fs.written, htag.named, h.settings, h.writable_spaced.begin? h.values_written
    (splitSettings?_qualified (fun _ => h.writable_spaced.legible.isWord) []) rfl⟩

lemma Writable.opens (h : fs.Writable) {tag : String} (htag : IsWord tag) :
    Xml.Opens innerScope tag fs.settings ⟨none, tag⟩ fs.attributes := by
  have := h.legible.opens htag
  rwa [h.spaced_eq] at this

end Fields

end Iconsmith.Drawable
