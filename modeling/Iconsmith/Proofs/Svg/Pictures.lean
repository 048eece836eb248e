import Mathlib.Tactic
import Iconsmith.Svg.Linked

/-!
# Pictures of documents

The scene of a document depends on the text of the document and on the pictures that it links to. Views
in which the files with these pictures hold the same give the same scene, whatever else they hold.
-/

namespace Iconsmith.Svg

/-! ### Elements inside elements -/

/-- The parts of a text define no paint. -/
lemma localName_of_isPartOfText {around : Chain} {n : Xml.Node} (h : isPartOfText around n = true) :
    n.localName ≠ "pattern" := by
  intro hname
  rw [isPartOfText, hname] at h
  simp at h

mutual

lemma localName_allParts (around : Chain) (n : Xml.Node) :
    ∀ e ∈ allParts around n, e.1.localName ≠ "pattern" := by
  match n with
  | .element name attributes children =>
    intro e he
    rw [allParts] at he
    split_ifs at he with hpart htref
    · rw [List.mem_singleton.mp he]
      exact localName_of_isPartOfText hpart
    · rcases List.mem_cons.mp he with rfl | he
      · exact localName_of_isPartOfText hpart
      · exact localName_allPartsOf _ children e he
    · nomatch he
  | .text _ | .remark => nofun

lemma localName_allPartsOf (around : Chain) (ns : List Xml.Node) :
    ∀ e ∈ allPartsOf around ns, e.1.localName ≠ "pattern" := by
  match ns with
  | [] => nofun
  | n :: ns =>
    rw [allPartsOf]
    exact List.forall_mem_append.mpr ⟨localName_allParts around n, localName_allPartsOf around ns⟩

end

mutual

/-- The elements inside a pattern are elements of the document. -/
lemma inside_pattern_subset (around : Chain) (n : Xml.Node) :
    ∀ e ∈ allElements around n, e.1.localName = "pattern" →
      allElementsOf (e.1 :: e.2) e.1.children ⊆ allElements around n := by
  match n with
  | .element name attributes children =>
    intro e he hname
    rw [allElements] at he ⊢
    split_ifs at he ⊢ with hsvg htext
    · rcases List.mem_cons.mp he with rfl | he
      · rw [hname] at htext
        exact absurd htext (by decide)
      · exact absurd hname (localName_allPartsOf _ children e he)
    · rcases List.mem_cons.mp he with rfl | he
      · exact List.subset_cons_self _ _
      · exact List.subset_cons_of_subset _ (inside_pattern_subsetOf _ children e he hname)
    · nomatch he
  | .text _ | .remark => nofun

lemma inside_pattern_subsetOf (around : Chain) (ns : List Xml.Node) :
    ∀ e ∈ allElementsOf around ns, e.1.localName = "pattern" →
      allElementsOf (e.1 :: e.2) e.1.children ⊆ allElementsOf around ns := by
  match ns with
  | [] => nofun
  | n :: ns =>
    intro e he hname
    rw [allElementsOf] at he ⊢
    rcases List.mem_append.mp he with he | he
    · exact List.subset_append_of_subset_left _ (inside_pattern_subset around n e he hname)
    · exact List.subset_append_of_subset_right _ (inside_pattern_subsetOf around ns e he hname)

end

/-! ### Settings -/

/-- Two settings of one document agree on the pictures that some elements embed. -/
structure Setting.Agree (s s' : Setting) (es : List (Xml.Node × Chain)) : Prop where
  root : s'.root = s.root
  view : s'.view = s.view
  pictures : ∀ e ∈ es, picture? s' e.1 = picture? s e.1

namespace Setting.Agree

variable {s s' : Setting} {es es' : List (Xml.Node × Chain)} {n : Xml.Node} {around : Chain}

lemma mono (h : s.Agree s' es) (hsubset : es' ⊆ es) : s.Agree s' es' :=
  ⟨h.root, h.view, fun e he => h.pictures e (hsubset he)⟩

lemma contour?_eq (h : s.Agree s' es) (n : Xml.Node) : contour? s' n = contour? s n := by
  unfold contour?
  rw [h.view]

/-- Settings that agree on an element agree on those inside it, if it is a group. -/
lemma children {name : Xml.Name} {attributes : List Xml.Attribute} {children : List Xml.Node}
    (hn : n = .element name attributes children) (hsvg : isSvgElement n = true)
    (h : s.Agree s' (allElements around n)) :
    picture? s' n = picture? s n
      ∧ (isGroup n = true → s.Agree s' (allElementsOf (n :: around) children)) := by
  subst hn
  rw [allElements, if_pos hsvg] at h
  refine ⟨h.pictures _ List.mem_cons_self, fun hgroup => h.mono ?_⟩
  have htext : (Xml.Node.element name attributes children).localName ≠ "text" := by
    intro htext
    rw [isGroup, htext] at hgroup
    exact absurd hgroup (by decide)
  rw [if_neg htext]
  exact List.subset_cons_self _ _

end Setting.Agree

/-! ### Patterns and paints -/

section Paints

variable {s s' : Setting} {around : Chain}

mutual

lemma draws_congr (n : Xml.Node) (around : Chain) (h : s.Agree s' (allElements around n)) :
    draws s' n = draws s n := by
  match n with
  | .element name attributes children =>
    rw [draws, draws, h.contour?_eq]
    by_cases hsvg : isSvgElement (.element name attributes children) = true
    · obtain ⟨hpicture, hinside⟩ := h.children rfl hsvg
      rw [hpicture]
      by_cases hgroup : isGroup (.element name attributes children) = true
      · rw [drawsAny_congr children _ (hinside hgroup)]
      · rw [Bool.not_eq_true] at hgroup
        rw [hgroup, Bool.false_and, Bool.false_and]
    · rw [Bool.not_eq_true] at hsvg
      rw [hsvg, Bool.false_and, Bool.false_and, Bool.false_and]
  | .text _ | .remark => rfl

lemma drawsAny_congr (ns : List Xml.Node) (around : Chain)
    (h : s.Agree s' (allElementsOf around ns)) : drawsAny s' ns = drawsAny s ns := by
  match ns with
  | [] => rfl
  | n :: ns =>
    rw [allElementsOf] at h
    rw [drawsAny, drawsAny, draws_congr n around (h.mono (List.subset_append_left _ _)),
      drawsAny_congr ns around (h.mono (List.subset_append_right _ _))]

end

variable (h : s.Agree s' (allElements [] s.root))

include h

lemma server?_congr {e : Xml.Node × Chain} (he : e ∈ allElements [] s.root) :
    server? s' e.1 e.2 = server? s e.1 e.2 := by
  have hpattern (hname : e.1.localName = "pattern") : pattern? s' e.1 = pattern? s e.1 := by
    have hinside := h.mono (inside_pattern_subset [] s.root e he hname)
    unfold pattern?
    rw [drawsAny_congr _ _ hinside, h.view]
  unfold server?
  split
  · rw [h.view]
  · rw [h.view]
  · next hname => exact hpattern hname
  · rfl

lemma coat?_congr (c : Chain) (e : Extent) (name : String) (default : PlainPaint) :
    coat? s' c e name default = coat? s c e name default := by
  have hvalue (c : Chain) (v : PaintValue) : v.coat? s' c e = v.coat? s c e := by
    cases v with
    | plain p => rfl
    | server id otherwise =>
      unfold PaintValue.coat?
      dsimp only
      rw [h.root]
      cases hfind : withId? s.root id with
      | none => rfl
      | some found =>
        have hmem := List.mem_reverse.mp (List.mem_of_find?_eq_some hfind)
        dsimp only
        rw [server?_congr h hmem]
  exact hvalue _ _

lemma shape?_congr (m : Affine Float32) (c : Chain) (n : Xml.Node) :
    shape? s' m c n = shape? s m c n := by
  have hinterior (e : Extent) : interior? s' c e = interior? s c e := by
    unfold interior?
    rw [coat?_congr h]
  have hstroke (e : Extent) : stroke? s' c e = stroke? s c e := by
    unfold stroke?
    rw [coat?_congr h, h.view]
  unfold shape?
  simp only [h.contour?_eq, hinterior, hstroke]

lemma drawnHere_congr (m : Affine Float32) (c : Chain) {n : Xml.Node}
    (hpicture : picture? s' n = picture? s n) :
    (image? s' m n).or (shape? s' m c n) = (image? s m n).or (shape? s m c n) := by
  rw [shape?_congr h, image?, image?, hpicture]

omit h

mutual

/-- What is drawn does not depend on pictures elsewhere than in the document. -/
lemma drawn_congr (h : s.Agree s' (allElements [] s.root)) (outer : Affine Float32) (around : Chain)
    (n : Xml.Node) (hn : s.Agree s' (allElements around n)) :
    drawn s' outer around n = drawn s outer around n := by
  match n with
  | .element name attributes children =>
    rw [drawn, drawn]
    by_cases hshown : (isSvgElement (.element name attributes children)
        && isShown (.element name attributes children)) = true
    · rw [if_pos hshown, if_pos hshown]
      obtain ⟨hpicture, hinside⟩ := hn.children rfl (Bool.and_eq_true_iff.mp hshown).1
      by_cases hgroup : isGroup (.element name attributes children) = true
      · rw [if_pos hgroup, if_pos hgroup, drawnAll_congr h _ _ children (hinside hgroup)]
      · rw [if_neg hgroup, if_neg hgroup, drawnHere_congr h _ _ hpicture]
    · rw [if_neg hshown, if_neg hshown]
  | .text _ | .remark => rfl

lemma drawnAll_congr (h : s.Agree s' (allElements [] s.root)) (outer : Affine Float32)
    (around : Chain) (ns : List Xml.Node) (hns : s.Agree s' (allElementsOf around ns)) :
    drawnAll s' outer around ns = drawnAll s outer around ns := by
  match ns with
  | [] => rfl
  | n :: ns =>
    rw [allElementsOf] at hns
    rw [drawnAll, drawnAll,
      drawn_congr h outer around n (hns.mono (List.subset_append_left _ _)),
      drawnAll_congr h outer around ns (hns.mono (List.subset_append_right _ _))]

end

end Paints

/-! ### Scenes -/

/-- Two readers of pictures give the same for the links in a document. -/
def SamePictures (pictures pictures' : PictureSizes) (root : Xml.Node) : Prop :=
  ∀ e ∈ allElements [] root, e.1.localName = "image" →
    ∀ link, attribute? e.1 "href" = some link → pictures' link = pictures link

section Scenes

variable {pictures pictures' : PictureSizes}

lemma SamePictures.agree {root : Xml.Node} (h : SamePictures pictures pictures' root)
    (view : Point Float32) :
    Setting.Agree ⟨root, view, pictures⟩ ⟨root, view, pictures'⟩ (allElements [] root) where
  root := rfl
  view := rfl
  pictures e he := by
    unfold picture?
    split_ifs with himage
    · unfold Picture.ofElement?
      cases hlink : attribute? e.1 "href" with
      | none => rfl
      | some link =>
        dsimp only [Option.bind_eq_bind, Option.bind_some]
        rw [h e he himage link hlink]
    · rfl

lemma sceneOf_congr {root : Xml.Node} (h : SamePictures pictures pictures' root) :
    sceneOf pictures' root = sceneOf pictures root := by
  unfold sceneOf
  dsimp only
  rw [drawn_congr (h.agree _) _ _ _ (h.agree _)]

end Scenes

section Files

variable {files files' : FileView} {text : String}

/-- Views that hold the same in the files that a document links to give it the same pictures. -/
lemma samePictures_of_files {root : Xml.Node}
    (h : ∀ location ∈ (allElements [] root).filterMap (fun e => linkedFile? e.1),
      (files'.bytes location).toOption = (files.bytes location).toOption) :
    SamePictures (pictureSize? files) (pictureSize? files') root := by
  intro e he himage link hlink
  unfold pictureSize?
  cases htarget : Raster.Link.ofText link with
  | held target => rfl
  | file location =>
    have hlinked : linkedFile? e.1 = some location := by
      simp [linkedFile?, hlink, htarget, himage]
    have hbytes := h location (List.mem_filterMap.mpr ⟨e, he, hlinked⟩)
    dsimp only
    unfold fileSize?
    rw [hbytes]

/-- The scene of a text depends on nothing but the text and the files that it links to. -/
theorem Scene.read_congr (h : ∀ location ∈ linkedFiles text,
    (files'.bytes location).toOption = (files.bytes location).toOption) :
    Scene.read files' text = Scene.read files text := by
  unfold Scene.read Scene.ofText
  unfold linkedFiles at h
  cases hroot : Xml.Document.readTyped? text with
  | none => rfl
  | some root =>
    rw [hroot] at h
    dsimp only
    rw [sceneOf_congr (samePictures_of_files h)]

end Files

/-! ### Readers of scenes -/

/-- A reader of scenes looks at no files but the readable ones of those that a document embeds. -/
def SceneReader.LooksAt (read : SceneReader) (embedded : String → List String) : Prop :=
  ∀ (files files' : FileView) (text : String),
    (∀ location ∈ embedded text, (files'.bytes location).toOption = (files.bytes location).toOption) →
    read files' text = read files text

/-- The reader of the program looks at the pictures that a document links to. -/
lemma Scene.reader_looksAt : Scene.reader.LooksAt linkedFiles := by
  intro files files' text h
  unfold Scene.reader
  rw [Scene.read_congr h]

end Iconsmith.Svg
