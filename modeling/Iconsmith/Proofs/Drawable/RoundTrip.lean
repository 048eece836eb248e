import Iconsmith.Proofs.Drawable.Paths
import Mathlib.Tactic

/-!
# Drawables read back

Every element that is written means, inside of the root, the element of its fields as they are read. By
induction on the tree all nodes are read, to any depth, and so is the graphic around them. What is read of
a graphic that can be written is that graphic.
-/

namespace Iconsmith.Drawable

open Double (unsigned)
open Xml (IsWord Means gapNode)

/-! ### What the elements mean -/

lemma begin?_inline {raw : List Char} {v : String} (h : Xml.valueOf? raw = some v) :
    Xml.Frame.begin? innerScope ⟨"aapt", "attr"⟩ [(⟨"", "name"⟩, raw)] =
      some ⟨⟨"aapt", "attr"⟩, ⟨some inlineSpace, "attr"⟩, [⟨⟨none, "name"⟩, v⟩], innerScope, []⟩ := by
  rw [Xml.Frame.begin?, if_neg (by decide), List.mapM_cons, List.mapM_nil]
  simp only [h, Option.bind_eq_bind, Option.pure_def, Option.bind_some]
  rfl

lemma opens_inline :
    Xml.Opens innerScope "aapt:attr" [("name", "android:fillColor")] ⟨some inlineSpace, "attr"⟩
      [⟨⟨none, "name"⟩, "android:fillColor"⟩] := by
  have htag : Xml.Named "aapt:attr".toList ⟨"aapt", "attr"⟩ :=
    @IsWord.named_qualified "aapt" "attr" (by decide) (by decide)
  have hname : IsWord "name" := by decide
  have hchars : Xml.IsValue "android:fillColor" := by decide
  obtain ⟨hquotable, hvalue⟩ := Xml.quotable_of_escape_eq hchars rfl
  have hsettings : Xml.settingChars [("name", "android:fillColor")] =
      (Xml.Setting.text ("name", "android:fillColor")).toList := by
    simp [Xml.settingChars]
  rw [Xml.Opens, hsettings]
  exact ⟨_, _, htag, Xml.settings_text hname.named hquotable, begin?_inline hvalue⟩

lemma exists_means_stops {ss : List (ColorStop Float)}
    (hfinite : ∀ s ∈ ss, s.offset.isFinite = true) (hcolor : ∀ s ∈ ss, IsColor s.color) (d : Nat) :
    ∃ items, Means innerScope d (ss.map stopElement) items ∧
      items.filter Xml.Node.isElement = ss.map stopNode := by
  induction ss with
  | nil => exact ⟨[], .nil, rfl⟩
  | cons s ss ih =>
    obtain ⟨items, hmeans, hitems⟩ := ih (fun u hu => hfinite u (List.mem_cons_of_mem s hu))
      fun u hu => hcolor u (List.mem_cons_of_mem s hu)
    have hoffset := hfinite s (by simp)
    have hs := hcolor s (by simp)
    refine ⟨gapNode d :: stopNode s :: items, ?_, ?_⟩
    · rw [List.map_cons, stopElement_eq hoffset hs]
      exact .leaf ((writable_stopFields hoffset hs).opens (by decide)) hmeans
    · rw [List.map_cons, ← hitems]
      rfl

section Paths

variable {p : Path Float} (hfinite : ∀ x ∈ p.numbers, x.isFinite = true) (hp : p.Spelled)

include hfinite hp

lemma exists_means_path (d : Nat) :
    ∃ children, Holds p (.element ⟨none, "path"⟩ (pathFields p.spaced).attributes children) ∧
      ∀ es ns, Means innerScope d es ns →
        Means innerScope d (pathElement p :: es) (gapNode d ::
          .element ⟨none, "path"⟩ (pathFields p.spaced).attributes children :: ns) := by
  have hopens := opens_path hfinite hp
  obtain ⟨-, -, -, -, -, hnumbers⟩ := Path.forall_numbers.mp hfinite
  cases hgradient : p.fill.filter Fill.isGradient with
  | none =>
    refine ⟨[], .nothing hgradient rfl, fun es ns h => ?_⟩
    rw [pathElement, hgradient]
    exact .leaf hopens h
  | some a =>
    obtain ⟨hfill, -⟩ := Option.filter_eq_some_iff.mp hgradient
    have ha := hnumbers a hfill
    have hoffsets : ∀ s ∈ a.stops, s.offset.isFinite = true :=
      fun s hs => ha _ (Fill.offset_mem_numbers hs)
    obtain ⟨items, hmeans, hitems⟩ :=
      exists_means_stops hoffsets (hp.fill a hfill).color (d + 3)
    have hopens' := @Fields.Writable.opens _ (writable_gradientFields ha) "gradient" (by decide)
    have hinline := Means.branch opens_inline (.branch hopens' hmeans .nil) .nil
    have hinside : (items ++ [gapNode (d + 2)]).filter Xml.Node.isElement =
        a.stops.map stopNode := by
      rw [List.filter_append, hitems]
      exact List.append_nil _
    refine ⟨[gapNode (d + 1),
      inlineNode [gapNode (d + 2),
        gradientNode a (items ++ [gapNode (d + 2)]),
        gapNode (d + 1)],
      gapNode d], .gradient hgradient rfl rfl hinside, fun es ns h => ?_⟩
    have helement : pathElement p = .branch "path" (pathSettings p) [gradientElement a] := by
      rw [pathElement, hgradient]
    rw [helement, gradientElement, settings_gradientFields ha]
    exact .branch hopens hinline h

end Paths

/-! ### Nodes -/

lemma Holds.spaced {p : Path Float} {n : Xml.Node} (h : Holds p n) : Holds p.spaced n := by
  cases h with
  | nothing hgradient hn => exact .nothing hgradient hn
  | gradient hgradient hn hinside hitems => exact .gradient hgradient hn hinside hitems

lemma node?_path {p : Path Float} (hfinite : ∀ x ∈ p.numbers, x.isFinite = true)
    (hp : p.Spelled) {children : List Xml.Node}
    (hholds : Holds p (.element ⟨none, "path"⟩ (pathFields p.spaced).attributes children))
    (t : Color.Table) :
    node? t (.element ⟨none, "path"⟩ (pathFields p.spaced).attributes children) =
      ⟨[], some <$> (Node.path p).reread⟩ := by
  have hgroup : ¬ "path" = "group" := by decide
  have hspaced : ∀ x ∈ p.spaced.numbers, x.isFinite = true := hfinite
  have hread := path_pathFields hspaced hp.spaced (isName_spaced hp.name) hholds.spaced t
  rw [hp.reread_spaced] at hread
  simp only [node?, if_neg hgroup, hread, Node.reread]
  cases p.reread <;> rfl

lemma node?_group {name : Option String} (hname : IsName name) {m : Transform Float}
    (hfinite : ∀ x ∈ m.numbers, x.isFinite = true) {children : List Xml.Node}
    {ns : Except Error (List (Node Float))} {t : Color.Table}
    (hchildren : nodes t children = ⟨[], ns⟩) :
    node? t (.element ⟨none, "group"⟩ (groupFields name m).attributes children) =
      ⟨[], (fun ns => some (.group name (m.map unsigned) ns)) <$> ns⟩ := by
  simp only [node?, if_true, transform_groupFields hfinite hname, name_groupFields hfinite hname,
    hchildren]
  cases ns <;> rfl

lemma nodes_append_gap (t : Color.Table) (xs : List Xml.Node) (d : Nat) :
    nodes t (xs ++ [gapNode d]) = nodes t xs := by
  induction xs with
  | nil => rfl
  | cons x xs ih => rw [List.cons_append, nodes, nodes, ih]

lemma nodes_cons {t : Color.Table} {x : Xml.Node} {xs : List Xml.Node} {n : Except Error (Node Float)}
    {ns : Except Error (List (Node Float))} (hx : node? t x = ⟨[], some <$> n⟩)
    (hxs : nodes t xs = ⟨[], ns⟩) (d : Nat) :
    nodes t (gapNode d :: x :: xs) = ⟨[], do return (← n) :: (← ns)⟩ := by
  have hgap : node? t (gapNode d) = ⟨[], .ok none⟩ := rfl
  rw [nodes, hgap, nodes, hx, hxs]
  cases n <;> cases ns <;> rfl

mutual

lemma exists_means_spelled {n : Node Float} (hfinite : ∀ x ∈ n.numbers, x.isFinite = true)
    (hn : n.Spelled) (t : Color.Table) (d : Nat) :
    ∃ x, node? t x = ⟨[], some <$> n.reread⟩ ∧
      ∀ es ns, Means innerScope d es ns →
        Means innerScope d (nodeElement n :: es) (gapNode d :: x :: ns) := by
  match n with
  | .path p =>
    obtain ⟨children, hholds, hmeans⟩ := exists_means_path hfinite hn d
    exact ⟨_, node?_path hfinite hn hholds t, hmeans⟩
  | .group name m children =>
    simp only [Node.numbers, List.forall_mem_append] at hfinite
    obtain ⟨hname, hchildren⟩ := hn
    obtain ⟨xs, hread, hmeans⟩ := exists_means_allSpelled hfinite.2 hchildren t (d + 1)
    have hgroup := node?_group (isName_spaced hname) hfinite.1 ((nodes_append_gap t xs d).trans hread)
    refine ⟨_, hgroup.trans ?_, fun es ns h => .branch (opens_group hfinite.1 hname) hmeans h⟩
    rw [Node.reread]
    cases Node.rereadAll children <;> rfl

/-- The elements of nodes mean what is read of the nodes. -/
lemma exists_means_allSpelled {ns : List (Node Float)}
    (hfinite : ∀ x ∈ Node.numbersOf ns, x.isFinite = true) (hns : Node.SpelledAll ns)
    (t : Color.Table) (d : Nat) :
    ∃ xs, nodes t xs = ⟨[], Node.rereadAll ns⟩ ∧ Means innerScope d (nodeElements ns) xs := by
  match ns with
  | [] => exact ⟨[], rfl, .nil⟩
  | n :: ns =>
    simp only [Node.numbersOf, List.forall_mem_append] at hfinite
    obtain ⟨hn, hns⟩ := hns
    obtain ⟨x, hx, hmeans⟩ := exists_means_spelled hfinite.1 hn t d
    obtain ⟨xs, hxs, hmeans'⟩ := exists_means_allSpelled hfinite.2 hns t d
    exact ⟨_, nodes_cons hx hxs d, hmeans _ _ hmeans'⟩

end

lemma exists_means_nodes {ns : List (Node Float)}
    (hfinite : ∀ x ∈ Node.numbersOf ns, x.isFinite = true) (hns : Node.ExpressibleAll ns)
    (t : Color.Table) (d : Nat) :
    ∃ xs, nodes t xs = ⟨[], .ok (ns.map (Node.map unsigned))⟩ ∧
      Means innerScope d (nodeElements ns) xs := by
  rw [← Node.ExpressibleAll.rereadAll_eq hns]
  exact exists_means_allSpelled hfinite (Node.ExpressibleAll.spelled hns) t d

/-! ### The root -/

/-- The fields of the root that tell the size. -/
def sizeFields (g : Graphic Float) : Fields :=
  [("width", some (lengthText g.width)), ("height", some (lengthText g.height))]

/-- The fields of the root that tell the size of the viewport. -/
def viewportFields (g : Graphic Float) : Fields :=
  [("viewportWidth", some (numberText g.viewport.x)),
   ("viewportHeight", some (numberText g.viewport.y))]

/-- The fields of the root. -/
def rootFields (g : Graphic Float) : Fields :=
  sizeFields g ++ viewportFields g

/-- The namespaces that the root declares, as they are read. -/
def declarations : List (Xml.QName × String) :=
  [(⟨"xmlns", "android"⟩, attributeSpace), (⟨"xmlns", "aapt"⟩, inlineSpace)]

/-- The start tag of the root behind its name, but for its end. -/
def rootSettings (g : Graphic Float) : List Char :=
  Xml.settingChars [("xmlns:android", attributeSpace), ("xmlns:aapt", inlineSpace)] ++
    ("\n   ".toList ++ Xml.settingChars
      [setting "width" (lengthText g.width), setting "height" (lengthText g.height)] ++
    ("\n   ".toList ++ Xml.settingChars (pointSettings "viewportWidth" "viewportHeight" g.viewport)))

lemma write_eq (g : Graphic Float) :
    write g = String.ofList ('<' :: ("vector".toList ++ (rootSettings g ++ (Xml.closing false ++
      '\n' :: (Xml.chars (Xml.Layout.linesOf 1 (nodeElements g.nodes)) ++
        '<' :: '/' :: ("vector".toList ++ ['>', '\n'])))))) := by
  have hlines : write g = String.ofList (Xml.chars
      (rootLines g ++ Xml.Layout.linesOf 1 (nodeElements g.nodes) ++ ["</vector>"])) :=
    String.ofList_toList.symm
  have hroot : Xml.chars (rootLines g) =
      '<' :: ("vector".toList ++ (rootSettings g ++ (Xml.closing false ++ ['\n']))) := by
    simp [rootLines, rootSettings, Xml.chars_cons, Xml.opening_toList, continuation, Xml.closing]
    simp [Xml.settingChars, Xml.chars]
  have hend : Xml.chars ["</vector>"] = '<' :: '/' :: ("vector".toList ++ ['>', '\n']) := by
    rw [Xml.chars_cons]
    rfl
  rw [hlines, Xml.chars_append, Xml.chars_append, hroot, hend]
  simp only [List.append_assoc, List.cons_append, List.nil_append]

section Root

variable {g : Graphic Float} (hg : g.Spelled)

include hg

lemma writable_rootFields : (rootFields g).Writable := by
  have hnames : (rootFields g).map Prod.fst =
    ["width", "height", "viewportWidth", "viewportHeight"] := rfl
  have hfinite := hg.finite
  simp only [Graphic.numbers, List.forall_mem_append, List.forall_mem_cons] at hfinite
  obtain ⟨⟨hwidth, hheight, hx, hy, -⟩, -⟩ := hfinite
  constructor
  · rw [hnames]
    decide
  · rw [hnames]
    decide
  · simp only [rootFields, sizeFields, viewportFields, List.cons_append, List.nil_append,
      List.forall_mem_cons, Option.mem_some_iff, forall_eq']
    exact ⟨(isPlain_lengthText hwidth).isValue, (isPlain_lengthText hheight).isValue,
      (isPlain_numberText hx).isValue, (isPlain_numberText hy).isValue, List.forall_mem_nil _⟩

omit hg in
lemma readable_spaces :
    (Xml.IsQuotable attributeSpace.toList ∧
      Xml.valueOf? attributeSpace.toList = some attributeSpace) ∧
    (Xml.IsQuotable inlineSpace.toList ∧ Xml.valueOf? inlineSpace.toList = some inlineSpace) := by
  have hattribute : Xml.IsValue attributeSpace := by decide
  have hinline : Xml.IsValue inlineSpace := by decide
  exact ⟨Xml.quotable_of_escape_eq hattribute rfl, Xml.quotable_of_escape_eq hinline rfl⟩

lemma settings_rootSettings :
    Xml.Settings (rootSettings g)
      (declarations.map (fun d => (d.1, d.2.toList)) ++ (rootFields g).written) := by
  obtain ⟨⟨hattribute, -⟩, hinline, -⟩ := readable_spaces
  have hfinite := hg.finite
  simp only [Graphic.numbers, List.forall_mem_append, List.forall_mem_cons] at hfinite
  obtain ⟨⟨hwidth, hheight, hx, hy, -⟩, -⟩ := hfinite
  have hfirst : Xml.Named "xmlns:android".toList ⟨"xmlns", "android"⟩ := ⟨by decide, by decide⟩
  have hsecond : Xml.Named "xmlns:aapt".toList ⟨"xmlns", "aapt"⟩ := ⟨by decide, by decide⟩
  have hdeclarations : Xml.Settings
      (Xml.settingChars [("xmlns:android", attributeSpace), ("xmlns:aapt", inlineSpace)])
      (declarations.map fun d => (d.1, d.2.toList)) := by
    have := (Xml.settings_text hfirst hattribute).append (Xml.settings_text hsecond hinline)
    simpa [Xml.settingChars, String.toList_join, declarations] using this
  have hsize : (sizeFields g).settings =
      [setting "width" (lengthText g.width), setting "height" (lengthText g.height)] := by
    simp [sizeFields, fieldSettings_some (isPlain_lengthText hwidth),
      fieldSettings_some (isPlain_lengthText hheight)]
  have hviewport : (viewportFields g).settings =
      pointSettings "viewportWidth" "viewportHeight" g.viewport := by
    simp [viewportFields, fieldSettings_some (isPlain_numberText hx),
      fieldSettings_some (isPlain_numberText hy), pointSettings]
  have h₁ := ((writable_rootFields hg).of_sublist (List.sublist_append_left _ _)).legible.settings
  have h₂ := ((writable_rootFields hg).of_sublist (List.sublist_append_right _ _)).legible.settings
  rw [hsize] at h₁
  rw [hviewport] at h₂
  rw [rootFields, Fields.written_append]
  exact hdeclarations.append ((h₁.indent (by decide)).append (h₂.indent (by decide)))

lemma begin?_root :
    Xml.Frame.begin? [] ⟨"", "vector"⟩
      (declarations.map (fun d => (d.1, d.2.toList)) ++ (rootFields g).written) =
      some ⟨⟨"", "vector"⟩, ⟨none, "vector"⟩, (rootFields g).attributes, innerScope, []⟩ := by
  obtain ⟨⟨-, hattribute⟩, -, hinline⟩ := readable_spaces
  have hwritable := writable_rootFields hg
  have hdeclarations :
      (declarations.map fun d => (d.1, d.2.toList)).mapM valued? = some declarations := by
    simp [declarations, valued?, hattribute, hinline]
  have hvalues : (declarations.map (fun d => (d.1, d.2.toList)) ++ (rootFields g).written).mapM
      valued? = some (declarations ++ (rootFields g).present.map qualified) := by
    rw [List.mapM_append, hdeclarations, hwritable.legible.values_written, hwritable.spaced_eq]
    rfl
  have hsplit : Xml.splitSettings? [] (declarations ++ (rootFields g).present.map qualified) =
      some (innerScope, (rootFields g).present.map qualified) := by
    have h := splitSettings?_qualified (fun _ => hwritable.legible.isWord) innerScope
    have h₁ : Xml.Scope.declare? [] "android" attributeSpace =
        some [(some "android", attributeSpace)] := by decide
    have h₂ : Xml.Scope.declare? [(some "android", attributeSpace)] "aapt" inlineSpace =
        some innerScope := by decide
    rw [declarations, List.cons_append, Xml.splitSettings?, if_pos rfl, h₁, Option.bind_eq_bind,
      Option.bind_some, List.cons_append, Xml.splitSettings?, if_pos rfl, h₂, Option.bind_eq_bind,
      Option.bind_some, List.nil_append, h]
  exact hwritable.begin? hvalues hsplit rfl

/-- The document of a graphic is read as its root, with what its nodes mean inside. -/
theorem readRoot_write_of_spelled {xs : List Xml.Node} (h : Means innerScope 1 (nodeElements g.nodes) xs) :
    Xml.Document.readRoot "vector" (write g) =
      .ok (.element ⟨none, "vector"⟩ (rootFields g).attributes (xs ++ [gapNode 0])) := by
  have htag : IsWord "vector" := by decide
  have hread := Xml.Document.read?_layout htag.named (settings_rootSettings hg) (begin?_root hg) h
  rw [write_eq, Xml.Document.readRoot, hread]
  rfl

omit hg in
lemma readRoot_write (hg : g.Expressible) {xs : List Xml.Node}
    (h : Means innerScope 1 (nodeElements g.nodes) xs) :
    Xml.Document.readRoot "vector" (write g) =
      .ok (.element ⟨none, "vector"⟩ (rootFields g).attributes (xs ++ [gapNode 0])) :=
  readRoot_write_of_spelled hg.spelled h

end Root

/-! ### Read back -/

lemma Reading.lift_bind {α β : Type} (x : α) (f : α → Reading β) :
    ((liftM (Except.ok x : Except Error α) : Reading α) >>= f) = f x :=
  rfl

lemma length?_lengthText {n : Xml.Node} {name : String} {l : Length Float}
    (hl : l.value.isFinite = true) (h : attribute? n name = some (lengthText l)) :
    length? n name = .ok (some (l.map unsigned)) := by
  have hreference : ¬ ((decide ((Text.trim (lengthText l).toList).head? = some '@') ||
      decide ((Text.trim (lengthText l).toList).head? = some '?')) = true) := by
    rw [trim_lengthText hl]
    simp [head?_lengthText hl]
  rw [length?, h]
  simp only [if_neg hreference, lengthOf?_lengthText hl]

lemma viewport_rootFields {g : Graphic Float} (hg : g.Spelled) (children : List Xml.Node)
    (width height : Option (Length Float)) :
    viewport (.element ⟨none, "vector"⟩ (rootFields g).attributes children) width height =
      .ok (g.viewport.map unsigned) := by
  have hfield := Fields.attribute?_attributes (writable_rootFields hg) ⟨none, "vector"⟩ children
  have hx := number?_numberText (hg.finite g.viewport.x (by simp [Graphic.numbers]))
    (hfield "viewportWidth")
  have hy := number?_numberText (hg.finite g.viewport.y (by simp [Graphic.numbers]))
    (hfield "viewportHeight")
  have hpositive : (decide (0 < unsigned g.viewport.x) && decide (0 < unsigned g.viewport.y)) =
      true := by
    rw [Double.unsigned_of_pos hg.viewport.1, Double.unsigned_of_pos hg.viewport.2]
    simp [hg.viewport]
  rw [viewport, hx, ok_bind, Option.some_or, require, ok_bind, hy, ok_bind, Option.some_or,
    require, ok_bind, if_pos hpositive]
  rfl

lemma graphic_rootFields_of_spelled {g : Graphic Float} (hg : g.Spelled) {t : Color.Table}
    {children : List Xml.Node} (hchildren : nodes t children = ⟨[], Node.rereadAll g.nodes⟩) :
    graphic t (.element ⟨none, "vector"⟩ (rootFields g).attributes children) = ⟨[], g.reread⟩ := by
  have hfield := Fields.attribute?_attributes (writable_rootFields hg) ⟨none, "vector"⟩ children
  have hwidth := length?_lengthText (hg.finite g.width.value (by simp [Graphic.numbers]))
    (hfield "width")
  have hheight := length?_lengthText (hg.finite g.height.value (by simp [Graphic.numbers]))
    (hfield "height")
  have hviewport := viewport_rootFields hg children (some (g.width.map unsigned))
    (some (g.height.map unsigned))
  simp only [graphic, hwidth, hheight, Reading.lift_bind, hviewport, Xml.Node.children, hchildren,
    Graphic.reread]
  cases Node.rereadAll g.nodes <;> rfl

lemma graphic_rootFields {g : Graphic Float} (hg : g.Expressible) {t : Color.Table}
    {children : List Xml.Node}
    (hchildren : nodes t children = ⟨[], .ok (g.nodes.map (Node.map unsigned))⟩) :
    graphic t (.element ⟨none, "vector"⟩ (rootFields g).attributes children) =
      ⟨[], .ok (g.map unsigned)⟩ := by
  rw [← Node.ExpressibleAll.rereadAll_eq hg.nodes] at hchildren
  rw [graphic_rootFields_of_spelled hg.spelled hchildren, Graphic.reread,
    Node.ExpressibleAll.rereadAll_eq hg.nodes]
  rfl

/-- What is read of a graphic that is spelled out, whatever the table of colors. Nothing of it is passed
over. -/
theorem read_write_of_spelled {g : Graphic Float} (hg : g.Spelled) (t : Color.Table) :
    read t (write g) = ⟨[], g.reread⟩ := by
  obtain ⟨xs, hread, hmeans⟩ := @exists_means_allSpelled g.nodes
    (fun x hx => hg.finite x (List.mem_append_right _ hx)) hg.nodes t 1
  have hgraphic := graphic_rootFields_of_spelled hg ((nodes_append_gap t xs 0).trans hread)
  simp only [read, readRoot_write_of_spelled hg hmeans, Except.mapError, Reading.lift_bind, hgraphic]

/-- A graphic that can be written is read back as it was, but for the signs of zeros, whatever the
table of colors, and nothing of it is passed over. -/
theorem read_write_of_expressible {g : Graphic Float} (hg : g.Expressible) (t : Color.Table) :
    read t (write g) = ⟨[], .ok (g.map unsigned)⟩ ∧ (g.map unsigned == g) = true := by
  constructor
  · obtain ⟨xs, hread, hmeans⟩ := @exists_means_nodes g.nodes
      (fun x hx => hg.finite x (List.mem_append_right _ hx)) hg.nodes t 1
    have hgraphic := graphic_rootFields hg ((nodes_append_gap t xs 0).trans hread)
    simp only [read, readRoot_write hg hmeans, Except.mapError, Reading.lift_bind, hgraphic]
  · exact Graphic.map_beq fun x hx => Double.unsigned_beq (hg.finite x hx)

/-- A graphic with a name that needs references, a gradient below two groups, and negative zeros. -/
def sample : Graphic Float where
  width := { value := 24, unit := some .dp }
  height := { value := -0.5 }
  viewport := ⟨24, 12.25⟩
  nodes := [
    .group (some "a \"<b>\" & c") { rotation := -0.0, pivot := ⟨1, 2⟩, scale := ⟨1, -1⟩, shift := ⟨0, 3⟩ } [
      .group none Transform.identity [
        .path { Path.ofCommands [.moveTo false ⟨0, -0.0⟩, .arcTo true ⟨⟨1, 2⟩, 30, true, false⟩ ⟨3, 4⟩, .close] with
          name := some ""
          fill := some (.radial [⟨0, "FF00A0F0"⟩, ⟨1, "00000000"⟩] ⟨5, 6⟩ 7)
          strokeColor := some "80123456"
          strokeWidth := some { value := 2 }
          cap := .round }]],
    .path { Path.ofCommands [.lineTo true ⟨1, 1⟩] with fill := some (.solid "FFFFFFFF") }]

theorem read_write_sample :
    sample.Expressible ∧ read .empty (write sample) = ⟨[], .ok (sample.map unsigned)⟩ ∧
      (sample.map unsigned == sample) = true := by
  have hsample : sample.Expressible := by decide +kernel
  exact ⟨hsample, read_write_of_expressible hsample .empty⟩

end Iconsmith.Drawable
