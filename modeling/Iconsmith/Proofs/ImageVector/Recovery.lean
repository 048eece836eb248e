import Iconsmith.Proofs.ImageVector.Calls

/-!
# Recovery of graphics

The source of an icon loses nothing of the graphic but what its normal form does not have. Under the same
names the sources of two graphics are the same line by line, so it is enough to know where the content
stands in the file.
-/

namespace Iconsmith.ImageVector

open Double (unsigned)
open Source (IsLine indent indent_injective isLine_append isLine_block isLine_indent)

section

variable {settings : Source.Settings} {group : Group} {symbol : String} {g g' : Graphic Float}

/-! ### Lines of the file -/

/-- The lines of the content. -/
def contentOf (g : Graphic Float) : List String :=
  (nodesDraft g.nodes).lines

lemma isLine_contentOf (h : g.Colored) : ∀ l ∈ contentOf g, IsLine l :=
  (filled_nodesDraft g.nodes h).isLine

lemma isLine_backingName (h : IsLine symbol) : IsLine (backingName symbol) := by
  refine isLine_append.mpr ⟨by decide, ?_⟩
  unfold Naming.uncapitalize
  split
  · decide
  · next c rest hchars =>
    rw [IsLine, hchars] at h
    rw [IsLine, String.toList_ofList]
    simp only [List.mem_cons, not_or] at h ⊢
    refine ⟨?_, h.2⟩
    cases hupper : c.isUpper with
    | true =>
      have hlower := Naming.isLower_toLower hupper
      intro heq
      rw [← heq] at hlower
      contradiction
    | false => rw [Naming.toLower_of_not_isUpper hupper]; exact h.1

lemma isLine_builderArguments (symbol : String) (g : Graphic Float) :
    ∀ l ∈ builderArguments symbol g, IsLine l := by
  have hvalue {before value after : String} (hbefore : IsLine before) (hvalue : IsLine value)
      (hafter : IsLine after) : IsLine (before ++ value ++ after) :=
    isLine_append.mpr ⟨isLine_append.mpr ⟨hbefore, hvalue⟩, hafter⟩
  simp only [builderArguments, List.forall_mem_cons]
  exact ⟨hvalue (by decide) (isLine_stringLiteral _) (by decide),
    hvalue (by decide) (isLine_doubleLiteral _) (by decide),
    hvalue (by decide) (isLine_doubleLiteral _) (by decide),
    hvalue (by decide) (isLine_floatLiteral _) (by decide),
    hvalue (by decide) (isLine_floatLiteral _) (by decide), by simp⟩

lemma isLine_cachedGetter {backing : String} (hbacking : IsLine backing) {assignment : List String}
    (h : ∀ l ∈ assignment, IsLine l) : ∀ l ∈ cachedGetter backing assignment, IsLine l := by
  have hreturn : ∀ l ∈ ["return " ++ backing ++ "!!"], IsLine l := by
    have hword : IsLine "return " := by decide
    have hmarks : IsLine "!!" := by decide
    simp [isLine_append, hword, hbacking, hmarks]
  have hcondition : IsLine ("if (" ++ backing ++ " != null)") :=
    isLine_append.mpr ⟨isLine_append.mpr ⟨by decide, hbacking⟩, by decide⟩
  refine isLine_block (by decide) (List.forall_mem_append.mpr ⟨List.forall_mem_append.mpr ⟨?_, h⟩,
    hreturn⟩)
  exact isLine_block hcondition hreturn

lemma isLine_assignment (hsymbol : IsLine symbol) {content : List String}
    (h : ∀ l ∈ content, IsLine l) : ∀ l ∈ assignment symbol g content, IsLine l := by
  have hhead : IsLine (backingName symbol ++ " = ImageVector.Builder(") :=
    isLine_append.mpr ⟨isLine_backingName hsymbol, by decide⟩
  have harguments := isLine_indent (isLine_builderArguments symbol g)
  simp only [assignment, List.forall_mem_append, List.forall_mem_cons]
  exact ⟨⟨⟨⟨hhead, harguments⟩, by decide⟩, isLine_indent h⟩, by decide⟩

lemma isLine_property {receiver : String} (hreceiver : IsLine receiver) (hsymbol : IsLine symbol)
    {content : List String} (h : ∀ l ∈ content, IsLine l) :
    ∀ l ∈ property receiver symbol g content, IsLine l := by
  have hbacking := isLine_backingName hsymbol
  have hval : IsLine "public val " := by decide
  have hdot : IsLine "." := by decide
  have htype : IsLine ": ImageVector" := by decide
  have hvar : IsLine "private var " := by decide
  have hnull : IsLine ": ImageVector? = null" := by decide
  have hempty : IsLine "" := by decide
  have hgetter := isLine_indent (isLine_cachedGetter hbacking (isLine_assignment (g := g) hsymbol h))
  simpa [property, isLine_append, hval, hreceiver, hdot, hsymbol, htype, hvar, hbacking, hnull,
    hempty, or_imp, forall_and] using hgetter

lemma isLine_previewDraft {receiver : String} (hreceiver : IsLine receiver)
    (hsymbol : IsLine symbol) : ∀ l ∈ (previewDraft receiver symbol).lines, IsLine l := by
  have himage : IsLine ("Image(imageVector = " ++ receiver ++ "." ++ symbol
      ++ ", contentDescription = \"\")") :=
    isLine_append.mpr ⟨isLine_append.mpr ⟨isLine_append.mpr ⟨isLine_append.mpr
      ⟨by decide, hreceiver⟩, by decide⟩, hsymbol⟩, by decide⟩
  have hfun : IsLine ("private fun " ++ symbol ++ "Preview()") :=
    isLine_append.mpr ⟨isLine_append.mpr ⟨by decide, hsymbol⟩, by decide⟩
  refine List.forall_mem_append.mpr ⟨by decide, isLine_block hfun (isLine_block (by decide) ?_)⟩
  simpa using himage

/-- Among names without line feeds, every line of the file is one line of its text. -/
lemma isLine_iconFile (hpackage : IsLine group.basePackage) (hname : IsLine group.name)
    (hsymbol : IsLine symbol) (hcolors : g.Colored) :
    ∀ l ∈ (iconFile settings group symbol g).lines, IsLine l := by
  have hbody : ∀ l ∈ (iconFile settings group symbol g).body, IsLine l := by
    refine List.forall_mem_append.mpr ⟨List.forall_mem_append.mpr ⟨isLine_property hname hsymbol
      (isLine_contentOf hcolors), ?_⟩, by decide⟩
    split_ifs
    · exact isLine_previewDraft hname hsymbol
    · simp [Draft.empty]
  exact List.forall_mem_append.mpr
    ⟨CodeFile.isLine_header (isLine_packageOf hpackage group.names)
      (isLine_imports_iconFile hpackage hname), hbody⟩

/-! ### Where the content stands -/

lemma builderArguments_inj (h : builderArguments symbol g = builderArguments symbol g') :
    unsigned g.width.toDp = unsigned g'.width.toDp
      ∧ unsigned g.height.toDp = unsigned g'.height.toDp
      ∧ g.viewport.map unsigned = g'.viewport.map unsigned := by
  have hvalue {before value value' after : String}
      (h : before ++ value ++ after = before ++ value' ++ after) : value = value' :=
    (String.append_right_inj before).mp ((String.append_left_inj after).mp h)
  simp only [builderArguments, List.cons.injEq, and_true, true_and] at h
  obtain ⟨hwidth, hheight, hx, hy⟩ := h
  refine ⟨doubleLiteral_inj (hvalue hwidth), doubleLiteral_inj (hvalue hheight), ?_⟩
  rw [Point.map, Point.map, floatLiteral_inj (hvalue hx), floatLiteral_inj (hvalue hy)]

lemma cachedGetter_injective (backing : String) : Function.Injective (cachedGetter backing) := by
  intro xs ys h
  exact List.append_cancel_left (List.append_cancel_right (Source.block_injective _ h))

lemma assignment_inj {content content' : List String}
    (h : assignment symbol g content = assignment symbol g' content') :
    builderArguments symbol g = builderArguments symbol g' ∧ content = content' := by
  simp only [assignment, List.cons_append, List.append_assoc, List.nil_append, List.cons.injEq,
    true_and] at h
  obtain ⟨harguments, h⟩ := List.append_inj h (by simp [builderArguments, Source.length_indent])
  exact ⟨indent_injective harguments,
    indent_injective (List.append_cancel_right (List.cons.inj h).2)⟩

lemma property_inj {receiver : String} {content content' : List String}
    (h : property receiver symbol g content = property receiver symbol g' content') :
    builderArguments symbol g = builderArguments symbol g' ∧ content = content' :=
  assignment_inj (cachedGetter_injective _
    (indent_injective (List.cons.inj (List.append_cancel_right h)).2))

lemma body_iconFile_inj (h : (iconFile settings group symbol g).body
    = (iconFile settings group symbol g').body) :
    builderArguments symbol g = builderArguments symbol g' ∧ contentOf g = contentOf g' :=
  property_inj (List.append_cancel_right (List.append_cancel_right h))

lemma imports_iconFile_ne_nil : (iconFile settings group symbol g).imports ≠ [] := by
  refine List.ne_nil_of_mem (a := typeName) (mem_sortNames.mpr ?_)
  simp [iconDraft, imports_append]

/-- Files with the same lines are of graphics with the same normal form. -/
lemma iconFile_inj (hcolors : g.Colored) (hcolors' : g'.Colored)
    (h : (iconFile settings group symbol g).lines = (iconFile settings group symbol g').lines) :
    g.normal = g'.normal := by
  have hpackage (g : Graphic Float) : (iconFile settings group symbol g).package
      = group.iconsPackage := rfl
  have hbody := CodeFile.body_eq_of_lines_eq ((hpackage g).trans (hpackage g').symm)
    imports_iconFile_ne_nil imports_iconFile_ne_nil h
  obtain ⟨harguments, hcontent⟩ := body_iconFile_inj hbody
  obtain ⟨hwidth, hheight, hviewport⟩ := builderArguments_inj harguments
  rw [contentOf, contentOf, ← lines_spliceAll g.nodes, ← lines_spliceAll g'.nodes] at hcontent
  have hnodes := nodesDraft_inj (Node.spliceAll g.nodes) (Node.spliceAll g'.nodes)
    (Node.splicedAll_spliceAll g.nodes) (Node.splicedAll_spliceAll g'.nodes)
    (by rwa [Node.pathsOf_spliceAll]) (by rwa [Node.pathsOf_spliceAll]) hcontent
  rw [Graphic.normal, Graphic.normal, hwidth, hheight, hviewport, hnodes]

/-- Generating a source loses nothing: under the same identifiers, graphics with full colors that
have the same source have the same normal form. -/
theorem normal_eq_of_text_eq {f f' : Source.File}
    (hpackage : group.basePackage = "" ∨ Options.isPackage group.basePackage = true)
    (hnames : ∀ n ∈ group.names, Naming.isIdentifier n = true)
    (hcolors : g.Colored) (hcolors' : g'.Colored)
    (h : icon settings group symbol g = .ok f) (h' : icon settings group symbol g' = .ok f')
    (htext : f.text = f'.text) : g.normal = g'.normal := by
  obtain ⟨hsymbol, -, hf⟩ := icon_eq_ok h
  obtain ⟨-, -, hf'⟩ := icon_eq_ok h'
  have hpackage : IsLine group.basePackage := by
    rcases hpackage with hempty | hpackage
    · rw [hempty]
      decide
    · exact (isPackage_of_options hpackage).isLine
  have hname : IsLine group.name :=
    Source.isLine_of_isWord (Naming.isWord_of_isIdentifier (hnames _ group.name_mem_names))
  have hsymbol : IsLine symbol := Source.isLine_of_isWord (Naming.isWord_of_isIdentifier hsymbol)
  have hne (g : Graphic Float) : (iconFile settings group symbol g).lines ≠ [] := by
    simp [CodeFile.lines, imports_iconFile_ne_nil]
  rw [hf, hf'] at htext
  exact iconFile_inj hcolors hcolors' (Source.textOf_injOn
    (isLine_iconFile hpackage hname hsymbol hcolors)
    (isLine_iconFile hpackage hname hsymbol hcolors') (hne g) (hne g') htext)

end

/-! ### A square -/

/-- A square with its corner at a zero, of either sign. -/
def squarePath (zero : Float) (width : Length Float) : Path Float :=
  { Path.ofCommands [.moveTo false ⟨zero, 0⟩, .lineTo true ⟨12, 0⟩, .verticalTo true 12, .close] with
    fill := some (.solid "FF204060"), strokeColor := some "ff000000", strokeWidth := some width }

/-- A square in a graphic. -/
def squareGraphic : Graphic Float where
  width := ⟨24, some .dp⟩
  height := ⟨24, some .dp⟩
  viewport := ⟨24, 24⟩
  nodes := [.path (squarePath 0 ⟨1.5, none⟩)]

/-- The same with other units, another sign and a group that does nothing. -/
def squareVariant : Graphic Float where
  width := ⟨24, some .px⟩
  height := ⟨24, none⟩
  viewport := ⟨24, 24⟩
  nodes := [.group none .identity [.path (squarePath (-0) ⟨1.5, some .px⟩)]]

theorem normal_squareVariant :
    ∃ f f', icon ⟨false, "AllAssets"⟩ ⟨"com.app", "Icons", ["Shapes"]⟩ "Square" squareGraphic = .ok f
      ∧ icon ⟨false, "AllAssets"⟩ ⟨"com.app", "Icons", ["Shapes"]⟩ "Square" squareVariant = .ok f'
      ∧ f.text = f'.text ∧ squareGraphic.normal = squareVariant.normal := by
  have hicon {g : Graphic Float} (hg : (Source.checkFinite g).toBool = true) :
      ∃ f, icon ⟨false, "AllAssets"⟩ ⟨"com.app", "Icons", ["Shapes"]⟩ "Square" g = .ok f := by
    have hsymbol : Source.checkSymbol .declarativeUi "Square" = .ok () :=
      Source.Backend.checkSymbol_eq_ok.mpr (by decide)
    rw [icon, hsymbol, ok_bind]
    cases hfinite : Source.checkFinite g with
    | error e =>
      rw [hfinite] at hg
      contradiction
    | ok => exact ⟨_, rfl⟩
  obtain ⟨f, hf⟩ := hicon (g := squareGraphic) (by decide +kernel)
  obtain ⟨f', hf'⟩ := hicon (g := squareVariant) (by decide +kernel)
  have hnodes : nodesDraft squareGraphic.nodes = nodesDraft squareVariant.nodes := by
    decide +kernel
  have harguments : builderArguments "Square" squareGraphic
      = builderArguments "Square" squareVariant := by
    decide +kernel
  have htext : f.text = f'.text := by
    rw [(icon_eq_ok hf).2.2, (icon_eq_ok hf').2.2]
    simp only [iconFile, iconDraft, property, assignment, hnodes, harguments]
  exact ⟨f, f', hf, hf', htext, normal_eq_of_text_eq (Or.inr (by decide)) (by decide) (by decide)
    (by decide) hf hf' htext⟩

end Iconsmith.ImageVector
