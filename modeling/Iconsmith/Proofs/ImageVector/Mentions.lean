import Iconsmith.Proofs.ImageVector.Imports
import Iconsmith.Proofs.ImageVector.PlainGroups

/-!
# Imports that are named

What the file of an icon imports is named in its body: each name of the code stands there between characters
that are not in names. So the imports are those that the body needs.
-/

namespace Iconsmith.ImageVector

open Source (IsLine)
open Text (Avoids)

variable {settings : Source.Settings} {group : Group} {symbol : String} {g : Graphic Float} {n : String}

/-! ### What a body names -/

/-- The characters of names. -/
def isNameChar (c : Char) : Bool :=
  Naming.isAlphanumeric c || c = '_'

/-- A line names a word: it holds the word apart from other characters of names. -/
def NamesWord (line word : String) : Prop :=
  ∃ before after, line = before ++ word ++ after
    ∧ Avoids isNameChar before.toList.reverse ∧ Avoids isNameChar after.toList

/-- One of the lines names a word. -/
def Mentions (lines : List String) (word : String) : Prop :=
  ∃ l ∈ lines, NamesWord l word

section

variable {word text before after : String}

lemma avoids_before {s : String} (hs : s ≠ "" ∧ Avoids isNameChar s.toList.reverse) (before : String) :
    Avoids isNameChar (before ++ s).toList.reverse := by
  rw [String.toList_append, List.reverse_append]
  exact hs.2.append_of_ne_nil (by simpa using hs.1)

lemma avoids_after {s : String} (hs : s ≠ "" ∧ Avoids isNameChar s.toList) (after : String) :
    Avoids isNameChar (s ++ after).toList := by
  rw [String.toList_append]
  exact hs.2.append_of_ne_nil (by simpa using hs.1)

/-- A word stands apart if there is something else before and after it. -/
lemma namesWord_between {s t : String} (hs : s ≠ "" ∧ Avoids isNameChar s.toList.reverse)
    (ht : t ≠ "" ∧ Avoids isNameChar t.toList) :
    NamesWord (before ++ s ++ word ++ (t ++ after)) word :=
  ⟨before ++ s, t ++ after, rfl, avoids_before hs before, avoids_after ht after⟩

/-- A word at the beginning stands apart if there is something else after it. -/
lemma namesWord_first {t : String} (ht : t ≠ "" ∧ Avoids isNameChar t.toList) :
    NamesWord (word ++ (t ++ after)) word :=
  ⟨"", t ++ after, by rw [String.empty_append], by decide, avoids_after ht after⟩

lemma NamesWord.append_left {s : String} (hs : Avoids isNameChar s.toList.reverse)
    (h : NamesWord text word) : NamesWord (s ++ text) word := by
  obtain ⟨before, after, rfl, hbefore, hafter⟩ := h
  refine ⟨s ++ before, after, by simp only [String.append_assoc], ?_, hafter⟩
  rw [String.toList_append, List.reverse_append]
  exact hbefore.append hs

lemma NamesWord.append_right {s : String} (hs : Avoids isNameChar s.toList)
    (h : NamesWord text word) : NamesWord (text ++ s) word := by
  obtain ⟨before, after, rfl, hbefore, hafter⟩ := h
  refine ⟨before, after ++ s, by simp only [String.append_assoc], hbefore, ?_⟩
  rw [String.toList_append]
  exact hafter.append hs

lemma NamesWord.argument {value : Phrase} (h : NamesWord value.text word) (name : String) :
    NamesWord (argument name value).text word :=
  h.append_left (avoids_before (by decide) name)

end

namespace Mentions

variable {xs ys : List String} {word : String}

lemma append_left (h : Mentions ys word) (xs : List String) : Mentions (xs ++ ys) word := by
  obtain ⟨l, hl, hword⟩ := h
  exact ⟨l, List.mem_append_right _ hl, hword⟩

lemma append_right (h : Mentions xs word) (ys : List String) : Mentions (xs ++ ys) word := by
  obtain ⟨l, hl, hword⟩ := h
  exact ⟨l, List.mem_append_left _ hl, hword⟩

lemma cons (h : Mentions xs word) (x : String) : Mentions (x :: xs) word :=
  h.append_left [x]

lemma indent (h : Mentions xs word) : Mentions (Source.indent xs) word := by
  obtain ⟨l, hl, hword⟩ := h
  refine ⟨_, List.mem_map_of_mem hl, ?_⟩
  split_ifs
  · exact hword
  · exact hword.append_left (by decide)

lemma block (h : Mentions xs word) (head : String) : Mentions (Source.block head xs) word :=
  (h.indent.cons _).append_right _

end Mentions

/-! ### What calls name -/

lemma namesWord_solidBrush (color : String) :
    NamesWord (solidBrush color).text "SolidColor" ∧ NamesWord (solidBrush color).text "Color" := by
  have hsolid : (solidBrush color).text = "SolidColor" ++ ("(" ++ (colorCall color ++ ")")) :=
    String.toList_inj.mp (by simp [solidBrush])
  have hcolor : (solidBrush color).text = "SolidColor" ++ "(" ++ "Color" ++ ("(0x" ++ (color ++ "))")) :=
    String.toList_inj.mp (by simp [solidBrush, colorCall])
  constructor
  · rw [hsolid]
    exact namesWord_first (by decide)
  · rw [hcolor]
    exact namesWord_between (by decide) (by decide)

/-- A gradient names brushes, points and the colors of its stops. -/
lemma namesWord_gradient {f : Fill Float} (hf : f.isGradient = true) (hstops : f.stops ≠ []) :
    NamesWord (brush f).text "Brush" ∧ NamesWord (brush f).text "Offset"
      ∧ NamesWord (brush f).text "Color" := by
  obtain ⟨kind, point, rest, htext⟩ : ∃ kind point rest,
      (brush f).text = "Brush." ++ kind ++ stopPairs f.stops ++ point ++ " = Offset(" ++ rest := by
    cases f with
    | solid color => contradiction
    | linear stops start finish =>
      refine ⟨"linearGradient(", ", start", floatLiteral start.x ++ ", " ++ floatLiteral start.y
        ++ "), end = " ++ offsetCall finish ++ ")", String.toList_inj.mp ?_⟩
      simp [brush, gradientBrush, offsetCall, Fill.stops]
    | radial stops center radius =>
      refine ⟨"radialGradient(", ", center", floatLiteral center.x ++ ", " ++ floatLiteral center.y
        ++ "), radius = " ++ floatLiteral radius ++ ")", String.toList_inj.mp ?_⟩
      simp [brush, gradientBrush, offsetCall, Fill.stops]
  obtain ⟨stop, stops, hcons⟩ := List.exists_cons_of_ne_nil hstops
  obtain ⟨others, hothers⟩ : ∃ others, stopPairs f.stops = stopPair stop ++ others := by
    obtain ⟨others, hothers⟩ := Source.exists_intercalate_cons ", " (stops.map stopPair)
    exact ⟨others, by rw [hcons, stopPairs, List.map_cons, Source.commaList, hothers]⟩
  have hbrush : (brush f).text = "Brush" ++ ("." ++ (kind ++ stopPairs f.stops ++ point
      ++ " = Offset(" ++ rest)) :=
    String.toList_inj.mp (by simp [htext])
  have hoffset : (brush f).text = "Brush." ++ kind ++ stopPairs f.stops ++ point ++ " = " ++ "Offset"
      ++ ("(" ++ rest) :=
    String.toList_inj.mp (by simp [htext])
  have hcolor : (brush f).text = "Brush." ++ kind ++ floatLiteral stop.offset ++ " to " ++ "Color"
      ++ ("(0x" ++ (stop.color ++ ")" ++ others ++ point ++ " = Offset(" ++ rest)) :=
    String.toList_inj.mp (by simp [htext, hothers, stopPair, colorCall])
  refine ⟨?_, ?_, ?_⟩
  · rw [hbrush]
    exact namesWord_first (by decide)
  · rw [hoffset]
    exact namesWord_between (by decide) (by decide)
  · rw [hcolor]
    exact namesWord_between (by decide) (by decide)

/-- A path names what its arguments name. -/
lemma mentions_pathDraft {p : Path Float} {a : Phrase} {word : String} (ha : a ∈ pathArguments p)
    (h : NamesWord a.text word) : Mentions (pathDraft p).lines word := by
  have hhead : pathHead (pathArguments p) = "path("
      :: Source.indent ((pathArguments p).map (·.text ++ ",")) ++ [") \x7b"] :=
    if_neg (by simpa using List.ne_nil_of_mem ha)
  have harguments : Mentions ((pathArguments p).map (·.text ++ ",")) word :=
    ⟨_, List.mem_map_of_mem ha, h.append_right (by decide)⟩
  rw [pathDraft, hhead]
  exact (((harguments.indent.cons _).append_right _).append_right _).append_right _

lemma mentions_path (p : Path Float) : Mentions (pathDraft p).lines "path" := by
  have hhead : ∃ l rest, pathHead (pathArguments p) = l :: rest ∧ NamesWord l "path" := by
    unfold pathHead
    split_ifs
    · exact ⟨_, _, rfl, "", " \x7b", by decide, by decide, by decide⟩
    · exact ⟨_, _, rfl, "", "(", by decide, by decide, by decide⟩
  obtain ⟨l, rest, hhead, hword⟩ := hhead
  rw [pathDraft, hhead]
  exact ⟨l, List.mem_cons_self, hword⟩

lemma mentions_fill {p : Path Float} {f : Fill Float} {word : String} (hf : p.fill = some f)
    (h : NamesWord (brush f).text word) : Mentions (pathDraft p).lines word :=
  mentions_pathDraft (a := argument "fill" (brush f)) (by simp [pathArguments, hf]) (h.argument "fill")

lemma mentions_stroke {p : Path Float} {word : String} (hp : p.strokeColor ≠ none)
    (h : ∀ color, NamesWord (solidBrush color).text word) : Mentions (pathDraft p).lines word := by
  obtain ⟨color, hcolor⟩ := Option.ne_none_iff_exists'.mp hp
  exact mentions_pathDraft (a := argument "stroke" (solidBrush color))
    (by simp [pathArguments, hcolor]) ((h color).argument "stroke")

/-- The argument of a choice names the type of the choice. -/
lemma mentions_choice {p : Path Float} {α : Type} [DecidableEq α] {name type : String}
    {constant : α → String} {x default : α} (hx : x ≠ default)
    (h : choiceArgument name type constant x default ⊆ pathArguments p) :
    Mentions (pathDraft p).lines type := by
  have hargument : choiceArgument name type constant x default
      = [argument name ⟨type ++ "." ++ constant x, [graphicsName type]⟩] := if_neg hx
  have hword : NamesWord (argument name ⟨type ++ "." ++ constant x, [graphicsName type]⟩).text type := by
    refine NamesWord.argument ?_ name
    rw [String.append_assoc]
    exact namesWord_first (by decide)
  refine mentions_pathDraft (h ?_) hword
  rw [hargument]
  exact List.mem_cons_self

lemma choices_subset_pathArguments (p : Path Float) :
    choiceArgument "strokeLineCap" "StrokeCap" capName p.cap .butt ⊆ pathArguments p
      ∧ choiceArgument "strokeLineJoin" "StrokeJoin" joinName p.join .miter ⊆ pathArguments p
      ∧ choiceArgument "pathFillType" "PathFillType" fillRuleName p.fillRule .nonZero ⊆ pathArguments p := by
  refine ⟨fun a ha => ?_, fun a ha => ?_, fun a ha => ?_⟩ <;> simp [pathArguments, ha]

lemma mentions_group {name : Option String} {t : Transform Float} (h : isPlainGroup name t = false)
    (children : List (Node Float)) : Mentions (nodeDraft (.group name t children)).lines "group" := by
  have hhead : groupHead name t ++ " \x7b"
      = "group" ++ ("(" ++ (Source.commaList (texts (groupArguments name t)) ++ ") \x7b")) :=
    String.toList_inj.mp (by simp [groupHead])
  have hword : NamesWord (groupHead name t ++ " \x7b") "group" := by
    rw [hhead]
    exact namesWord_first (by decide)
  rw [lines_nodeDraft_group h]
  exact ⟨_, List.mem_cons_self, hword⟩

lemma simpleName_graphicsName {name : String} (h : Naming.isIdentifier name = true) :
    simpleName (graphicsName name) = name := by
  have hpackage : "androidx.compose.ui.graphics." = "androidx.compose.ui.graphics" ++ "." := by
    decide
  have hname : graphicsName name = "androidx.compose.ui.graphics" ++ "." ++ name :=
    congrArg (· ++ name) hpackage
  rw [hname, simpleName_append _ h]

lemma simpleName_vectorName {name : String} (h : Naming.isIdentifier name = true) :
    simpleName (vectorName name) = name := by
  have hpackage : "androidx.compose.ui.graphics." ++ "vector."
      = "androidx.compose.ui.graphics.vector" ++ "." := by
    decide
  have hname : vectorName name = "androidx.compose.ui.graphics.vector" ++ "." ++ name :=
    (String.append_assoc ..).symm.trans (congrArg (· ++ name) hpackage)
  rw [hname, simpleName_append _ h]

/-- What a path or a group imports is named in its call, if gradients have stops. -/
lemma mentions_nodeDraft {m : Node Float} (h : NodeImports m n)
    (hstops : ∀ p f, m = .path p → p.fill = some f → f.isGradient = true → f.stops ≠ []) :
    Mentions (nodeDraft m).lines (simpleName n) := by
  cases h with
  | group called =>
    rw [simpleName_vectorName (by decide)]
    exact mentions_group (isPlainGroup_eq_false.mpr called) _
  | path =>
    rw [simpleName_vectorName (by decide), nodeDraft]
    exact mentions_path _
  | solidColor single =>
    rw [simpleName_graphicsName (by decide), nodeDraft]
    rcases single with ⟨c, hc⟩ | hstroke
    · exact mentions_fill hc (namesWord_solidBrush c).1
    · exact mentions_stroke hstroke fun color => (namesWord_solidBrush color).1
  | @color p painted =>
    rw [simpleName_graphicsName (by decide), nodeDraft]
    rcases painted with hfill | hstroke
    · obtain ⟨f, hf⟩ := Option.ne_none_iff_exists'.mp hfill
      refine mentions_fill hf ?_
      cases hblends : f.isGradient with
      | true => exact (namesWord_gradient hblends (hstops p f rfl hf hblends)).2.2
      | false =>
        cases f with
        | solid c => exact (namesWord_solidBrush c).2
        | linear => contradiction
        | radial => contradiction
    · exact mentions_stroke hstroke fun color => (namesWord_solidBrush color).2
  | @brush p f filled blends =>
    rw [simpleName_graphicsName (by decide), nodeDraft]
    exact mentions_fill filled (namesWord_gradient blends (hstops p f rfl filled blends)).1
  | @offset p f filled blends =>
    have hoffset : simpleName offsetName = "Offset" := by decide
    rw [hoffset, nodeDraft]
    exact mentions_fill filled (namesWord_gradient blends (hstops p f rfl filled blends)).2.1
  | cap other =>
    rw [simpleName_graphicsName (by decide), nodeDraft]
    exact mentions_choice other (choices_subset_pathArguments _).1
  | join other =>
    rw [simpleName_graphicsName (by decide), nodeDraft]
    exact mentions_choice other (choices_subset_pathArguments _).2.1
  | @fillRule p other =>
    have hrule : p.fillRule ≠ .nonZero := by simp [other]
    rw [simpleName_graphicsName (by decide), nodeDraft]
    exact mentions_choice hrule (choices_subset_pathArguments _).2.2

/-- What a node names is named wherever the node stands. -/
lemma mentions_nodesDraft {m : Node Float} {word : String} (h : Mentions (nodeDraft m).lines word)
    (c : Context Float) : Mentions (nodesDraft (c.fill [m])).lines word := by
  have hamong {d : Node Float} (hd : Mentions (nodeDraft d).lines word) (before after : List (Node Float)) :
      Mentions (nodesDraft (before ++ [d] ++ after)).lines word := by
    rw [nodesDraft_append, nodesDraft_append, nodesDraft_singleton]
    exact (hd.append_left _).append_right _
  induction c with
  | siblings before after => exact hamong h before after
  | inside before name t c after ih =>
    refine hamong ?_ before after
    cases hplain : isPlainGroup name t with
    | true => rwa [nodeDraft_plain hplain]
    | false =>
      rw [lines_nodeDraft_group hplain]
      exact ih.block _

/-! ### What an icon names -/

/-- The simple name stands at the end of a name, behind a point if there is more of it. -/
lemma exists_simpleName (name : String) :
    ∃ before, name = before ++ simpleName name ∧ Avoids isNameChar before.toList.reverse := by
  obtain ⟨init, last, hparts⟩ : ∃ init last, packageParts name = init ++ [last] :=
    ⟨_, _, (List.dropLast_append_getLast (by simp [packageParts, List.splitOn_ne_nil])).symm⟩
  have hname : simpleName name = last := by
    rw [simpleName, hparts, List.getLastD_concat]
  have hjoin : ".".intercalate (init ++ [last]) = name := by
    have hdot : ".".toList = ['.'] := rfl
    have hlists : (packageParts name).map String.toList = name.toList.splitOn '.' := by
      simp [packageParts, Function.comp_def]
    rw [← hparts, ← String.toList_inj, String.toList_intercalate, hlists, hdot, List.intercalate_splitOn]
  rw [hname]
  rcases eq_or_ne init [] with rfl | hinit
  · exact ⟨"", by simpa using hjoin.symm, by decide⟩
  · refine ⟨".".intercalate init ++ ".", ?_, ?_⟩
    · rw [← hjoin, String.intercalate_append_of_ne_nil hinit (List.cons_ne_nil last []),
        String.intercalate_singleton]
    · exact avoids_before (by decide) _

/-- The declaration of an icon names its type and the object of the group. -/
lemma namesWord_iconLine (name symbol : String) :
    NamesWord (iconLine name symbol) "ImageVector"
      ∧ NamesWord (iconLine name symbol) (simpleName name) := by
  obtain ⟨before, hbefore, havoids⟩ := exists_simpleName name
  constructor
  · refine ⟨"public val " ++ name ++ "." ++ symbol ++ ": ", "", ?_, ?_, by decide⟩
    · exact String.toList_inj.mp (by simp [iconLine])
    · exact avoids_before (by decide) _
  · refine ⟨"public val " ++ before, "." ++ symbol ++ ": ImageVector", ?_, ?_, ?_⟩
    · conv_lhs => rw [iconLine, hbefore]
      simp only [String.append_assoc]
    · rw [String.toList_append, List.reverse_append]
      exact havoids.append (by decide)
    · rw [String.append_assoc]
      exact avoids_after (by decide) _

/-- What the statement that builds an icon names is named in the declaration. -/
lemma mentions_property {content : List String} {word : String}
    (h : Mentions (assignment symbol g content) word) (receiver : String) :
    Mentions (property receiver symbol g content) word :=
  ((((h.append_left _).append_right _).block _).indent.cons _).append_right _

lemma mentions_dp (content : List String) : Mentions (assignment symbol g content) "dp" := by
  have hargument : Mentions (builderArguments symbol g) "dp" := by
    have hline : "defaultWidth = " ++ doubleLiteral g.width.toDp ++ ".dp,"
        = "defaultWidth = " ++ doubleLiteral g.width.toDp ++ "." ++ "dp" ++ ("," ++ "") :=
      String.toList_inj.mp (by simp)
    refine ⟨_, List.mem_cons_of_mem _ List.mem_cons_self, ?_⟩
    rw [hline]
    exact namesWord_between (by decide) (by decide)
  exact (((hargument.indent.cons _).append_right _).append_right _).append_right _

/-- A preview names all that it imports. -/
lemma mentions_previewDraft (receiver symbol : String) (hn : n ∈ previewImports) :
    Mentions (previewDraft receiver symbol).lines (simpleName n) := by
  have hnames : previewImports.map simpleName
      = ["Image", "Box", "padding", "Composable", "Modifier", "Preview"] :=
    congrArg (List.drop 11) map_simpleName_apiNames
  have hbox {word : String} (h : NamesWord "Box(modifier = Modifier.padding(12.dp)) \x7b" word) :
      Mentions (previewDraft receiver symbol).lines word := by
    refine (Mentions.block ?_ _).append_left _
    exact ⟨_, List.mem_cons_self, h⟩
  have himage : Mentions (previewDraft receiver symbol).lines "Image" := by
    refine ((Mentions.block ?_ _).block _).append_left _
    have hline : "Image(imageVector = " ++ receiver ++ "." ++ symbol ++ ", contentDescription = \"\")"
        = "Image" ++ ("(" ++ ("imageVector = " ++ receiver ++ "." ++ symbol
          ++ ", contentDescription = \"\")")) :=
      String.toList_inj.mp (by simp)
    refine ⟨_, List.mem_singleton_self _, ?_⟩
    rw [hline]
    exact namesWord_first (by decide)
  have hword := List.mem_map_of_mem (f := simpleName) hn
  rw [hnames] at hword
  simp only [List.mem_cons, List.not_mem_nil, or_false] at hword
  rcases hword with hword | hword | hword | hword | hword | hword <;> rw [hword]
  · exact himage
  · exact hbox ⟨"", "(modifier = Modifier.padding(12.dp)) \x7b", by decide, by decide, by decide⟩
  · exact hbox ⟨"Box(modifier = Modifier.", "(12.dp)) \x7b", by decide, by decide, by decide⟩
  · exact ⟨"@Composable", by simp [previewDraft], "@", "", by decide, by decide, by decide⟩
  · exact hbox ⟨"Box(modifier = ", ".padding(12.dp)) \x7b", by decide, by decide, by decide⟩
  · exact ⟨"@Preview", by simp [previewDraft], "@", "", by decide, by decide, by decide⟩

/-- The body of an icon names all that the file imports. -/
lemma mentions_body (hn : n ∈ (iconFile settings group symbol g).imports)
    (hstops : ∀ p f, .path p ∈ g.allNodes → p.fill = some f → f.isGradient = true → f.stops ≠ []) :
    Mentions (iconFile settings group symbol g).body (simpleName n) := by
  have hdeclaration {word : String}
      (h : Mentions (property group.name symbol g (nodesDraft g.nodes).lines) word) :
      Mentions (iconFile settings group symbol g).body word :=
    (h.append_right _).append_right _
  have hline {word : String} (h : NamesWord (iconLine group.name symbol) word) :
      Mentions (iconFile settings group symbol g).body word :=
    hdeclaration ⟨_, List.mem_cons_self, h⟩
  cases mem_imports_iff.mp hn with
  | type =>
    rw [typeName, simpleName_vectorName (by decide)]
    exact hline (namesWord_iconLine group.name symbol).1
  | dp =>
    have hdp : simpleName "androidx.compose.ui.unit.dp" = "dp" := by decide
    rw [hdp]
    exact hdeclaration (mentions_property (mentions_dp _) _)
  | object =>
    rw [simpleName_dot]
    exact hline (namesWord_iconLine group.name symbol).2
  | preview shown member =>
    have hpreview := mentions_previewDraft group.name symbol member
    have hdraft : (if settings.preview then previewDraft group.name symbol else .empty)
        = previewDraft group.name symbol := if_pos shown
    rw [iconFile, CodeFile.ofDraft, iconDraft, hdraft]
    exact (hpreview.append_left _).append_right _
  | node among named =>
    obtain ⟨c, hc⟩ := Context.mem_allNodes_iff.mp among
    have hnode := mentions_nodeDraft named fun p f hp => hstops p f (hp ▸ among)
    refine hdeclaration (mentions_property ?_ _)
    rw [hc]
    exact ((mentions_nodesDraft hnode c).indent.append_left _).append_right _

/-- A source imports what its graphic needs, in ascending order and each name once, as can be read from the
text if no name of the group holds a line feed. If all gradients have stops, every import is named in the
body. -/
theorem imports_of_icon {f : Source.File} (h : icon settings group symbol g = .ok f) :
    f.text = (iconFile settings group symbol g).text
      ∧ (iconFile settings group symbol g).imports.Pairwise (· < ·)
      ∧ (∀ n, n ∈ (iconFile settings group symbol g).imports ↔ IconImports settings group g n)
      ∧ (IsLine group.basePackage → IsLine group.name →
        importsOf f.text = (iconFile settings group symbol g).imports)
      ∧ ((∀ p a, .path p ∈ g.allNodes → p.fill = some a → a.isGradient = true → a.stops ≠ []) →
        ∀ n ∈ (iconFile settings group symbol g).imports,
          Mentions (iconFile settings group symbol g).body (simpleName n)) := by
  obtain ⟨hsymbol, -, htext⟩ := icon_eq_ok h
  refine ⟨htext, pairwise_sortNames _, fun n => mem_imports_iff, fun hpackage hname => ?_,
    fun hstops n hn => mentions_body hn hstops⟩
  rw [htext]
  exact (readable_iconFile hpackage hname hsymbol).importsOf_text

theorem imports_of_disc :
    ∃ f, icon ⟨false, "AllAssets"⟩ ⟨"com.app", "Icons", ["Shapes"]⟩ "Disc" (discGraphic 24) = .ok f
      ∧ importsOf f.text = ["androidx.compose.ui.geometry.Offset", "androidx.compose.ui.graphics.Brush",
        "androidx.compose.ui.graphics.Color", "androidx.compose.ui.graphics.vector.ImageVector",
        "androidx.compose.ui.graphics.vector.group", "androidx.compose.ui.graphics.vector.path",
        "androidx.compose.ui.unit.dp", "com.app.icons.Shapes"]
      ∧ Mentions (iconFile ⟨false, "AllAssets"⟩ ⟨"com.app", "Icons", ["Shapes"]⟩ "Disc"
        (discGraphic 24)).body "Offset" := by
  obtain ⟨f, hf⟩ : ∃ f, icon ⟨false, "AllAssets"⟩ ⟨"com.app", "Icons", ["Shapes"]⟩ "Disc"
      (discGraphic 24) = .ok f := exists_icon (by decide) (by decide +kernel)
  obtain ⟨-, -, -, himports, hmentions⟩ := imports_of_icon hf
  have hnames : (iconFile ⟨false, "AllAssets"⟩ ⟨"com.app", "Icons", ["Shapes"]⟩ "Disc"
      (discGraphic 24)).imports = ["androidx.compose.ui.geometry.Offset",
        "androidx.compose.ui.graphics.Brush", "androidx.compose.ui.graphics.Color",
        "androidx.compose.ui.graphics.vector.ImageVector", "androidx.compose.ui.graphics.vector.group",
        "androidx.compose.ui.graphics.vector.path", "androidx.compose.ui.unit.dp",
        "com.app.icons.Shapes"] := by
    decide +kernel
  refine ⟨f, hf, (himports (by decide) (by decide)).trans hnames, ?_⟩
  have hoffset : simpleName offsetName = "Offset" := by decide +kernel
  rw [← hoffset]
  refine hmentions ?_ offsetName (by rw [hnames]; exact List.mem_cons_self)
  intro p a hp ha _
  have hdisc : p.fill = some (.radial [⟨0, "FF204060"⟩, ⟨1, "00204060"⟩] ⟨12, 12⟩ 10) := by
    simp only [discGraphic, Graphic.allNodes, Node.allOf, Node.all, List.append_nil, List.mem_cons,
      List.not_mem_nil, or_false, Node.path.injEq, reduceCtorEq, false_or] at hp
    rw [hp]
  obtain rfl := Option.some.inj (ha.symm.trans hdisc)
  exact List.cons_ne_nil _ _

end Iconsmith.ImageVector
