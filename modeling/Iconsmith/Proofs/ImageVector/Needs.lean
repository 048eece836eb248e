import Iconsmith.Proofs.Graphic.Contexts
import Iconsmith.Proofs.ImageVector.Arguments
import Iconsmith.Proofs.ImageVector.Headers

/-!
# What an icon imports

The calls of a path and of a group import what they name, and the calls of a tree import what those of its
paths and groups do. So the imports of an icon are told by the paths and groups at any depth.
-/

namespace Iconsmith.ImageVector

/-! ### Pieces of code -/

lemma imports_numberArgument (name : String) (x default : Float) :
    (numberArgument name x default).flatMap (·.imports) = [] := by
  unfold numberArgument
  split_ifs <;> rfl

lemma imports_nameArgument (name : Option String) :
    (nameArgument name).flatMap (·.imports) = [] := by
  cases name <;> rfl

lemma imports_groupArguments (name : Option String) (t : Transform Float) :
    (groupArguments name t).flatMap (·.imports) = [] := by
  simp only [groupArguments, List.flatMap_append, imports_numberArgument, imports_nameArgument,
    List.append_nil]

lemma imports_append (a b : Draft) : (a ++ b).imports = a.imports ++ b.imports := rfl

lemma lines_append (a b : Draft) : (a ++ b).lines = a.lines ++ b.lines := rfl

lemma imports_nodeDraft_group {name : Option String} {t : Transform Float}
    (h : isPlainGroup name t = false) (children : List (Node Float)) :
    (nodeDraft (.group name t children)).imports
      = vectorName "group" :: (nodesDraft children).imports := by
  rw [nodeDraft, groupDraft, isEmpty_groupArguments, h, if_neg Bool.false_ne_true]
  simp only [Draft.block, imports_groupArguments, List.singleton_append]

lemma nodeDraft_plain {name : Option String} {t : Transform Float}
    (h : isPlainGroup name t = true) (children : List (Node Float)) :
    nodeDraft (.group name t children) = nodesDraft children := by
  rw [nodeDraft, groupDraft, isEmpty_groupArguments, h, if_pos rfl]

/-- A group that is called is not plain. -/
lemma isPlainGroup_eq_false {name : Option String} {t : Transform Float} :
    isPlainGroup name t = false ↔ name ≠ none ∨ t.isIdentity = false := by
  cases name <;> simp [isPlainGroup]

/-! ### What a node imports -/

/-- What a path or a group imports, without what is below it. -/
inductive NodeImports : Node Float → String → Prop
  | path {p : Path Float} : NodeImports (.path p) (vectorName "path")
  | group {name : Option String} {t : Transform Float} {children : List (Node Float)}
      (called : name ≠ none ∨ t.isIdentity = false) :
      NodeImports (.group name t children) (vectorName "group")
  | solidColor {p : Path Float} (single : (∃ c, p.fill = some (.solid c)) ∨ p.strokeColor ≠ none) :
      NodeImports (.path p) (graphicsName "SolidColor")
  | color {p : Path Float} (painted : p.fill ≠ none ∨ p.strokeColor ≠ none) :
      NodeImports (.path p) (graphicsName "Color")
  | brush {p : Path Float} {f : Fill Float} (filled : p.fill = some f) (blends : f.isGradient = true) :
      NodeImports (.path p) (graphicsName "Brush")
  | offset {p : Path Float} {f : Fill Float} (filled : p.fill = some f) (blends : f.isGradient = true) :
      NodeImports (.path p) offsetName
  | cap {p : Path Float} (other : p.cap ≠ .butt) : NodeImports (.path p) (graphicsName "StrokeCap")
  | join {p : Path Float} (other : p.join ≠ .miter) : NodeImports (.path p) (graphicsName "StrokeJoin")
  | fillRule {p : Path Float} (other : p.fillRule = .evenOdd) :
      NodeImports (.path p) (graphicsName "PathFillType")

variable {n : String}

lemma mem_imports_brush {f : Fill Float} : n ∈ (brush f).imports ↔
    n = graphicsName "Color" ∨ (∃ c, f = .solid c) ∧ n = graphicsName "SolidColor"
      ∨ f.isGradient = true ∧ (n = graphicsName "Brush" ∨ n = offsetName) := by
  cases f <;> simp [brush, solidBrush, gradientBrush, Fill.isGradient] <;> tauto

lemma mem_imports_choiceArgument {α : Type} [DecidableEq α] {name type : String}
    {constant : α → String} {x default : α} :
    n ∈ (choiceArgument name type constant x default).flatMap (·.imports)
      ↔ x ≠ default ∧ n = graphicsName type := by
  unfold choiceArgument
  split_ifs with h <;> simp [h, argument]

/-- The fill, the stroke and the choices that are not the defaults need imports. -/
lemma mem_imports_pathArguments {p : Path Float} :
    n ∈ (pathArguments p).flatMap (·.imports)
      ↔ (∃ f, p.fill = some f ∧ n ∈ (brush f).imports)
        ∨ (p.strokeColor ≠ none ∧ (n = graphicsName "SolidColor" ∨ n = graphicsName "Color"))
        ∨ (p.cap ≠ .butt ∧ n = graphicsName "StrokeCap")
        ∨ (p.join ≠ .miter ∧ n = graphicsName "StrokeJoin")
        ∨ (p.fillRule ≠ .nonZero ∧ n = graphicsName "PathFillType") := by
  have hfill : n ∈ (p.fill.map fun f => argument "fill" (brush f)).toList.flatMap (·.imports)
      ↔ ∃ f, p.fill = some f ∧ n ∈ (brush f).imports := by
    cases p.fill <;> simp [argument]
  have hstroke : n ∈ (p.strokeColor.map fun c => argument "stroke" (solidBrush c)).toList.flatMap
      (·.imports) ↔ p.strokeColor ≠ none ∧ (n = graphicsName "SolidColor" ∨ n = graphicsName "Color") := by
    cases p.strokeColor <;> simp [argument, solidBrush]
  have hwidth : (p.strokeWidth.map fun w =>
      argument "strokeLineWidth" ⟨floatLiteral w.value, []⟩).toList.flatMap (·.imports) = [] := by
    cases p.strokeWidth <;> rfl
  simp only [pathArguments, List.flatMap_append, imports_numberArgument, imports_nameArgument,
    hwidth, List.nil_append, List.append_nil, List.mem_append, hfill, hstroke,
    mem_imports_choiceArgument, or_assoc]

lemma mem_imports_pathDraft {p : Path Float} :
    n ∈ (pathDraft p).imports ↔ NodeImports (.path p) n := by
  rw [pathDraft, List.mem_cons, mem_imports_pathArguments]
  simp only [mem_imports_brush]
  constructor
  · rintro (rfl | ⟨f, hf, rfl | ⟨⟨c, rfl⟩, rfl⟩ | ⟨hblends, rfl | rfl⟩⟩ | ⟨hstroke, rfl | rfl⟩
      | ⟨hcap, rfl⟩ | ⟨hjoin, rfl⟩ | ⟨hrule, rfl⟩)
    · exact .path
    · exact .color (.inl (by simp [hf]))
    · exact .solidColor (.inl ⟨c, hf⟩)
    · exact .brush hf hblends
    · exact .offset hf hblends
    · exact .solidColor (.inr hstroke)
    · exact .color (.inr hstroke)
    · exact .cap hcap
    · exact .join hjoin
    · refine .fillRule ?_
      cases hp : p.fillRule with
      | nonZero => exact absurd hp hrule
      | evenOdd => rfl
  · intro h
    cases h with
    | path => exact .inl rfl
    | solidColor single =>
      rcases single with ⟨c, hc⟩ | hstroke
      · exact .inr (.inl ⟨_, hc, .inr (.inl ⟨⟨c, rfl⟩, rfl⟩)⟩)
      · exact .inr (.inr (.inl ⟨hstroke, .inl rfl⟩))
    | color painted =>
      rcases painted with hfill | hstroke
      · obtain ⟨f, hf⟩ := Option.ne_none_iff_exists'.mp hfill
        exact .inr (.inl ⟨f, hf, .inl rfl⟩)
      · exact .inr (.inr (.inl ⟨hstroke, .inr rfl⟩))
    | brush filled blends => exact .inr (.inl ⟨_, filled, .inr (.inr ⟨blends, .inl rfl⟩)⟩)
    | offset filled blends => exact .inr (.inl ⟨_, filled, .inr (.inr ⟨blends, .inr rfl⟩)⟩)
    | cap other => simp [other]
    | join other => simp [other]
    | fillRule other => simp [other]

mutual

/-- The calls of a node import what the node and those below it do. -/
lemma mem_imports_nodeDraft : ∀ m : Node Float,
    n ∈ (nodeDraft m).imports ↔ ∃ m' ∈ m.all, NodeImports m' n
  | .group name t children => by
    have hchildren := mem_imports_nodesDraft children
    have hgroup : NodeImports (.group name t children) n
        ↔ isPlainGroup name t = false ∧ n = vectorName "group" := by
      rw [isPlainGroup_eq_false]
      constructor
      · rintro ⟨⟩
        exact ⟨‹_›, rfl⟩
      · rintro ⟨hcalled, rfl⟩
        exact .group hcalled
    rw [Node.all, List.exists_mem_cons_iff, hgroup, ← hchildren]
    cases hplain : isPlainGroup name t with
    | true => simp [nodeDraft_plain hplain]
    | false => simp [imports_nodeDraft_group hplain]
  | .path p => by
    rw [nodeDraft, Node.all, mem_imports_pathDraft]
    simp

lemma mem_imports_nodesDraft : ∀ ns : List (Node Float),
    n ∈ (nodesDraft ns).imports ↔ ∃ m ∈ Node.allOf ns, NodeImports m n
  | [] => by simp [nodesDraft, Draft.empty, Node.allOf]
  | m :: ns => by
    rw [nodesDraft, imports_append, List.mem_append, mem_imports_nodeDraft m,
      mem_imports_nodesDraft ns, Node.allOf]
    simp only [List.mem_append, or_and_right, exists_or]

end

/-! ### What an icon imports -/

/-- What the file of an icon imports. -/
inductive IconImports (settings : Source.Settings) (group : Group) (g : Graphic Float) : String → Prop
  | type : IconImports settings group g typeName
  | dp : IconImports settings group g "androidx.compose.ui.unit.dp"
  | object (packaged : group.groupPackage ≠ "") :
      IconImports settings group g (group.groupPackage ++ "." ++ group.name)
  | preview {n : String} (shown : settings.preview = true) (member : n ∈ previewImports) :
      IconImports settings group g n
  | node {m : Node Float} {n : String} (among : m ∈ g.allNodes) (named : NodeImports m n) :
      IconImports settings group g n

variable {settings : Source.Settings} {group : Group} {symbol : String} {g : Graphic Float}

lemma mem_imports_iff : n ∈ (iconFile settings group symbol g).imports
    ↔ IconImports settings group g n := by
  have hobject : n ∈ receiverImports group
      ↔ group.groupPackage ≠ "" ∧ n = group.groupPackage ++ "." ++ group.name := by
    by_cases h : group.groupPackage = "" <;> simp [receiverImports, qualified, h]
  have hpreview : n ∈ (if settings.preview then previewDraft group.name symbol else .empty).imports
      ↔ settings.preview = true ∧ n ∈ previewImports := by
    split_ifs with h <;> simp [h, previewDraft, Draft.empty]
  rw [iconFile, CodeFile.ofDraft, mem_sortNames, iconDraft]
  simp only [imports_append, List.mem_append, List.mem_cons, List.not_mem_nil, or_false, hobject,
    hpreview, mem_imports_nodesDraft]
  constructor
  · rintro ((((rfl | rfl) | ⟨hpackaged, rfl⟩) | ⟨m, hm, hn⟩) | ⟨hshown, hn⟩)
    · exact .type
    · exact .dp
    · exact .object hpackaged
    · exact .node hm hn
    · exact .preview hshown hn
  · intro h
    cases h with
    | type => simp
    | dp => simp
    | object packaged => simp [packaged]
    | preview shown member => exact .inr ⟨shown, member⟩
    | node among named => exact .inl (.inr ⟨_, among, named⟩)

end Iconsmith.ImageVector
