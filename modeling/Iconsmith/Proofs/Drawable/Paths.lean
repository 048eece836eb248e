import Iconsmith.Proofs.Drawable.Elements
import Mathlib.Tactic

/-!
# Paths read back

A path is an element of fields, with the gradient of its fill inside it if it has one. What is read
from the element is the path, but for the signs of zeros.
-/

namespace Iconsmith.Drawable

open Double (unsigned)
open Xml (IsPlain isPlainChar)

/-! ### Names of choices -/

lemma ofName?_cap (cap : LineCap) : LineCap.ofName? cap.name = some cap := by
  cases cap <;> rfl

lemma ofName?_join (join : LineJoin) : LineJoin.ofName? join.name = some join := by
  cases join <;> rfl

lemma ofName?_fillRule (rule : FillRule) : FillRule.ofName? rule.name = some rule := by
  cases rule <;> rfl

/-! ### Plain texts -/

lemma isPlain_operand {a : Operand Float} (ha : ∀ x, a = .number x → x.isFinite = true) :
    IsPlain a.text := by
  cases a with
  | number x => exact isPlain_numberText (ha x rfl)
  | flag on => cases on <;> decide

lemma isPlain_intercalate {l : List String} (hl : ∀ s ∈ l, IsPlain s) :
    IsPlain (" ".intercalate l) := by
  have hspace : IsPlain " " := by decide
  induction l with
  | nil => nofun
  | cons s l ih =>
    have hs := hl s (by simp)
    have hrest := ih fun u hu => hl u (List.mem_cons_of_mem s hu)
    cases l with
    | nil =>
      rw [String.intercalate_singleton]
      exact hs
    | cons u l =>
      rw [String.intercalate_cons_cons]
      exact (hs.append hspace).append hrest

lemma isPlain_command {c : Command Float} (hc : ∀ x ∈ c.numbers, x.isFinite = true) :
    IsPlain c.text := by
  have hletter : IsPlain (String.singleton c.letter) := by
    intro d hd
    rw [String.toList_singleton, List.mem_singleton] at hd
    have := PathData.isAlpha_letterOf c.verb c.isRelative
    rw [hd]
    simp [isPlainChar, Char.isAlphanum, show c.letter = PathData.letterOf c.verb c.isRelative from rfl, this]
  rw [Command.text]
  apply hletter.append
  apply isPlain_intercalate
  intro s hs
  obtain ⟨a, ha, rfl⟩ := List.mem_map.mp hs
  apply isPlain_operand
  rintro x rfl
  exact hc x (Command.mem_numbers.mpr ha)

lemma isPlain_write {cs : List (Command Float)}
    (hcs : ∀ c ∈ cs, ∀ x ∈ c.numbers, x.isFinite = true) : IsPlain (PathData.write cs) := by
  intro d hd
  rw [PathData.write, String.toList_join, List.mem_flatMap] at hd
  obtain ⟨s, hs, hd⟩ := hd
  obtain ⟨c, hc, rfl⟩ := List.mem_map.mp hs
  exact isPlain_command (hcs c hc) d hd

lemma isPlain_cap (cap : LineCap) : IsPlain cap.name := by
  cases cap <;> decide

lemma isPlain_join (join : LineJoin) : IsPlain join.name := by
  cases join <;> decide

lemma isPlain_fillRule (rule : FillRule) : IsPlain rule.name := by
  cases rule <;> decide

/-! ### Fields -/

/-- The fields of a path. -/
def pathFields (p : Path Float) : Fields :=
  [("name", p.name), ("pathData", some (PathData.write p.commands)),
   ("fillColor", colorField (p.fill.bind solidColor?)), ("fillAlpha", numberField p.fillAlpha 1),
   ("strokeColor", colorField p.strokeColor), ("strokeAlpha", numberField p.strokeAlpha 1),
   ("strokeWidth", p.strokeWidth.map fun w => numberText w.value),
   ("strokeLineCap", choiceField LineCap.name p.cap .butt),
   ("strokeLineJoin", choiceField LineJoin.name p.join .miter),
   ("strokeMiterLimit", numberField p.miter Path.defaultMiter),
   ("fillType", choiceField FillRule.name p.fillRule .nonZero)]

section Paths

variable {p : Path Float} (hfinite : ∀ x ∈ p.numbers, x.isFinite = true) (hp : p.Spelled)

include hfinite hp

omit hfinite in
lemma color_solidColor? : ∀ c ∈ p.fill.bind solidColor?, IsColor c := by
  intro c hc
  cases hfill : p.fill with
  | none =>
    rw [hfill] at hc
    contradiction
  | some a =>
    have ha := hp.fill a hfill
    rw [hfill] at hc
    cases a with
    | solid color =>
      cases hc
      exact ha
    | linear => contradiction
    | radial => contradiction

lemma settings_pathFields : pathSettings p = (pathFields p).settings := by
  obtain ⟨hcommands, hfillAlpha, hstrokeAlpha, hmiter, hwidth, -⟩ := Path.forall_numbers.mp hfinite
  have hstroke : (p.strokeWidth.map fun w => setting "strokeWidth" (numberText w.value)).toList =
      fieldSettings "strokeWidth" (p.strokeWidth.map fun w => numberText w.value) := by
    cases hw : p.strokeWidth with
    | none => rfl
    | some w => exact (fieldSettings_some (isPlain_numberText (hwidth w hw)) _).symm
  simp only [pathFields, Fields.settings_cons, Fields.settings_nil, pathSettings, hstroke,
    numberSetting_eq hfillAlpha, numberSetting_eq hstrokeAlpha, numberSetting_eq hmiter,
    colorSetting_eq (color_solidColor? hp), colorSetting_eq hp.strokeColor,
    choiceSetting_eq isPlain_cap, choiceSetting_eq isPlain_join, choiceSetting_eq isPlain_fillRule,
    fieldSettings_some (isPlain_write hcommands), List.append_assoc, List.append_nil]
  rfl

/-- Only the name of a path may hold any characters. -/
lemma writable_nameless_path : Fields.Writable (("name", none) :: (pathFields p).tail) := by
  obtain ⟨hcommands, hfillAlpha, hstrokeAlpha, hmiter, hwidth, -⟩ := Path.forall_numbers.mp hfinite
  have hnames : (("name", none) :: (pathFields p).tail : Fields).map Prod.fst = ["name", "pathData",
    "fillColor", "fillAlpha", "strokeColor", "strokeAlpha", "strokeWidth", "strokeLineCap",
    "strokeLineJoin", "strokeMiterLimit", "fillType"] := rfl
  have hstroke : ∀ v ∈ p.strokeWidth.map fun w => numberText w.value, Xml.IsValue v := by
    intro v hv
    obtain ⟨w, hw, rfl⟩ := Option.map_eq_some_iff.mp hv
    exact (isPlain_numberText (hwidth w hw)).isValue
  have hdata : ∀ v ∈ some (PathData.write p.commands), Xml.IsValue v := by
    rintro v ⟨⟩
    exact (isPlain_write hcommands).isValue
  constructor
  · rw [hnames]
    decide
  · rw [hnames]
    decide
  · simp only [pathFields, List.tail_cons, List.forall_mem_cons]
    exact ⟨nofun, hdata, fun _ => isValue_colorField (color_solidColor? hp),
      fun _ => isValue_numberField hfillAlpha, fun _ => isValue_colorField hp.strokeColor,
      fun _ => isValue_numberField hstrokeAlpha, hstroke, fun _ => isValue_choiceField isPlain_cap,
      fun _ => isValue_choiceField isPlain_join, fun _ => isValue_numberField hmiter,
      fun _ => isValue_choiceField isPlain_fillRule, nofun⟩

lemma writable_pathFields (hname : IsName p.name) : (pathFields p).Writable :=
  (writable_nameless_path hfinite hp).cons hname

/-- Inside of the root, an element of a path begins with the fields of the path as it is read. -/
lemma opens_path : Xml.Opens innerScope "path" (pathSettings p) ⟨none, "path"⟩
    (pathFields p.spaced).attributes := by
  have hwritable := writable_nameless_path hfinite hp
  have hlegible : (pathFields p).Legible := hwritable.legible_cons hp.name
  have hspaced : (pathFields p).spaced = pathFields p.spaced := hwritable.spaced_cons
  rw [settings_pathFields hfinite hp, ← hspaced]
  exact hlegible.opens (by decide)

end Paths

/-! ### Gradients inside of paths -/

/-- The element that stands for the fill color of the element around it. -/
def inlineNode (inside : List Xml.Node) : Xml.Node :=
  .element ⟨some inlineSpace, "attr"⟩ [⟨⟨none, "name"⟩, "android:fillColor"⟩] inside

/-- The element of a gradient. -/
def gradientNode (a : Fill Float) (children : List Xml.Node) : Xml.Node :=
  .element ⟨none, "gradient"⟩ (gradientFields a).attributes children

/-- What the elements inside of a path stand for: the gradient of its fill, if it has one. -/
inductive Holds (p : Path Float) (n : Xml.Node) : Prop
  | nothing : p.fill.filter Fill.isGradient = none → n.elements = [] → Holds p n
  | gradient {a : Fill Float} {inside items : List Xml.Node} :
      p.fill.filter Fill.isGradient = some a → n.elements = [inlineNode inside] →
      inside.filter Xml.Node.isElement = [gradientNode a items] →
      items.filter Xml.Node.isElement = a.stops.map stopNode → Holds p n

lemma inlineGradient?_nil {n : Xml.Node} (hn : n.elements = []) (name : String) :
    inlineGradient? n name = none := by
  rw [inlineGradient?, hn]
  rfl

lemma inlineGradient?_inlineNode {n : Xml.Node} {inside items : List Xml.Node} {a : Fill Float}
    (hn : n.elements = [inlineNode inside])
    (hinside : inside.filter Xml.Node.isElement = [gradientNode a items]) :
    inlineGradient? n "android:fillColor" = some (gradientNode a items) := by
  have helements : (inlineNode inside).elements = [gradientNode a items] := hinside
  have hfind : n.elements.find? (fun c => c.space == some inlineSpace && c.localName == "attr" &&
      c.attribute? none "name" == some "android:fillColor") = some (inlineNode inside) := by
    rw [hn]
    rfl
  rw [inlineGradient?, hfind, Option.bind_eq_bind, Option.bind_some, helements]
  rfl

lemma inlineGradient?_stroke {p : Path Float} {n : Xml.Node} (h : Holds p n) :
    inlineGradient? n "android:strokeColor" = none := by
  cases h with
  | nothing _ hn => exact inlineGradient?_nil hn _
  | gradient _ hn _ _ =>
    rw [inlineGradient?, hn]
    rfl


/-! ### Read back -/

section Reading

variable {p : Path Float} (hfinite : ∀ x ∈ p.numbers, x.isFinite = true) (hp : p.Spelled)
  (hname : IsName p.name) {tag : Xml.Name} {children : List Xml.Node}
  (hholds : Holds p (.element tag (pathFields p).attributes children)) (t : Color.Table)

include hfinite hp hname hholds

lemma fill?_pathFields :
    fill? t (.element tag (pathFields p).attributes children) = p.fill.mapM Fill.reread := by
  have hcolor := Fields.attribute?_attributes (writable_pathFields hfinite hp hname) tag children
    "fillColor"
  obtain ⟨-, -, -, -, -, hnumbers⟩ := Path.forall_numbers.mp hfinite
  cases hholds with
  | nothing hgradient hn =>
    rw [fill?, inlineGradient?_nil hn]
    cases hfill : p.fill with
    | none =>
      have : attribute? (.element tag (pathFields p).attributes children) "fillColor" = none := by
        rw [hcolor]
        change colorField (p.fill.bind solidColor?) = none
        rw [hfill]
        rfl
      simp only [this]
      rfl
    | some a =>
      rw [hfill] at hgradient
      cases a with
      | solid c =>
        have : attribute? (.element tag (pathFields p).attributes children) "fillColor" =
            some ("#" ++ c) := by
          rw [hcolor]
          change colorField (p.fill.bind solidColor?) = _
          rw [hfill]
          rfl
        have hc : IsColor c := hp.fill _ hfill
        simp only [this, color_color hc]
        rfl
      | linear => contradiction
      | radial => contradiction
  | @gradient a inside items hgradient hn hinside hitems =>
    obtain ⟨hfill, ha⟩ := Option.filter_eq_some_iff.mp hgradient
    have hread : gradient t (gradientNode a items) = a.reread :=
      gradient_gradientFields (hnumbers a hfill) ha (hp.fill a hfill) hitems t
    rw [fill?, inlineGradient?_inlineNode hn hinside, hfill, Option.mapM_some, map_eq_pure_bind]
    simp only [hread]

lemma strokeColor?_pathFields :
    strokeColor? t (.element tag (pathFields p).attributes children) = .ok p.strokeColor := by
  have hcolor : attribute? (.element tag (pathFields p).attributes children) "strokeColor" =
      colorField p.strokeColor :=
    Fields.attribute?_attributes (writable_pathFields hfinite hp hname) tag children "strokeColor"
  have hinline : ¬ (inlineGradient? (.element tag (pathFields p).attributes children)
      "android:strokeColor").isSome = true := by
    rw [inlineGradient?_stroke hholds]
    decide
  rw [strokeColor?, if_neg hinline, hcolor]
  cases hstroke : p.strokeColor with
  | none => rfl
  | some c =>
    simp only [colorField, Option.map_some, color_color (hp.strokeColor c hstroke)]
    rfl

/-- A path is read from its fields and the gradient inside of its element. -/
theorem path_pathFields :
    path t (.element tag (pathFields p).attributes children) = p.reread := by
  have hfield := Fields.attribute?_attributes (writable_pathFields hfinite hp hname) tag children
  have hfill := fill?_pathFields hfinite hp hname hholds t
  have hstrokeColor := strokeColor?_pathFields hfinite hp hname hholds t
  obtain ⟨hcommands, hfillAlpha, hstrokeAlpha, hmiter, hwidths, -⟩ := Path.forall_numbers.mp hfinite
  have hdata : attribute? (.element tag (pathFields p).attributes children) "pathData" =
      some (PathData.write p.commands) := hfield "pathData"
  have hfour : Float.isFinite Path.defaultMiter = true ∧
      unsigned Path.defaultMiter = Path.defaultMiter := by decide +kernel
  have hsame : attribute? (.element tag (pathFields p).attributes children) "name" = p.name :=
    hfield "name"
  have h₁ := opacity_numberField hfillAlpha hp.fillAlpha (hfield "fillAlpha")
  have h₂ := opacity_numberField hstrokeAlpha hp.strokeAlpha (hfield "strokeAlpha")
  have hwidth : attribute? (.element tag (pathFields p).attributes children) "strokeWidth" =
      p.strokeWidth.map fun w => numberText w.value := hfield "strokeWidth"
  have h₃ : number? (.element tag (pathFields p).attributes children) "strokeWidth" =
      .ok (p.strokeWidth.map fun w => unsigned w.value) := by
    cases hw : p.strokeWidth with
    | none =>
      rw [hw] at hwidth
      exact number?_none hwidth
    | some w =>
      rw [hw] at hwidth
      exact number?_numberText (hwidths w hw) hwidth
  have hunitless : ((p.strokeWidth.map fun w => unsigned w.value).map fun w => { value := w }) =
      p.strokeWidth.map (Length.map unsigned) := by
    cases hw : p.strokeWidth with
    | none => rfl
    | some w =>
      have := hp.strokeWidth w hw
      simp [Length.map, this]
  have h₄ := number_numberField hmiter hfour.1 hfour.2 (hfield "strokeMiterLimit")
  have hcap := choice_choiceField ofName?_cap (hfield "strokeLineCap")
  have hjoin := choice_choiceField ofName?_join (hfield "strokeLineJoin")
  have hrule := choice_choiceField ofName?_fillRule (hfield "fillType")
  rw [path, hdata, require, ok_bind, PathData.read_write hcommands]
  rw [Path.reread, Path.spaced_of_isName hname]
  simp only [Except.mapError, ok_bind, hfill, hstrokeColor, h₁, h₂, h₃, h₄, hcap, hjoin, hrule,
    hsame, hunitless]
  rfl

end Reading

end Iconsmith.Drawable
