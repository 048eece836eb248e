import Iconsmith.Proofs.Drawable.Fields
import Iconsmith.Proofs.Drawable.Spelled
import Iconsmith.Proofs.PathData.RoundTrip
import Mathlib.Tactic

/-!
# Elements read back

What is written for a path, a transform or a gradient are the settings of its fields, and what is
read from an element of these fields is the same path, transform or gradient.
-/

namespace Iconsmith.Drawable

open Double (unsigned)
open Xml (IsPlain)

/-! ### Fields that are left out -/

/-- The field of a number, left out if it has its default value. -/
def numberField (x default : Float) : Option String :=
  if x == default then none else some (numberText x)

/-- The field of a named value, left out if it is the default. -/
def choiceField {α : Type} [DecidableEq α] (nameOf : α → String) (x default : α) : Option String :=
  if x = default then none else some (nameOf x)

/-- The field of a color. -/
def colorField (color : Option String) : Option String :=
  color.map ("#" ++ ·)

/-- The settings of a single field. -/
def fieldSettings (name : String) (value : Option String) : List Xml.Setting :=
  (value.map fun v => setting name (Xml.escaped v)).toList

@[simp] lemma Fields.settings_nil : Fields.settings [] = [] :=
  rfl

@[simp] lemma Fields.settings_cons (name : String) (value : Option String) (fs : Fields) :
    Fields.settings ((name, value) :: fs) = fieldSettings name value ++ fs.settings := by
  cases value <;> rfl

lemma fieldSettings_some {v : String} (hv : IsPlain v) (name : String) :
    fieldSettings name (some v) = [setting name v] := by
  rw [fieldSettings, Option.map_some, hv.escaped]
  rfl

lemma numberSetting_eq {x : Float} (hx : x.isFinite = true) (name : String) (default : Float) :
    numberSetting name x default = fieldSettings name (numberField x default) := by
  rw [numberSetting, numberField]
  split
  · rfl
  · exact (fieldSettings_some (isPlain_numberText hx) name).symm

lemma choiceSetting_eq {α : Type} [DecidableEq α] {nameOf : α → String}
    (hname : ∀ x, IsPlain (nameOf x)) (name : String) (x default : α) :
    choiceSetting name nameOf x default = fieldSettings name (choiceField nameOf x default) := by
  rw [choiceSetting, choiceField]
  split
  · rfl
  · exact (fieldSettings_some (hname x) name).symm

lemma colorSetting_eq {color : Option String} (hcolor : ∀ c ∈ color, IsColor c) (name : String) :
    colorSetting name color = fieldSettings name (colorField color) := by
  cases color with
  | none => rfl
  | some c => exact (fieldSettings_some (isPlain_color (hcolor c rfl)) name).symm

lemma isValue_numberField {x : Float} (hx : x.isFinite = true) {default : Float} {v : String}
    (hv : v ∈ numberField x default) : Xml.IsValue v := by
  rw [numberField] at hv
  split at hv
  · contradiction
  · cases hv
    exact (isPlain_numberText hx).isValue

lemma isValue_choiceField {α : Type} [DecidableEq α] {nameOf : α → String}
    (hname : ∀ x, IsPlain (nameOf x)) {x default : α} {v : String}
    (hv : v ∈ choiceField nameOf x default) : Xml.IsValue v := by
  rw [choiceField] at hv
  split at hv
  · contradiction
  · cases hv
    exact (hname x).isValue

lemma isValue_colorField {color : Option String} (hcolor : ∀ c ∈ color, IsColor c) {v : String}
    (hv : v ∈ colorField color) : Xml.IsValue v := by
  obtain ⟨c, hc, rfl⟩ := Option.map_eq_some_iff.mp hv
  exact (isPlain_color (hcolor c hc)).isValue

/-! ### Fields read back -/

section Fields

variable {n : Xml.Node} {name : String}

lemma number?_numberText {x : Float} (hx : x.isFinite = true)
    (h : attribute? n name = some (numberText x)) : number? n name = .ok (some (unsigned x)) := by
  rw [number?, h]
  simp only [floatOf?_numberText hx]

lemma number?_none (h : attribute? n name = none) : number? n name = .ok none := by
  rw [number?, h]

lemma number_numberText {x : Float} (hx : x.isFinite = true)
    (h : attribute? n name = some (numberText x)) (default : Float) :
    number n name default = .ok (unsigned x) := by
  rw [number, number?_numberText hx h]
  rfl

lemma number_numberField {x default : Float} (hx : x.isFinite = true)
    (hdefault : default.isFinite = true) (hunsigned : unsigned default = default)
    (h : attribute? n name = numberField x default) :
    number n name default = .ok (unsigned x) := by
  rw [numberField] at h
  split at h
  · rename_i heq
    rw [number, number?_none h, Double.unsigned_eq_of_beq hdefault heq, hunsigned]
    rfl
  · exact number_numberText hx h default

lemma isFraction_unsigned {x : Float} (h : IsOpacity x) : isFraction (unsigned x) = true := by
  have hzero : isFraction 0 = true := by decide +kernel
  have hx : isFraction x = true := by simp [isFraction, h.1, h.2]
  rcases Double.unsigned_eq x with heq | heq
  · rw [heq, hzero]
  · rw [heq, hx]

lemma opacity_numberField {x : Float} (hx : x.isFinite = true) (hopacity : IsOpacity x)
    (h : attribute? n name = numberField x 1) : opacity n name = .ok (unsigned x) := by
  have hone : Float.isFinite 1 = true ∧ unsigned 1 = 1 := by decide +kernel
  rw [numberField] at h
  split at h
  · rename_i heq
    rw [opacity, number?_none h, Double.unsigned_eq_of_beq hone.1 heq, hone.2]
    rfl
  · rw [opacity, number?_numberText hx h]
    exact if_pos (isFraction_unsigned hopacity)

lemma choice_choiceField {α : Type} [DecidableEq α] {nameOf : α → String}
    {ofName? : String → Option α} (hread : ∀ x, ofName? (nameOf x) = some x) {x default : α}
    (h : attribute? n name = choiceField nameOf x default) :
    choice n name ofName? default = .ok x := by
  rw [choiceField] at h
  split at h
  · rename_i heq
    rw [choice, h, heq]
  · rw [choice, h]
    simp only [hread]

end Fields

/-! ### Transforms -/

/-- The fields of a group. -/
def groupFields (name : Option String) (t : Transform Float) : Fields :=
  [("name", name), ("rotation", numberField t.rotation 0), ("pivotX", numberField t.pivot.x 0),
   ("pivotY", numberField t.pivot.y 0), ("scaleX", numberField t.scale.x 1),
   ("scaleY", numberField t.scale.y 1), ("translateX", numberField t.shift.x 0),
   ("translateY", numberField t.shift.y 0)]

section Transforms

variable {t : Transform Float} (ht : ∀ x ∈ t.numbers, x.isFinite = true)

include ht

lemma settings_groupFields (name : Option String) :
    nameSetting name ++ transformSettings t = (groupFields name t).settings := by
  simp only [Transform.numbers, List.forall_mem_cons] at ht
  obtain ⟨hrotation, hpivotX, hpivotY, hscaleX, hscaleY, hshiftX, hshiftY, -⟩ := ht
  simp only [groupFields, Fields.settings_cons, Fields.settings_nil, transformSettings,
    numberSetting_eq hrotation, numberSetting_eq hpivotX, numberSetting_eq hpivotY,
    numberSetting_eq hscaleX, numberSetting_eq hscaleY, numberSetting_eq hshiftX,
    numberSetting_eq hshiftY, List.append_assoc, List.append_nil]
  rfl

lemma writable_nameless_group (name : Option String) :
    Fields.Writable (("name", none) :: (groupFields name t).tail) := by
  simp only [Transform.numbers, List.forall_mem_cons] at ht
  obtain ⟨hrotation, hpivotX, hpivotY, hscaleX, hscaleY, hshiftX, hshiftY, -⟩ := ht
  have hnames : (("name", none) :: (groupFields name t).tail : Fields).map Prod.fst = ["name",
    "rotation", "pivotX", "pivotY", "scaleX", "scaleY", "translateX", "translateY"] := rfl
  constructor
  · rw [hnames]
    decide
  · rw [hnames]
    decide
  · simp only [groupFields, List.tail_cons, List.forall_mem_cons]
    exact ⟨by rintro _ ⟨⟩, fun _ => isValue_numberField hrotation, fun _ => isValue_numberField hpivotX,
      fun _ => isValue_numberField hpivotY, fun _ => isValue_numberField hscaleX,
      fun _ => isValue_numberField hscaleY, fun _ => isValue_numberField hshiftX,
      fun _ => isValue_numberField hshiftY, List.forall_mem_nil _⟩

lemma writable_groupFields {name : Option String} (hname : IsName name) :
    (groupFields name t).Writable :=
  (writable_nameless_group ht name).cons hname

/-- Inside of the root, an element of a group begins with the fields of the group as it is read. -/
lemma opens_group {name : Option String} (hname : ∀ n ∈ name, Xml.IsText n) :
    Xml.Opens innerScope "group" (nameSetting name ++ transformSettings t) ⟨none, "group"⟩
      (groupFields (name.map Xml.spaced) t).attributes := by
  have hwritable := writable_nameless_group ht name
  have hlegible : (groupFields name t).Legible := hwritable.legible_cons hname
  have hspaced : (groupFields name t).spaced = groupFields (name.map Xml.spaced) t :=
    hwritable.spaced_cons
  rw [settings_groupFields ht, ← hspaced]
  exact hlegible.opens (by decide)

/-- The transform of a group is read back from its fields. -/
theorem transform_groupFields {name : Option String} (hname : IsName name) (tag : Xml.Name)
    (children : List Xml.Node) :
    transform (.element tag (groupFields name t).attributes children) = .ok (t.map unsigned) := by
  have hfield := Fields.attribute?_attributes (writable_groupFields ht hname) tag children
  have hzero : Float.isFinite 0 = true ∧ unsigned 0 = 0 := by decide +kernel
  have hone : Float.isFinite 1 = true ∧ unsigned 1 = 1 := by decide +kernel
  simp only [Transform.numbers, List.forall_mem_cons] at ht
  obtain ⟨hrotation, hpivotX, hpivotY, hscaleX, hscaleY, hshiftX, hshiftY, -⟩ := ht
  have h₁ := number_numberField hrotation hzero.1 hzero.2 (hfield "rotation")
  have h₂ := number_numberField hpivotX hzero.1 hzero.2 (hfield "pivotX")
  have h₃ := number_numberField hpivotY hzero.1 hzero.2 (hfield "pivotY")
  have h₄ := number_numberField hscaleX hone.1 hone.2 (hfield "scaleX")
  have h₅ := number_numberField hscaleY hone.1 hone.2 (hfield "scaleY")
  have h₆ := number_numberField hshiftX hzero.1 hzero.2 (hfield "translateX")
  have h₇ := number_numberField hshiftY hzero.1 hzero.2 (hfield "translateY")
  rw [transform, point, point, h₁, h₂, h₃, h₄, h₅, h₆, h₇]
  rfl

lemma name_groupFields {name : Option String} (hname : IsName name) (tag : Xml.Name)
    (children : List Xml.Node) :
    attribute? (.element tag (groupFields name t).attributes children) "name" = name := by
  rw [Fields.attribute?_attributes (writable_groupFields ht hname)]
  exact Option.join_some

end Transforms

/-! ### Gradients -/

/-- The fields of a color stop. -/
def stopFields (s : ColorStop Float) : Fields :=
  [("offset", some (numberText s.offset)), ("color", some ("#" ++ s.color))]

/-- The element of a color stop. -/
def stopNode (s : ColorStop Float) : Xml.Node :=
  .element ⟨none, "item"⟩ (stopFields s).attributes []

section Stops

variable {s : ColorStop Float} (hoffset : s.offset.isFinite = true) (hcolor : IsColor s.color)

include hoffset hcolor

lemma writable_stopFields : (stopFields s).Writable := by
  have hnames : (stopFields s).map Prod.fst = ["offset", "color"] := rfl
  constructor
  · rw [hnames]
    decide
  · rw [hnames]
    decide
  · simp only [stopFields, List.forall_mem_cons, Option.mem_some_iff, forall_eq']
    exact ⟨(isPlain_numberText hoffset).isValue, (isPlain_color hcolor).isValue, nofun⟩

lemma stopElement_eq : stopElement s = .leaf "item" (stopFields s).settings := by
  rw [stopElement, stopFields, Fields.settings_cons, Fields.settings_cons,
    fieldSettings_some (isPlain_numberText hoffset), fieldSettings_some (isPlain_color hcolor)]
  rfl

lemma stop_stopNode (t : Color.Table) : stop t (stopNode s) = .ok (s.map unsigned) := by
  have hfield := Fields.attribute?_attributes (writable_stopFields hoffset hcolor) ⟨none, "item"⟩ []
  have hnumber := number?_numberText hoffset (hfield "offset")
  have htext : attribute? (stopNode s) "color" = some ("#" ++ s.color) := hfield "color"
  rw [stop, stopNode, hnumber, ← stopNode, htext]
  simp only [require, ok_bind, color_color hcolor]
  rfl

end Stops

/-- The stops of a gradient are read back from its items. -/
lemma stops_stopNode {ss : List (ColorStop Float)} (hstops : AreStops ss)
    (hfinite : ∀ s ∈ ss, s.offset.isFinite = true) {n : Xml.Node}
    (hn : n.elements = ss.map stopNode) (t : Color.Table) :
    stops t n = .ok (ss.map (ColorStop.map unsigned)) := by
  have hitems : n.elements.filter (·.localName = "item") = ss.map stopNode := by
    rw [hn, List.filter_eq_self]
    intro x hx
    obtain ⟨s, -, rfl⟩ := List.mem_map.mp hx
    rfl
  have hempty : (ss.map stopNode).isEmpty = false := by
    have := hstops.two
    cases ss with
    | nil => contradiction
    | cons s ss => rfl
  have hread : (ss.map stopNode).mapM (stop t) = .ok (ss.map (ColorStop.map unsigned)) := by
    rw [List.mapM_map]
    exact mapM_eq_pure fun s hs => stop_stopNode (hfinite s hs) (hstops.color s hs) t
  have htwo : ¬ (ss.map (ColorStop.map unsigned)).length < 2 := by
    rw [List.length_map, not_lt]
    exact hstops.two
  have hinside : (ss.map (ColorStop.map unsigned)).find? (!isFraction ·.offset) = none := by
    rw [List.find?_eq_none]
    intro x hx
    obtain ⟨s, hs, rfl⟩ := List.mem_map.mp hx
    simp [ColorStop.map, isFraction_unsigned (hstops.offset s hs)]
  rw [stops]
  simp only [hitems, hempty, Bool.false_eq_true, if_false, hread, ok_bind, htwo, hinside]
  rfl

/-- The fields of a gradient; a color is no gradient and has none. -/
def gradientFields : Fill Float → Fields
  | .solid _ => []
  | .linear _ start finish =>
    [("type", some "linear"), ("startX", some (numberText start.x)),
     ("startY", some (numberText start.y)), ("endX", some (numberText finish.x)),
     ("endY", some (numberText finish.y))]
  | .radial _ center radius =>
    [("type", some "radial"), ("centerX", some (numberText center.x)),
     ("centerY", some (numberText center.y)), ("gradientRadius", some (numberText radius))]

lemma isPlain_kind : IsPlain "linear" ∧ IsPlain "radial" := by
  decide

section Gradients

variable {a : Fill Float} (ha : ∀ x ∈ a.numbers, x.isFinite = true)

include ha

lemma settings_gradientFields : gradientSettings a = (gradientFields a).settings := by
  obtain ⟨hlinear, hradial⟩ := isPlain_kind
  cases a with
  | solid color => rfl
  | linear stops start finish =>
    simp only [Fill.numbers, List.forall_mem_append, List.forall_mem_cons] at ha
    obtain ⟨-, hx, hy, hx', hy', -⟩ := ha
    simp only [gradientFields, Fields.settings_cons, Fields.settings_nil,
      fieldSettings_some hlinear, fieldSettings_some (isPlain_numberText hx),
      fieldSettings_some (isPlain_numberText hy), fieldSettings_some (isPlain_numberText hx'),
      fieldSettings_some (isPlain_numberText hy'), gradientSettings, pointSettings,
      List.cons_append, List.nil_append]
  | radial stops center radius =>
    simp only [Fill.numbers, List.forall_mem_append, List.forall_mem_cons] at ha
    obtain ⟨-, hx, hy, hradius, -⟩ := ha
    simp only [gradientFields, Fields.settings_cons, Fields.settings_nil,
      fieldSettings_some hradial, fieldSettings_some (isPlain_numberText hx),
      fieldSettings_some (isPlain_numberText hy), fieldSettings_some (isPlain_numberText hradius),
      gradientSettings, pointSettings, List.cons_append, List.nil_append]

lemma writable_gradientFields : (gradientFields a).Writable := by
  obtain ⟨hlinear, hradial⟩ := isPlain_kind
  cases a with
  | solid color => exact ⟨.nil, List.forall_mem_nil _, List.forall_mem_nil _⟩
  | linear stops start finish =>
    simp only [Fill.numbers, List.forall_mem_append, List.forall_mem_cons] at ha
    obtain ⟨-, hx, hy, hx', hy', -⟩ := ha
    have hnames : (gradientFields (.linear stops start finish)).map Prod.fst =
      ["type", "startX", "startY", "endX", "endY"] := rfl
    constructor
    · rw [hnames]
      decide
    · rw [hnames]
      decide
    · simp only [gradientFields, List.forall_mem_cons, Option.mem_some_iff, forall_eq']
      exact ⟨hlinear.isValue, (isPlain_numberText hx).isValue, (isPlain_numberText hy).isValue,
        (isPlain_numberText hx').isValue, (isPlain_numberText hy').isValue, List.forall_mem_nil _⟩
  | radial stops center radius =>
    simp only [Fill.numbers, List.forall_mem_append, List.forall_mem_cons] at ha
    obtain ⟨-, hx, hy, hradius, -⟩ := ha
    have hnames : (gradientFields (.radial stops center radius)).map Prod.fst =
      ["type", "centerX", "centerY", "gradientRadius"] := rfl
    constructor
    · rw [hnames]
      decide
    · rw [hnames]
      decide
    · simp only [gradientFields, List.forall_mem_cons, Option.mem_some_iff, forall_eq']
      exact ⟨hradial.isValue, (isPlain_numberText hx).isValue, (isPlain_numberText hy).isValue,
        (isPlain_numberText hradius).isValue, List.forall_mem_nil _⟩

/-- A gradient is read from its fields and its items. -/
theorem gradient_gradientFields (hgradient : a.isGradient = true) (hspelled : a.Spelled)
    {tag : Xml.Name} {children : List Xml.Node}
    (hitems : children.filter Xml.Node.isElement = a.stops.map stopNode) (t : Color.Table) :
    gradient t (.element tag (gradientFields a).attributes children) = a.reread := by
  have hfield := Fields.attribute?_attributes (writable_gradientFields ha) tag children
  cases a with
  | solid color => contradiction
  | linear ss start finish =>
    simp only [Fill.numbers, List.forall_mem_append, List.forall_mem_map,
      List.forall_mem_cons] at ha
    obtain ⟨hoffsets, hx, hy, hx', hy', -⟩ := ha
    have hstops := @stops_stopNode ss hspelled hoffsets
      (.element tag (gradientFields (.linear ss start finish)).attributes children) hitems t
    have hkind : (attribute? (.element tag (gradientFields (.linear ss start finish)).attributes
        children) "type").getD "linear" = "linear" := congrArg (·.getD "linear") (hfield "type")
    have h₁ := number_numberText hx (hfield "startX") 0
    have h₂ := number_numberText hy (hfield "startY") 0
    have h₃ := number_numberText hx' (hfield "endX") 0
    have h₄ := number_numberText hy' (hfield "endY") 0
    rw [gradient, hstops, ok_bind, hkind]
    simp only [point, h₁, h₂, h₃, h₄]
    rfl
  | radial ss center r =>
    simp only [Fill.numbers, List.forall_mem_append, List.forall_mem_map,
      List.forall_mem_cons] at ha
    obtain ⟨hoffsets, hx, hy, hr, -⟩ := ha
    have hstops := @stops_stopNode ss hspelled hoffsets
      (.element tag (gradientFields (.radial ss center r)).attributes children) hitems t
    have hkind : (attribute? (.element tag (gradientFields (.radial ss center r)).attributes
        children) "type").getD "linear" = "radial" := congrArg (·.getD "linear") (hfield "type")
    have h₁ := number_numberText hx (hfield "centerX") 0
    have h₂ := number_numberText hy (hfield "centerY") 0
    have hradius : radius (.element tag (gradientFields (.radial ss center r)).attributes children)
        = if unsigned r ≤ 0 then .error (.gradient (.radiusNotPositive (unsigned r)))
          else .ok (unsigned r) := by
      rw [radius, number?_numberText hr (hfield "gradientRadius"), ok_bind, require, ok_bind]
      rfl
    rw [gradient, hstops, ok_bind, hkind]
    simp only [hradius, point, h₁, h₂, Fill.reread]
    split <;> rfl

end Gradients

end Iconsmith.Drawable
