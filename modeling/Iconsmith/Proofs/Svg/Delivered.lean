import Iconsmith.Proofs.Drawable.Spelled
import Iconsmith.Proofs.Svg.Growth

/-!
# Delivered scenes

What a scene holds is in single precision: sizes, radii and line widths are positive, opacities and
offsets lie between zero and one, maps are any, and identifiers are of any characters of a document. The
graphic of such a scene is spelled out in finite numbers. All that can be wrong with it is a radial
gradient under a map that leaves no area, and a name with tabs or line ends.
-/

namespace Iconsmith.Svg

open Double (unsigned)
open Drawable (IsColor)
open Single (IsSingle)

/-! ### Colors -/

lemma isHex_byteDigits {b : UInt8} {d : Char} (hd : d ∈ byteDigits b) :
    d.isDigit = true ∨ 'A' ≤ d ∧ d ≤ 'F' := by
  have hall : ∀ n < 16, (Nat.digitChar n).toUpper.isDigit = true ∨
      'A' ≤ (Nat.digitChar n).toUpper ∧ (Nat.digitChar n).toUpper ≤ 'F' := by
    decide
  have hlt : b.toNat < 256 := b.toNat_lt
  rcases List.mem_pair.mp hd with rfl | rfl
  · exact hall _ (by omega)
  · exact hall _ (by omega)

lemma isColor_digits (c : Rgb) (opacity : Float) : IsColor (c.digits opacity) := by
  refine ⟨length_digits c opacity, ?_⟩
  rw [Rgb.digits, String.toList_ofList]
  simp only [List.forall_mem_append]
  exact ⟨⟨⟨fun _ => isHex_byteDigits, fun _ => isHex_byteDigits⟩, fun _ => isHex_byteDigits⟩,
    fun _ => isHex_byteDigits⟩

lemma isFinite_of_isOpacity {x : Float} (h : IsOpacity x) : x.isFinite = true := by
  by_contra hnot
  rcases Double.not_isFinite_cases (Bool.eq_false_of_not_eq_true hnot) with rfl | rfl | rfl
  · exact absurd h (by decide +kernel)
  · exact absurd h (by decide +kernel)
  · exact absurd h (by decide +kernel)

/-! ### Paints -/

lemma orOnlyColor_eq_self {f : Fill Float} (h : 2 ≤ f.stops.length) : orOnlyColor f = some f := by
  have : ¬ f.stops.length < 2 := by omega
  rw [orOnlyColor, if_neg]
  simp [this]

lemma exists_of_mem_orOnlyColor {f g : Fill Float} (hf : f.isGradient = true)
    (h : f.stops.length < 2) (hg : g ∈ orOnlyColor f) : ∃ s ∈ f.stops, g = .solid s.color := by
  rw [orOnlyColor, if_pos (by simp [hf, h])] at hg
  obtain ⟨s, hs, rfl⟩ := Option.map_eq_some_iff.mp hg
  exact ⟨s, List.mem_of_head? hs, rfl⟩

/-- The stops of a gradient in a scene. -/
def AreDelivered (stops : List GradientStop) : Prop :=
  ∀ s ∈ stops, IsOpacity s.offset

lemma length_flat (stops : List GradientStop) :
    (stops.map GradientStop.flat).length = stops.length :=
  List.length_map _

section Stops

variable {stops : List GradientStop} (h : AreDelivered stops)

lemma isColor_flat {s : ColorStop Float} (hs : s ∈ stops.map GradientStop.flat) : IsColor s.color := by
  obtain ⟨u, -, rfl⟩ := List.mem_map.mp hs
  exact isColor_digits u.color u.opacity

include h

lemma areStops_flat (htwo : 2 ≤ stops.length) : AreStops (stops.map GradientStop.flat) where
  two := htwo.trans_eq (length_flat stops).symm
  offset s hs := by
    obtain ⟨u, hu, rfl⟩ := List.mem_map.mp hs
    exact h u hu
  color _ := isColor_flat

lemma isFinite_offset : ∀ x ∈ (stops.map GradientStop.flat).map (·.offset), x.isFinite = true := by
  simp only [List.map_map, List.forall_mem_map]
  exact fun s hs => isFinite_of_isOpacity (h s hs)

end Stops

namespace Paint

/-- What a scene may be painted with. -/
def Delivered : Paint → Prop
  | color _ | pattern => True
  | linear stops placement start finish =>
    AreDelivered stops ∧ placement.IsSingle ∧ start.IsSingle ∧ finish.IsSingle
  | radial stops placement center radius =>
    AreDelivered stops ∧ placement.IsSingle ∧ center.IsSingle ∧ IsSingle radius ∧ 0 < radius

/-- A radial gradient of more than one color, under maps that leave no area as it is computed. -/
def Collapses (m : Affine Float) : Paint → Prop
  | radial stops placement _ _ => 2 ≤ stops.length ∧ ((m * placement).determinant == 0) = true
  | color _ | linear .. | pattern => False

/-- The fill of a paint: it can be written in finite numbers, and has an extent unless the paint
collapses. -/
structure Gives (m : Affine Float) (p : Paint) (f : Fill Float) : Prop where
  spelled : f.Spelled
  finite : ∀ x ∈ f.numbers, x.isFinite = true
  extent : p.Collapses m ∧ f.reread = .error (.gradient (.radiusNotPositive 0)) ∨
    ¬ p.Collapses m ∧ f.HasExtent

variable {m : Affine Float} {p : Paint}

section Gradients

variable {stops : List GradientStop} {placement : Affine Float}

lemma fill?_linear (h : 2 ≤ stops.length) {start finish : Point Float} :
    (linear stops placement start finish).fill? m = some (.linear (stops.map GradientStop.flat)
      ((m * placement).apply start) ((m * placement).apply finish)) :=
  orOnlyColor_eq_self (h.trans_eq (length_flat stops).symm)

lemma fill?_radial (h : 2 ≤ stops.length) {center : Point Float} {radius : Float} :
    (radial stops placement center radius).fill? m = some (.radial (stops.map GradientStop.flat)
      ((m * placement).apply center) (radius * growth (m * placement))) :=
  orOnlyColor_eq_self (h.trans_eq (length_flat stops).symm)

end Gradients

lemma gives_solid (hp : ¬ p.Collapses m) {c : String} (hc : IsColor c) : p.Gives m (.solid c) where
  spelled := hc
  finite := nofun
  extent := Or.inr ⟨hp, trivial⟩

/-- A gradient of less than two colors gives its only color. -/
lemma gives_onlyColor {f g : Fill Float} (hp : ¬ p.Collapses m) (hf : f.isGradient = true)
    (hcolor : ∀ s ∈ f.stops, IsColor s.color) (h : f.stops.length < 2) (hg : g ∈ orOnlyColor f) :
    p.Gives m g := by
  obtain ⟨s, hs, rfl⟩ := exists_of_mem_orOnlyColor hf h hg
  exact gives_solid hp (hcolor s hs)

lemma isFinite_point {n a : Nat} {q : Point Float} (h : q.Within n a) :
    q.x.isFinite = true ∧ q.y.isFinite = true :=
  ⟨h.1.isFinite, h.2.isFinite⟩

lemma Delivered.gives (hp : p.Delivered) (hm : m.IsSingle) {f : Fill Float} (hf : f ∈ p.fill? m) :
    p.Gives m f := by
  have hpoint {n : Affine Float} (hn : n.IsSingle) {q : Point Float} (hq : q.IsSingle) :
      ((m * n).apply q).x.isFinite = true ∧ ((m * n).apply q).y.isFinite = true :=
    isFinite_point ((hm.within_mul hn).apply hq.within (by norm_num) (by norm_num))
  cases p with
  | color c =>
    have hp : ¬ (color c).Collapses m := not_false
    obtain rfl := Option.some_inj.mp hf
    exact gives_solid hp (isColor_digits c 1)
  | pattern => contradiction
  | linear stops placement start finish =>
    obtain ⟨hstops, hplacement, hstart, hfinish⟩ := hp
    rcases Nat.lt_or_ge stops.length 2 with hfew | htwo
    · have hp : ¬ (linear stops placement start finish).Collapses m := not_false
      refine gives_onlyColor hp ?_ ?_ ?_ hf
      · rfl
      · exact fun _ => isColor_flat
      · exact (length_flat stops).trans_lt hfew
    · rw [fill?_linear htwo] at hf
      obtain rfl := Option.some_inj.mp hf
      refine ⟨areStops_flat hstops htwo, ?_, Or.inr ⟨not_false, trivial⟩⟩
      simp only [Fill.numbers, List.forall_mem_append, List.forall_mem_cons]
      exact ⟨isFinite_offset hstops, (hpoint hplacement hstart).1, (hpoint hplacement hstart).2,
        (hpoint hplacement hfinish).1, (hpoint hplacement hfinish).2, List.forall_mem_nil _⟩
  | radial stops placement center radius =>
    obtain ⟨hstops, hplacement, hcenter, hradius, hpos⟩ := hp
    have hgrowth := hm.within_mul hplacement
    rcases Nat.lt_or_ge stops.length 2 with hfew | htwo
    · have hp : ¬ (radial stops placement center radius).Collapses m := fun h => hfew.not_ge h.1
      refine gives_onlyColor hp ?_ ?_ ?_ hf
      · rfl
      · exact fun _ => isColor_flat
      · exact (length_flat stops).trans_lt hfew
    · rw [fill?_radial htwo] at hf
      obtain rfl := Option.some_inj.mp hf
      refine ⟨areStops_flat hstops htwo, ?_, ?_⟩
      · simp only [Fill.numbers, List.forall_mem_append, List.forall_mem_cons]
        exact ⟨isFinite_offset hstops, (hpoint hplacement hcenter).1, (hpoint hplacement hcenter).2,
          isFinite_mul_growth hgrowth le_rfl hradius, List.forall_mem_nil _⟩
      · rcases mul_growth_cases hgrowth le_rfl hradius hpos with ⟨hzero, heq⟩ | ⟨hzero, hlt⟩
        · refine Or.inl ⟨⟨htwo, hzero⟩, ?_⟩
          have hnothing : unsigned 0 ≤ 0 ∧ unsigned 0 = 0 := by decide +kernel
          rw [heq, Fill.reread, if_pos hnothing.1, hnothing.2]
        · refine Or.inr ⟨fun h => ?_, hlt⟩
          rw [Collapses, hzero] at h
          exact absurd h.2 (by decide)

/-- A paint that collapses gives a fill. -/
lemma Collapses.exists_mem (h : p.Collapses m) : ∃ f, f ∈ p.fill? m := by
  cases p with
  | color c => contradiction
  | linear stops placement start finish => contradiction
  | pattern => contradiction
  | radial stops placement center radius =>
    exact ⟨_, fill?_radial h.1⟩

end Paint

/-! ### Shapes -/

/-- A shape of a scene. -/
structure Shape.Delivered (s : Shape) : Prop where
  id : Xml.IsText s.id
  outline : ∀ segment ∈ s.outline, ∀ p ∈ segment.points, p.IsSingle
  placement : s.placement.IsSingle
  interior : ∀ i ∈ s.interior, i.paint.Delivered ∧ IsOpacity i.opacity
  stroke : ∀ t ∈ s.stroke, t.paint.Delivered ∧ IsOpacity t.opacity ∧ IsSingle t.width ∧
    IsSingle t.miter

/-- A shape whose interior is painted with a gradient that collapses. -/
def Shape.Collapses (s : Shape) : Prop :=
  ∃ i ∈ s.interior, i.paint.Collapses s.placement

namespace Shape

section Fields

variable (s : Shape)

lemma path_name : s.path.name = if s.id.isEmpty then none else some s.id := by
  unfold path
  cases s.interior <;> cases s.stroke <;> rfl

lemma path_commands : s.path.commands = s.commands := by
  unfold path
  cases s.interior <;> cases s.stroke <;> rfl

lemma path_fill : s.path.fill = s.interior.bind fun i => i.paint.fill? s.placement := by
  unfold path
  cases s.interior <;> cases s.stroke <;> rfl

lemma path_fillAlpha : s.path.fillAlpha = (s.interior.map Interior.opacity).getD 1 := by
  unfold path
  cases s.interior <;> cases s.stroke <;> rfl

lemma path_strokeColor :
    s.path.strokeColor = s.stroke.bind fun t => (t.paint.fill? s.placement).bind firstColor? := by
  unfold path
  cases s.interior <;> cases s.stroke <;> rfl

lemma path_strokeAlpha : s.path.strokeAlpha = (s.stroke.map Stroke.opacity).getD 1 := by
  unfold path
  cases s.interior <;> cases s.stroke <;> rfl

lemma path_strokeWidth :
    s.path.strokeWidth = s.stroke.map fun t => ⟨t.width * growth s.placement, none⟩ := by
  unfold path
  cases s.interior <;> cases s.stroke <;> rfl

lemma path_miter : s.path.miter = (s.stroke.map Stroke.miter).getD Path.defaultMiter := by
  unfold path
  cases s.interior <;> cases s.stroke <;> rfl

end Fields

lemma isColor_firstColor {f : Fill Float} (hf : f.Spelled) {c : String} (hc : c ∈ firstColor? f) :
    IsColor c := by
  have hstops : c ∈ f.stops.head?.map (·.color) → IsColor c := by
    intro h
    obtain ⟨s, hs, rfl⟩ := Option.map_eq_some_iff.mp h
    exact hf.color s (List.mem_of_head? hs)
  cases f with
  | solid color =>
    obtain rfl := Option.some_inj.mp hc
    exact hf
  | linear => exact hstops hc
  | radial => exact hstops hc

lemma mem_numbers_commandOf {segment : Segment Float} {x : Float}
    (hx : x ∈ (commandOf segment).numbers) : ∃ p ∈ segment.points, x = p.x ∨ x = p.y := by
  cases segment <;> simp [commandOf, Command.numbers, Command.operands] at hx <;>
    simp [Segment.points] <;> tauto

namespace Delivered

variable {s : Shape} (hs : s.Delivered)

include hs

lemma isFinite_commands : ∀ c ∈ s.commands, ∀ x ∈ c.numbers, x.isFinite = true := by
  simp only [commands, List.forall_mem_map]
  intro segment hsegment x hx
  obtain ⟨p, hp, hcoordinate⟩ := mem_numbers_commandOf hx
  rw [Segment.points_map] at hp
  obtain ⟨q, hq, rfl⟩ := List.mem_map.mp hp
  have hwithin := hs.placement.within.apply (hs.outline segment hsegment q hq).within (by norm_num)
    (by norm_num)
  rcases hcoordinate with rfl | rfl
  · exact hwithin.1.isFinite
  · exact hwithin.2.isFinite

lemma gives_fill {f : Fill Float} (hf : f ∈ s.path.fill) :
    ∃ i ∈ s.interior, i.paint.Gives s.placement f := by
  rw [path_fill] at hf
  obtain ⟨i, hi, hfill⟩ := Option.bind_eq_some_iff.mp hf
  exact ⟨i, hi, (hs.interior i hi).1.gives hs.placement hfill⟩

lemma isOpacity_path : IsOpacity s.path.fillAlpha ∧ IsOpacity s.path.strokeAlpha := by
  have hone : IsOpacity 1 := by decide +kernel
  rw [path_fillAlpha, path_strokeAlpha]
  constructor
  · cases hi : s.interior with
    | none => exact hone
    | some i => exact (hs.interior i hi).2
  · cases ht : s.stroke with
    | none => exact hone
    | some t => exact (hs.stroke t ht).2.1

/-- The path of a shape is spelled out. -/
lemma spelled_path : s.path.Spelled where
  name := by
    rw [path_name]
    split
    · nofun
    · rintro n ⟨⟩
      exact hs.id
  fill f hf := by
    obtain ⟨i, -, hgives⟩ := hs.gives_fill hf
    exact hgives.spelled
  fillAlpha := hs.isOpacity_path.1
  strokeColor := by
    rw [path_strokeColor]
    intro c hc
    obtain ⟨t, ht, hcolor⟩ := Option.bind_eq_some_iff.mp hc
    obtain ⟨f, hf, hfirst⟩ := Option.bind_eq_some_iff.mp hcolor
    exact isColor_firstColor ((hs.stroke t ht).1.gives hs.placement hf).spelled hfirst
  strokeAlpha := hs.isOpacity_path.2
  strokeWidth := by
    rw [path_strokeWidth]
    intro w hw
    obtain ⟨t, -, rfl⟩ := Option.map_eq_some_iff.mp hw
    rfl

/-- The path of a shape is made of finite numbers. -/
lemma isFinite_path : ∀ x ∈ s.path.numbers, x.isFinite = true := by
  have hmiter : Float.isFinite Path.defaultMiter = true := by decide +kernel
  rw [Path.forall_numbers]
  refine ⟨?_, isFinite_of_isOpacity hs.isOpacity_path.1, isFinite_of_isOpacity hs.isOpacity_path.2,
    ?_, ?_, ?_⟩
  · rw [path_commands]
    exact hs.isFinite_commands
  · rw [path_miter]
    cases ht : s.stroke with
    | none => exact hmiter
    | some t => exact (hs.stroke t ht).2.2.2.within.isFinite
  · rw [path_strokeWidth]
    intro w hw
    obtain ⟨t, ht, rfl⟩ := Option.map_eq_some_iff.mp hw
    exact isFinite_mul_growth hs.placement.within (by norm_num) (hs.stroke t ht).2.2.1
  · intro f hf
    obtain ⟨i, -, hgives⟩ := hs.gives_fill hf
    exact hgives.finite

end Delivered

end Shape

/-! ### Scenes -/

namespace Scene

/-- The shapes of a scene that are drawn, bottom first. -/
def drawn (s : Scene) : List Shape :=
  s.items.filterMap fun
    | .shape shape => if shape.isDrawn then some shape else none
    | .image => none

/-- A scene as it is resolved. -/
structure Delivered (s : Scene) : Prop where
  size : s.size.IsSingle
  positive : 0 < s.size.x ∧ 0 < s.size.y
  shapes : ∀ shape ∈ s.drawn, shape.Delivered

/-- A scene in which a gradient collapses. -/
def Collapses (s : Scene) : Prop :=
  ∃ shape ∈ s.drawn, shape.Collapses

lemma nodes_graphic (s : Scene) : s.graphic.nodes = s.drawn.map fun shape => .path shape.path := by
  change s.items.filterMap Item.node? = _
  rw [drawn, List.map_filterMap]
  congr 1
  funext item
  cases item with
  | shape shape =>
    simp only [Item.node?]
    split <;> rfl
  | image => rfl

/-- The graphic of a scene is spelled out in finite numbers. -/
lemma Delivered.spelled_graphic {s : Scene} (hs : s.Delivered) : s.graphic.Spelled where
  finite := by
    have hx := hs.size.1.within.isFinite
    have hy := hs.size.2.within.isFinite
    rw [Graphic.numbers, nodes_graphic]
    simp only [List.forall_mem_append, List.forall_mem_cons, Node.forall_numbersOf,
      List.forall_mem_map]
    exact ⟨⟨hx, hy, hx, hy, nofun⟩, fun shape hshape => (hs.shapes shape hshape).isFinite_path⟩
  viewport := hs.positive
  nodes := by
    rw [Node.spelledAll_iff, nodes_graphic, List.forall_mem_map]
    exact fun shape hshape => (hs.shapes shape hshape).spelled_path

end Scene

end Iconsmith.Svg
