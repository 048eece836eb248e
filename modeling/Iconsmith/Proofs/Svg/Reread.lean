import Iconsmith.Proofs.Drawable.RoundTrip
import Iconsmith.Proofs.Svg.Delivered

/-!
# Scenes read back

A scene becomes a graphic, which is written as a drawable and read again. It is refused just if one of its
gradients collapses. Otherwise it is read back equal just if no identifier that becomes a name holds tabs
or line ends.
-/

namespace Iconsmith.Svg

open Double (unsigned)
open Single (IsSingle)

namespace Shape

variable {shape : Shape} (h : shape.Delivered)

include h

/-- What is read of the path of a shape. -/
lemma Delivered.reread_path_cases :
    shape.Collapses ∧ shape.path.reread = .error (.gradient (.radiusNotPositive 0)) ∨
      ¬ shape.Collapses ∧ shape.path.reread = .ok (shape.path.spaced.map unsigned) := by
  by_cases hcollapses : shape.Collapses
  · obtain ⟨i, hi, hpaint⟩ := hcollapses
    obtain ⟨f, hf⟩ := hpaint.exists_mem
    have hmem : f ∈ shape.path.fill := by
      rw [path_fill, hi]
      exact hf
    rcases ((h.interior i hi).1.gives h.placement hf).extent with ⟨-, herror⟩ | ⟨hnot, -⟩
    · exact Or.inl ⟨⟨i, hi, hpaint⟩, Path.reread_of_error hmem herror⟩
    · exact absurd hpaint hnot
  · refine Or.inr ⟨hcollapses, Path.reread_of_hasExtent fun f hf => ?_⟩
    obtain ⟨i, hi, hgives⟩ := h.gives_fill hf
    rcases hgives.extent with ⟨hpaint, -⟩ | ⟨-, hextent⟩
    · exact absurd ⟨i, hi, hpaint⟩ hcollapses
    · exact hextent

/-- The path of a shape keeps its name just if the identifier has no tabs or line ends. -/
lemma Delivered.spaced_map_beq :
    (shape.path.spaced.map unsigned == shape.path) = true ↔ Xml.IsValue shape.id := by
  have hnumbers : ∀ x ∈ shape.path.numbers, (unsigned x == x) = true :=
    fun x hx => Double.unsigned_beq (h.isFinite_path x hx)
  rw [Path.spaced, Path.map_with_name_beq hnumbers, path_name, beq_iff_eq]
  by_cases hempty : shape.id.isEmpty = true
  · have hvalue : Xml.IsValue "" := by decide
    rw [String.isEmpty_iff.mp hempty]
    exact iff_of_true rfl hvalue
  · rw [if_neg hempty, Option.map_some, Option.some_inj]
    exact Xml.spaced_eq_iff h.id

end Shape

namespace Scene

variable {s : Scene}

/-- What is read of the nodes of a scene. -/
lemma Delivered.rereadAll_cases (hs : s.Delivered) :
    s.Collapses ∧ Node.rereadAll s.graphic.nodes = .error (.gradient (.radiusNotPositive 0)) ∨
      ¬ s.Collapses ∧ Node.rereadAll s.graphic.nodes =
        .ok (s.drawn.map fun shape => .path (shape.path.spaced.map unsigned)) := by
  rw [Node.rereadAll_eq_mapM, nodes_graphic, List.mapM_map]
  have hcases shape (hshape : shape ∈ s.drawn) :
      shape.Collapses ∧ (Node.path shape.path).reread = .error (.gradient (.radiusNotPositive 0)) ∨
        ¬ shape.Collapses ∧
          (Node.path shape.path).reread = .ok (.path (shape.path.spaced.map unsigned)) := by
    rw [Node.reread]
    refine (hs.shapes shape hshape).reread_path_cases.imp (And.imp_right fun h => ?_)
      (And.imp_right fun h => ?_)
    · rw [h]
      rfl
    · rw [h]
      rfl
  by_cases hcollapses : s.Collapses
  · refine Or.inl ⟨hcollapses, mapM_eq_error (fun shape hshape => ?_) ?_⟩
    · exact (hcases shape hshape).imp And.right fun h => ⟨_, h.2⟩
    · obtain ⟨shape, hshape, hpaint⟩ := hcollapses
      exact ⟨shape, hshape, ((hcases shape hshape).resolve_right fun h => h.1 hpaint).2⟩
  · refine Or.inr ⟨hcollapses, mapM_eq_pure fun shape hshape => ?_⟩
    exact ((hcases shape hshape).resolve_left fun h => hcollapses ⟨shape, hshape, h.1⟩).2

/-- A gradient that collapses has no radius left, so the drawable is refused. -/
lemma Delivered.read_write_of_collapses (hs : s.Delivered) (h : s.Collapses) (t : Color.Table) :
    Drawable.read t (Drawable.write s.graphic) =
      ⟨[], .error (.gradient (.radiusNotPositive 0))⟩ := by
  rw [Drawable.read_write_of_spelled hs.spelled_graphic t, Graphic.reread,
    (hs.rereadAll_cases.resolve_right fun hnot => hnot.1 h).2]
  rfl

/-- Only the layout in names is lost between writing and reading. -/
lemma Delivered.exists_read_write (hs : s.Delivered) (h : ¬ s.Collapses) (t : Color.Table) :
    ∃ g, Drawable.read t (Drawable.write s.graphic) = ⟨[], .ok g⟩ ∧
      ((g == s.graphic) = true ↔ ∀ shape ∈ s.drawn, Xml.IsValue shape.id) := by
  have hread := Drawable.read_write_of_spelled hs.spelled_graphic t
  rw [Graphic.reread, (hs.rereadAll_cases.resolve_left fun hcollapses => h hcollapses.1).2] at hread
  refine ⟨_, hread, ?_⟩
  have hnumbers : ∀ x ∈ s.graphic.numbers, (unsigned x == x) = true :=
    fun x hx => Double.unsigned_beq (hs.spelled_graphic.finite x hx)
  rw [Graphic.map_with_nodes_beq hnumbers, nodes_graphic, Node.sameList_map, List.all_eq_true]
  exact forall₂_congr fun shape hshape => (hs.shapes shape hshape).spaced_map_beq

/-- The graphic of a scene is read back from its drawable, whatever the table of colors, unless one of its
gradients collapses. It is equal just if no identifier loses tabs or line ends. -/
theorem read_write_graphic (hs : s.Delivered) (t : Color.Table) :
    (s.Collapses → Drawable.read t (Drawable.write s.graphic) =
      ⟨[], .error (.gradient (.radiusNotPositive 0))⟩) ∧
    (¬ s.Collapses → ∃ g, Drawable.read t (Drawable.write s.graphic) = ⟨[], .ok g⟩ ∧
      ((g == s.graphic) = true ↔ ∀ shape ∈ s.drawn, Xml.IsValue shape.id)) :=
  ⟨fun h => hs.read_write_of_collapses h t, fun h => hs.exists_read_write h t⟩

/-! ### Discs -/

/-- A shape with an outline of green, painted from red in its middle to blue around it. -/
def discShape (id : String) (placement : Affine Float) : Shape where
  id
  isVisible := true
  outline := [.move ⟨2, 2⟩, .line ⟨22, 2⟩, .cubic ⟨22.5, 10⟩ ⟨22, 16⟩ ⟨22, 22⟩, .close]
  placement := Affine.stretch ⟨0.5, -1⟩
  interior := some {
    paint := .radial [⟨0, ⟨255, 0, 0⟩, 1⟩, ⟨1, ⟨0, 0, 255⟩, 0.5⟩] placement ⟨8, 8⟩ 6
    opacity := 1
    rule := .evenOdd }
  stroke := some {
    paint := .color ⟨0, 128, 0⟩
    opacity := 0.25
    width := 2
    cap := .round
    join := .bevel
    miter := 4 }

/-- A scene of one disc, whose colors are placed by a map. -/
def disc (id : String) (placement : Affine Float) : Scene where
  size := ⟨24, 24⟩
  items := [.shape (discShape id placement)]

/-- The map that takes the plane to the line through the origin and the corner of the unit square. -/
def diagonal : Affine Float :=
  ⟨⟨1, 1⟩, ⟨1, 1⟩, ⟨0, 0⟩⟩

lemma isSingle_maps : (Affine.identity : Affine Float).IsSingle ∧ diagonal.IsSingle := by
  have hzero : IsSingle 0 := ⟨0, by decide +kernel⟩
  have hone : IsSingle 1 := ⟨1, by decide +kernel⟩
  exact ⟨⟨⟨hone, hzero⟩, ⟨hzero, hone⟩, ⟨hzero, hzero⟩⟩, ⟨hone, hone⟩, ⟨hone, hone⟩, ⟨hzero, hzero⟩⟩

lemma delivered_disc {id : String} (hid : Xml.IsText id) {placement : Affine Float}
    (hplacement : placement.IsSingle) : (disc id placement).Delivered := by
  have hsingle : ∀ x ∈ ([0, 0.5, -1, 2, 4, 6, 8, 10, 16, 22, 22.5, 24] : List Float), IsSingle x := by
    have hkept : ∀ x ∈ ([0, 0.5, -1, 2, 4, 6, 8, 10, 16, 22, 22.5, 24] : List Float),
        (Single.ofDouble x).isFinite = true ∧ Single.toDouble (Single.ofDouble x) = x := by
      decide +kernel
    exact fun x hx => ⟨Single.ofDouble x, hkept x hx⟩
  simp only [List.forall_mem_cons, List.not_mem_nil, false_implies, implies_true, and_true] at hsingle
  obtain ⟨h0, hhalf, hminus, h2, h4, h6, h8, h10, h16, h22, h22', h24⟩ := hsingle
  have hpositive : (0 : Float) < 24 ∧ (0 : Float) < 6 := by decide +kernel
  have hopacities : IsOpacity 0 ∧ IsOpacity 1 ∧ IsOpacity 0.25 := by decide +kernel
  have hshape : (discShape id placement).Delivered := {
    id := hid
    outline := by
      simp only [discShape, List.forall_mem_cons, Segment.points]
      exact ⟨⟨⟨h2, h2⟩, List.forall_mem_nil _⟩, ⟨⟨h22, h2⟩, List.forall_mem_nil _⟩,
        ⟨⟨h22', h10⟩, ⟨h22, h16⟩, ⟨h22, h22⟩, List.forall_mem_nil _⟩, List.forall_mem_nil _,
        List.forall_mem_nil _⟩
    placement := ⟨⟨hhalf, h0⟩, ⟨h0, hminus⟩, h0, h0⟩
    interior := by
      rintro i ⟨⟩
      refine ⟨⟨?_, hplacement, ⟨h8, h8⟩, h6, hpositive.2⟩, hopacities.2.1⟩
      simp only [AreDelivered, List.forall_mem_cons]
      exact ⟨hopacities.1, hopacities.2.1, List.forall_mem_nil _⟩
    stroke := by
      rintro t ⟨⟩
      exact ⟨trivial, hopacities.2.2, h2, h4⟩ }
  exact ⟨⟨h24, h24⟩, ⟨hpositive.1, hpositive.1⟩, List.forall_mem_singleton.mpr hshape⟩

lemma collapses_disc_iff {id : String} {placement : Affine Float} : (disc id placement).Collapses ↔
    ((Affine.stretch ⟨0.5, -1⟩ * placement).determinant == 0) = true := by
  constructor
  · rintro ⟨shape, hshape, i, hi, hpaint⟩
    obtain rfl := List.mem_singleton.mp hshape
    obtain rfl := Option.some_inj.mp hi
    exact hpaint.2
  · intro h
    exact ⟨_, List.mem_singleton_self _, _, rfl, le_rfl, h⟩

/-- A disc is read back under a name that needs references. -/
theorem read_write_disc :
    (disc "a \"<b>\" & c" Affine.identity).Delivered ∧
      ∃ g, Drawable.read .empty (Drawable.write (disc "a \"<b>\" & c" Affine.identity).graphic) =
        ⟨[], .ok g⟩ ∧ (g == (disc "a \"<b>\" & c" Affine.identity).graphic) = true := by
  have hdelivered := @delivered_disc "a \"<b>\" & c" (by decide) _ isSingle_maps.1
  have hplain : Xml.IsValue "a \"<b>\" & c" := by decide
  have harea : ¬ (disc "a \"<b>\" & c" Affine.identity).Collapses := by
    rw [collapses_disc_iff]
    decide +kernel
  obtain ⟨g, hread, hequal⟩ := (read_write_graphic hdelivered .empty).2 harea
  exact ⟨hdelivered, g, hread, hequal.mpr (List.forall_mem_singleton.mpr hplain)⟩

/-- A disc that is taken to a line is refused, and one with a line end in its identifier is read under
another name. -/
theorem discs_not_read_back :
    (disc "sun" diagonal).Delivered ∧
      Drawable.read .empty (Drawable.write (disc "sun" diagonal).graphic) =
        ⟨[], .error (.gradient (.radiusNotPositive 0))⟩ ∧
      (disc "two\nlines" Affine.identity).Delivered ∧
      ∃ g, Drawable.read .empty (Drawable.write (disc "two\nlines" Affine.identity).graphic) =
        ⟨[], .ok g⟩ ∧ (g == (disc "two\nlines" Affine.identity).graphic) = false := by
  have hsun := @delivered_disc "sun" (by decide) _ isSingle_maps.2
  have hlines := @delivered_disc "two\nlines" (by decide) _ isSingle_maps.1
  have hflat : (disc "sun" diagonal).Collapses := by
    rw [collapses_disc_iff]
    decide +kernel
  have harea : ¬ (disc "two\nlines" Affine.identity).Collapses := by
    rw [collapses_disc_iff]
    decide +kernel
  have hlayout : ¬ Xml.IsValue "two\nlines" := by decide
  obtain ⟨g, hread, hequal⟩ := hlines.exists_read_write harea .empty
  refine ⟨hsun, hsun.read_write_of_collapses hflat .empty, hlines, g, hread, ?_⟩
  refine Bool.eq_false_of_not_eq_true fun h => hlayout ?_
  exact hequal.mp h _ (List.mem_singleton_self _)

end Scene

end Iconsmith.Svg
