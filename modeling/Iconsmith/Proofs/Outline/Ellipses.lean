import Iconsmith.Proofs.Plane.Exact

/-!
# Ellipses through two points

Through two points run two ellipses of given radii and turn, unless the radii are too short. In units of the
radii they are unit circles, and their centers lie on both sides of the chord. In exact arithmetic the
computed center is that of one of them, and the sign of its offset decides which way around the circle the
computed angle goes.
-/

namespace Iconsmith

namespace CenterArc

/-- The side of the chord on which the center lies. -/
noncomputable def side (largeArc sweep : Bool) : ℝ :=
  if largeArc = sweep then -1 else 1

lemma side_sq (largeArc sweep : Bool) : side largeArc sweep ^ 2 = 1 := by
  unfold side
  split_ifs <;> norm_num

variable [Circular]

/-! ### Radii that span a chord -/

section Radii

variable {radii p : Point ℝ}

/-- Both radii are positive. -/
structure IsProper (radii : Point ℝ) : Prop where
  x_pos : 0 < radii.x
  y_pos : 0 < radii.y

lemma extent_eq (radii p : Point ℝ) : extent radii p = (p.x / radii.x) ^ 2 + (p.y / radii.y) ^ 2 := by
  rw [extent, div_pow, div_pow, sq, sq, sq, sq]

lemma extent_pos (hr : IsProper radii) (hp : p ≠ Point.origin) : 0 < extent radii p := by
  rw [extent_eq]
  by_cases hx : p.x = 0
  · have hy : p.y ≠ 0 := fun hy => hp (by ext <;> simp [Point.origin, hx, hy])
    have := div_ne_zero hy hr.y_pos.ne'
    positivity
  · have := div_ne_zero hx hr.x_pos.ne'
    positivity

/-- Radii that are `s` times as long divide the extent by the square of `s`. -/
lemma extent_scale (radii p : Point ℝ) (s : ℝ) :
    extent (radii.scale s) p = extent radii p / s ^ 2 := by
  simp only [extent_eq, Point.scale, ← div_div, div_pow, add_div]

lemma enlarge_of_le (h : extent radii p ≤ 1) : enlarge radii p = radii := by
  have hlt : ¬ Scalar.lt (Scalar.lit 1) (extent radii p) = true := by
    rw [Scalar.lt_iff, Scalar.lit_one]
    exact h.not_gt
  rw [enlarge, if_neg hlt]

lemma enlarge_of_lt (h : 1 < extent radii p) :
    enlarge radii p = radii.scale (Real.sqrt (extent radii p)) := by
  have hlt : Scalar.lt (Scalar.lit 1) (extent radii p) = true := by
    rwa [Scalar.lt_iff, Scalar.lit_one]
  rw [enlarge, if_pos hlt]
  rfl

lemma extent_scale_sqrt (h : 0 < extent radii p) :
    extent (radii.scale (Real.sqrt (extent radii p))) p = 1 := by
  rw [extent_scale, Real.sq_sqrt h.le, div_self h.ne']

/-- Of all positive factors only the root makes the chord fit. -/
lemma eq_sqrt_of_extent_scale {s : ℝ} (hs : 0 < s) (h : extent (radii.scale s) p = 1) :
    s = Real.sqrt (extent radii p) := by
  rw [extent_scale, div_eq_one_iff_eq (pow_pos hs 2).ne'] at h
  rw [h, Real.sqrt_sq hs.le]

lemma isProper_enlarge (hr : IsProper radii) : IsProper (enlarge radii p) := by
  by_cases h : 1 < extent radii p
  · rw [enlarge_of_lt h]
    have hroot : 0 < Real.sqrt (extent radii p) := Real.sqrt_pos.mpr (one_pos.trans h)
    exact ⟨mul_pos hr.x_pos hroot, mul_pos hr.y_pos hroot⟩
  · rwa [enlarge_of_le (not_lt.mp h)]

lemma extent_enlarge_le (radii p : Point ℝ) : extent (enlarge radii p) p ≤ 1 := by
  by_cases h : 1 < extent radii p
  · rw [enlarge_of_lt h, extent_scale_sqrt (one_pos.trans h)]
  · rw [enlarge_of_le (not_lt.mp h)]
    exact not_lt.mp h

lemma spread_eq (hr : IsProper radii) (p : Point ℝ) :
    spread radii p = (radii.x * radii.y) ^ 2 * extent radii p := by
  have hx := hr.x_pos.ne'
  have hy := hr.y_pos.ne'
  unfold spread extent
  field_simp
  ring

lemma spread_ne_zero (hr : IsProper radii) (hp : p ≠ Point.origin) : spread radii p ≠ 0 := by
  rw [spread_eq hr]
  exact mul_ne_zero (pow_ne_zero 2 (mul_pos hr.x_pos hr.y_pos).ne') (extent_pos hr hp).ne'

/-! ### The offset of the center -/

lemma centerOffset_eq (hr : IsProper radii) (hp : p ≠ Point.origin) (hle : extent radii p ≤ 1)
    (largeArc sweep : Bool) : centerOffset radii p largeArc sweep =
      side largeArc sweep * Real.sqrt ((1 - extent radii p) / extent radii p) := by
  have hspread := spread_ne_zero hr hp
  have hextent := extent_pos hr hp
  have hzero : ¬ (spread radii p == Scalar.lit 0) = true := by
    rwa [Scalar.beq_iff, Scalar.lit_zero]
  -- The numerator and the spread have the square of both radii in common, for any extent.
  have hratio : (radii.x * radii.x * (radii.y * radii.y) - radii.x * radii.x * p.y * p.y
      - radii.y * radii.y * p.x * p.x) / spread radii p = (1 - extent radii p) / extent radii p := by
    have hnum := spread_eq hr p
    rw [div_eq_div_iff hspread hextent.ne', hnum]
    unfold spread at hnum
    linear_combination -(extent radii p) * hnum
  have hnonneg : 0 ≤ (1 - extent radii p) / extent radii p :=
    div_nonneg (sub_nonneg.mpr hle) hextent.le
  rw [centerOffset]
  simp only [hzero, Bool.false_eq_true, if_false]
  rw [hratio, Scalar.positivePart_of_nonneg hnonneg, Scalar.lit_one]
  rfl

/-- The offset makes up for what the chord lacks to a diameter. -/
lemma centerOffset_sq (hr : IsProper radii) (hp : p ≠ Point.origin) (hle : extent radii p ≤ 1)
    (largeArc sweep : Bool) :
    centerOffset radii p largeArc sweep ^ 2 * extent radii p = 1 - extent radii p := by
  have hextent := extent_pos hr hp
  have hnonneg : 0 ≤ (1 - extent radii p) / extent radii p :=
    div_nonneg (sub_nonneg.mpr hle) hextent.le
  rw [centerOffset_eq hr hp hle, mul_pow, side_sq, one_mul, Real.sq_sqrt hnonneg,
    div_mul_cancel₀ _ hextent.ne']

/-! ### Directions from the center -/

/-- The direction to a point is the point in units of the radii and, across the chord, the offset of the
center. -/
lemma fromCenter_localCenter (hr : IsProper radii) (p w : Point ℝ) (largeArc sweep : Bool) :
    fromCenter radii w (localCenter radii p largeArc sweep) =
      ⟨w.x / radii.x - centerOffset radii p largeArc sweep * (p.y / radii.y),
        w.y / radii.y + centerOffset radii p largeArc sweep * (p.x / radii.x)⟩ := by
  have hx := hr.x_pos.ne'
  have hy := hr.y_pos.ne'
  ext
  · simp only [fromCenter, localCenter]
    field_simp
  · simp only [fromCenter, localCenter]
    field_simp
    ring

lemma toCenter_eq_fromCenter (radii p center : Point ℝ) :
    toCenter radii p center = fromCenter radii (-p) center := rfl

section Directions

variable (hr : IsProper radii) (hp : p ≠ Point.origin) (hle : extent radii p ≤ 1)
  (largeArc sweep : Bool)

include hr hp hle

lemma dot_fromCenter :
    let u := fromCenter radii p (localCenter radii p largeArc sweep)
    u.dot u = 1 := by
  have hoffset := centerOffset_sq hr hp hle largeArc sweep
  rw [extent_eq] at hoffset
  dsimp only
  rw [fromCenter_localCenter hr, Point.dot]
  linear_combination hoffset

lemma dot_toCenter :
    let v := toCenter radii p (localCenter radii p largeArc sweep)
    v.dot v = 1 := by
  have hoffset := centerOffset_sq hr hp hle largeArc sweep
  rw [extent_eq] at hoffset
  dsimp only
  rw [toCenter_eq_fromCenter, fromCenter_localCenter hr, Point.dot, Point.neg_x, Point.neg_y]
  linear_combination hoffset

omit hp hle in
/-- The two directions turn to the side on which the center lies. -/
lemma cross_directions :
    (fromCenter radii p (localCenter radii p largeArc sweep)).cross
        (toCenter radii p (localCenter radii p largeArc sweep)) =
      2 * centerOffset radii p largeArc sweep * extent radii p := by
  rw [toCenter_eq_fromCenter, fromCenter_localCenter hr, fromCenter_localCenter hr, extent_eq,
    Point.cross, Point.neg_x, Point.neg_y]
  ring

end Directions

end Radii

/-! ### The angle between two directions -/

section Angles

variable {u v : Point ℝ}

lemma angle_of_cross_pos (h : 0 < u.cross v) : 0 < angle u v ∧ angle u v < Real.pi := by
  have hnonneg : 0 ≤ Complex.arg ⟨u.dot v, u.cross v⟩ := Complex.arg_nonneg_iff.mpr h.le
  have hzero : Complex.arg ⟨u.dot v, u.cross v⟩ ≠ 0 := fun hzero =>
    h.ne' (Complex.arg_eq_zero_iff.mp hzero).2
  have hpi : Complex.arg ⟨u.dot v, u.cross v⟩ < Real.pi :=
    Complex.arg_lt_pi_iff.mpr (Or.inr h.ne')
  exact ⟨hnonneg.lt_of_ne' hzero, hpi⟩

lemma angle_of_cross_neg (h : u.cross v < 0) : -Real.pi < angle u v ∧ angle u v < 0 :=
  ⟨Complex.neg_pi_lt_arg _, Complex.arg_neg_iff.mpr h⟩

lemma sweepAngle_true (δ : ℝ) : sweepAngle true δ = if δ < 0 then δ + 2 * Real.pi else δ := by
  simp only [sweepAngle, Bool.not_true, Bool.false_and, Bool.false_eq_true, if_false, Bool.true_and,
    Scalar.lt_iff, Scalar.lit_zero, Scalar.lit_two]
  rfl

lemma sweepAngle_false (δ : ℝ) : sweepAngle false δ = if 0 < δ then δ - 2 * Real.pi else δ := by
  simp only [sweepAngle, Bool.not_false, Bool.false_and, Bool.false_eq_true, if_false, Bool.true_and,
    Scalar.lt_iff, Scalar.lit_zero, Scalar.lit_two]
  rfl

end Angles

/-- An angle in the direction of a sweep: positive or negative, and more than half a turn for a large
arc. -/
structure Runs (largeArc sweep : Bool) (δ : ℝ) : Prop where
  pos : sweep = true → 0 < δ
  neg : sweep = false → δ < 0
  large : Real.pi < |δ| ↔ largeArc = true

/-- The sign of the angle between the directions is that of the side, and a full turn is added just where
the sweep runs the other way. -/
lemma runs_sweepAngle {δ : ℝ} (largeArc sweep : Bool)
    (hpos : 0 < side largeArc sweep → 0 < δ ∧ δ < Real.pi)
    (hneg : side largeArc sweep < 0 → -Real.pi < δ ∧ δ < 0) :
    Runs largeArc sweep (sweepAngle sweep δ) := by
  have hpi := Real.pi_pos
  cases largeArc <;> cases sweep
  case false.false =>
    obtain ⟨hlow, hhigh⟩ := hneg (by norm_num [side])
    rw [sweepAngle_false, if_neg hhigh.not_gt]
    refine ⟨nofun, fun _ => hhigh, iff_of_false ?_ Bool.false_ne_true⟩
    rw [abs_of_neg hhigh]
    linarith
  case false.true =>
    obtain ⟨hlow, hhigh⟩ := hpos (by norm_num [side])
    rw [sweepAngle_true, if_neg hlow.not_gt]
    refine ⟨fun _ => hlow, nofun, iff_of_false ?_ Bool.false_ne_true⟩
    rw [abs_of_pos hlow]
    exact hhigh.not_gt
  case true.false =>
    obtain ⟨hlow, hhigh⟩ := hpos (by norm_num [side])
    have hback : δ - 2 * Real.pi < 0 := by linarith
    rw [sweepAngle_false, if_pos hlow]
    refine ⟨nofun, fun _ => hback, iff_of_true ?_ rfl⟩
    rw [abs_of_neg hback]
    linarith
  case true.true =>
    obtain ⟨hlow, hhigh⟩ := hneg (by norm_num [side])
    have hforth : 0 < δ + 2 * Real.pi := by linarith
    rw [sweepAngle_true, if_pos hhigh]
    refine ⟨fun _ => hforth, nofun, iff_of_true ?_ rfl⟩
    rw [abs_of_pos hforth]
    linarith

/-- Radii with room to spare put the center beside the chord, on the side that the flags name. -/
lemma runs_of_extent_lt {radii p : Point ℝ} (hr : IsProper radii) (hp : p ≠ Point.origin)
    (hlt : extent radii p < 1) (largeArc sweep : Bool) :
    Runs largeArc sweep (sweepAngle sweep
      (angle (fromCenter radii p (localCenter radii p largeArc sweep))
        (toCenter radii p (localCenter radii p largeArc sweep)))) := by
  have hextent := extent_pos hr hp
  have hroot : 0 < Real.sqrt ((1 - extent radii p) / extent radii p) :=
    Real.sqrt_pos.mpr (div_pos (sub_pos.mpr hlt) hextent)
  have hcross := cross_directions hr largeArc sweep (p := p)
  rw [centerOffset_eq hr hp hlt.le] at hcross
  refine runs_sweepAngle largeArc sweep (fun hside => angle_of_cross_pos ?_)
    (fun hside => angle_of_cross_neg ?_)
  · rw [hcross]
    positivity
  · rw [hcross]
    have := mul_neg_of_neg_of_pos hside (mul_pos hroot hextent)
    linarith

/-! ### Arcs between two points -/

/-- The vector from the middle between two points to the first one, turned back. -/
noncomputable def halfChord (start finish : Point ℝ) (degrees : ℝ) : Point ℝ :=
  (Turn.ofDegrees degrees).undo ((start - finish).shrink (Scalar.lit 2))

/-- Half the chord leads from the middle to one end, and back to the other one. -/
lemma apply_halfChord_add (start finish : Point ℝ) (degrees : ℝ) :
    let turn := Turn.ofDegrees degrees
    let p := halfChord start finish degrees
    let middle := (start + finish).shrink (Scalar.lit 2)
    turn.apply p + middle = start ∧ turn.apply (-p) + middle = finish := by
  intro turn p middle
  have hchord : turn.apply p = (start - finish).shrink (Scalar.lit 2) :=
    Turn.apply_undo (Turn.cos_sq_add_sin_sq_ofDegrees degrees) _
  rw [Turn.apply_neg, hchord]
  constructor
  all_goals
    ext
    all_goals
      simp only [middle, Point.shrink, Scalar.lit_two, Point.add_x, Point.add_y, Point.sub_x,
        Point.sub_y, Point.neg_x, Point.neg_y]
      ring

lemma halfChord_ne_origin {start finish : Point ℝ} (h : start ≠ finish) (degrees : ℝ) :
    halfChord start finish degrees ≠ Point.origin := by
  intro hzero
  obtain ⟨hfirst, hlast⟩ := apply_halfChord_add start finish degrees
  have hneg : -(Point.origin : Point ℝ) = Point.origin := by ext <;> simp [Point.origin]
  rw [hzero] at hfirst hlast
  rw [hneg] at hlast
  exact h (hfirst.symm.trans hlast)

/-- Whether a point lies on the ellipse of an arc. -/
def Contains (a : CenterArc ℝ) (q : Point ℝ) : Prop :=
  extent a.radii (a.turn.undo (q - a.center)) = 1

section Places

variable {a : CenterArc ℝ} (hr : IsProper a.radii)

include hr

/-- Points of the unit circle stand for points of the ellipse. -/
lemma contains_place (hturn : a.turn.cos ^ 2 + a.turn.sin ^ 2 = 1) {u : Point ℝ} (hu : u.dot u = 1) :
    a.Contains (a.place u) := by
  have hvector : a.place u - a.center = a.turn.apply ⟨u.x * a.radii.x, u.y * a.radii.y⟩ := by
    ext <;> simp [place]
  rw [Contains, hvector, Turn.undo_apply hturn, extent_eq, mul_div_cancel_right₀ _ hr.x_pos.ne',
    mul_div_cancel_right₀ _ hr.y_pos.ne', sq, sq]
  exact hu

/-- The direction to a point stands for the point, counted from where the center is. -/
lemma place_fromCenter {c m : Point ℝ} (hcenter : a.center = a.turn.apply c + m) (w : Point ℝ) :
    a.place (fromCenter a.radii w c) = a.turn.apply w + m := by
  rw [place, hcenter]
  ext
  all_goals
    simp only [fromCenter, div_mul_cancel₀ _ hr.x_pos.ne', div_mul_cancel₀ _ hr.y_pos.ne', Turn.apply,
      Point.add_x, Point.add_y]
    ring

end Places

/-- The radii of an arc without their signs. -/
noncomputable def lengths (arc : Arc ℝ) : Point ℝ :=
  ⟨Scalar.abs arc.radii.x, Scalar.abs arc.radii.y⟩

lemma isProper_lengths {arc : Arc ℝ} (hx : arc.radii.x ≠ 0) (hy : arc.radii.y ≠ 0) :
    IsProper (lengths arc) :=
  ⟨abs_pos.mpr hx, abs_pos.mpr hy⟩

lemma segments_eq_curves {arc : Arc ℝ} {start finish : Point ℝ} (hne : start ≠ finish)
    (hx : arc.radii.x ≠ 0) (hy : arc.radii.y ≠ 0) :
    arc.segments start finish = (between start finish (lengths arc) arc).curves finish := by
  have hr := isProper_lengths hx hy
  have hdrawn : ¬ ((lengths arc).x == Scalar.lit 0 || (lengths arc).y == Scalar.lit 0
      || start == finish) = true := by
    simp only [Bool.or_eq_true, Scalar.beq_iff, Scalar.lit_zero, Point.beq_iff]
    rintro ((hzero | hzero) | heq)
    · exact hr.x_pos.ne' hzero
    · exact hr.y_pos.ne' hzero
    · exact hne heq
  rw [Arc.segments]
  exact if_neg hdrawn

/-- The arc between two different points, with radii that are not zero, runs on an ellipse through both
points: the directions to them are of unit length. The radii are left alone if they can span the chord, and
else take the one factor that makes them do so. If they have room to spare, the angle goes in the direction
of the sweep, and over more than half a turn just for a large arc. -/
theorem ellipse_through_ends (arc : Arc ℝ) {start finish : Point ℝ} (hne : start ≠ finish)
    (hx : arc.radii.x ≠ 0) (hy : arc.radii.y ≠ 0) :
    let p := halfChord start finish arc.rotation
    let a := between start finish (lengths arc) arc
    let c := localCenter a.radii p arc.largeArc arc.sweep
    let u := fromCenter a.radii p c
    let v := toCenter a.radii p c
    arc.segments start finish = a.curves finish
    ∧ (u.dot u = 1 ∧ a.place u = start ∧ a.Contains start)
    ∧ (v.dot v = 1 ∧ a.place v = finish ∧ a.Contains finish)
    ∧ (extent (lengths arc) p ≤ 1 → a.radii = lengths arc)
    ∧ (1 < extent (lengths arc) p → ∃ s, 0 < s ∧ a.radii = (lengths arc).scale s
        ∧ ∀ t, 0 < t → (extent ((lengths arc).scale t) p = 1 ↔ t = s))
    ∧ spread a.radii p ≠ 0
    ∧ (extent (lengths arc) p < 1 → Runs arc.largeArc arc.sweep a.delta) := by
  intro p a c u v
  have hlengths := isProper_lengths hx hy
  have hp : p ≠ Point.origin := halfChord_ne_origin hne arc.rotation
  have hr : IsProper a.radii := isProper_enlarge hlengths
  have hle : extent a.radii p ≤ 1 := extent_enlarge_le (lengths arc) p
  have hturn := Turn.cos_sq_add_sin_sq_ofDegrees arc.rotation
  have hu : u.dot u = 1 := dot_fromCenter hr hp hle arc.largeArc arc.sweep
  have hv : v.dot v = 1 := dot_toCenter hr hp hle arc.largeArc arc.sweep
  obtain ⟨hfirst, hlast⟩ := apply_halfChord_add start finish arc.rotation
  have hstart : a.place u = start := (place_fromCenter hr rfl p).trans hfirst
  have hfinish : a.place v = finish := (place_fromCenter hr rfl (-p)).trans hlast
  have hcontains (q : Point ℝ) (hq : q.dot q = 1) : a.Contains (a.place q) :=
    contains_place hr hturn hq
  refine ⟨segments_eq_curves hne hx hy, ⟨hu, hstart, hstart ▸ hcontains u hu⟩,
    ⟨hv, hfinish, hfinish ▸ hcontains v hv⟩, enlarge_of_le, fun hshort => ?_,
    spread_ne_zero hr hp, fun hroom => ?_⟩
  · have hextent : 0 < extent (lengths arc) p := one_pos.trans hshort
    refine ⟨_, Real.sqrt_pos.mpr hextent, enlarge_of_lt hshort, fun t ht =>
      ⟨eq_sqrt_of_extent_scale ht, ?_⟩⟩
    rintro rfl
    exact extent_scale_sqrt hextent
  · have hradii : a.radii = lengths arc := enlarge_of_le hroom.le
    exact runs_of_extent_lt hr hp (hradii ▸ hroom) arc.largeArc arc.sweep

omit [Circular] in
/-- The large arc of a circle with a chord as long as its radius: the angle runs over more than half a
turn, whatever the sign of a radius. -/
theorem ellipse_through_near_ends :
    letI := Circular.ofAngle
    let arc : Arc ℝ := ⟨⟨-2, 2⟩, 0, true, true⟩
    let start : Point ℝ := ⟨0, 0⟩
    let finish : Point ℝ := ⟨2, 0⟩
    start ≠ finish ∧ arc.radii.x ≠ 0 ∧ arc.radii.y ≠ 0
    ∧ extent (lengths arc) (halfChord start finish arc.rotation) = 1 / 4
    ∧ 0 < (between start finish (lengths arc) arc).delta
    ∧ Real.pi < |(between start finish (lengths arc) arc).delta| := by
  let _ := Circular.ofAngle
  intro arc start finish
  have hne : start ≠ finish := fun heq => by simpa [start, finish] using congrArg Point.x heq
  have hx : arc.radii.x ≠ 0 := by norm_num [arc]
  have hy : arc.radii.y ≠ 0 := by norm_num [arc]
  have hextent : extent (lengths arc) (halfChord start finish arc.rotation) = 1 / 4 := by
    have hcos : (Turn.ofDegrees arc.rotation).cos = 1 := by
      change Real.cos (0 * _) = 1
      rw [zero_mul, Real.cos_zero]
    have hsin : (Turn.ofDegrees arc.rotation).sin = 0 := by
      change Real.sin (0 * _) = 0
      rw [zero_mul, Real.sin_zero]
    have hrx : (lengths arc).x = 2 := by
      change |(-2 : ℝ)| = 2
      norm_num
    have hry : (lengths arc).y = 2 := by
      change |(2 : ℝ)| = 2
      norm_num
    rw [extent_eq, halfChord, Turn.undo, hcos, hsin, hrx, hry]
    simp [start, finish, Point.shrink]
    norm_num
  have hspec := ellipse_through_ends arc hne hx hy
  have hruns := hspec.2.2.2.2.2.2 (by rw [hextent]; norm_num)
  exact ⟨hne, hx, hy, hextent, hruns.pos rfl, hruns.large.mpr rfl⟩

end CenterArc

end Iconsmith
