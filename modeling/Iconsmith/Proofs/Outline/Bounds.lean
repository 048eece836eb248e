import Iconsmith.Outline.Replay
import Iconsmith.Proofs.Decimal.Bounds

/-!
# Bounds of outlines

A relative command moves the pen by at most the size of its numbers, and a smooth one mirrors a control
point at the pen. So the points of an outline without arcs grow with the number of commands before them,
control points with its square, and the map around a path takes them once more.
-/

namespace Iconsmith

open Double (Within)

/-! ### Points -/

/-- A point with bounded coordinates. -/
def Point.Within (n a : Nat) (p : Point Float) : Prop :=
  Double.Within n a p.x ∧ Double.Within n a p.y

instance (n a : Nat) (p : Point Float) : Decidable (p.Within n a) :=
  inferInstanceAs (Decidable (_ ∧ _))

namespace Point

variable {n m a : Nat} {p q : Point Float}

lemma within_origin (n a : Nat) : (origin : Point Float).Within n a :=
  ⟨Double.within_zero n a, Double.within_zero n a⟩

lemma Within.mono (h : p.Within n a) (hnm : n ≤ m) : p.Within m a :=
  ⟨h.1.mono hnm, h.2.mono hnm⟩

lemma Within.add (hp : p.Within n a) (hq : q.Within m a) (h : n + m < 2 ^ 53) (ha : a ≤ 971) :
    (p + q).Within (n + m) a :=
  ⟨hp.1.add hq.1 h ha, hp.2.add hq.2 h ha⟩

/-- A point mirrored at another one. -/
lemma Within.reflect (hp : p.Within n a) (hq : q.Within m a) (h : n * 2 + m < 2 ^ 53)
    (ha : a ≤ 971) : (p.reflect q).Within (n * 2 + m) a := by
  have htwo : Double.Within 2 0 (Scalar.lit 2) := by decide +kernel
  have hdouble {x : Float} (hx : Double.Within n a x) :
      Double.Within (n * 2) (a + 0) (x * Scalar.lit 2) :=
    hx.mul htwo (by omega) ha
  exact ⟨(hdouble hp.1).sub hq.1 h ha, (hdouble hp.2).sub hq.2 h ha⟩

end Point

/-! ### Commands -/

/-- An arc of an ellipse without extent, which is drawn as a line. -/
def Arc.IsFlat (arc : Arc Float) : Prop :=
  (Scalar.abs arc.radii.x == Scalar.lit 0 || Scalar.abs arc.radii.y == Scalar.lit 0) = true

instance : DecidablePred Arc.IsFlat := fun _ => inferInstanceAs (Decidable (_ = true))

lemma Arc.segments_of_isFlat {arc : Arc Float} (h : arc.IsFlat) (start finish : Point Float) :
    arc.segments start finish = [.line finish] := by
  unfold Arc.segments
  rw [IsFlat] at h
  dsimp only
  rw [h, Bool.true_or, if_pos rfl]

/-- The arc of a command, if it has one. -/
def Command.arc? {α : Type} : Command α → Option (Arc α)
  | .arcTo _ arc _ => some arc
  | _ => none

/-- A command of bounded numbers that draws no curve of an ellipse. -/
structure Command.Within (a : Nat) (c : Command Float) : Prop where
  numbers : ∀ x ∈ c.numbers, Double.Within 1 a x
  flat : ∀ arc ∈ c.arc?, arc.IsFlat

instance (a : Nat) (c : Command Float) : Decidable (c.Within a) :=
  decidable_of_iff ((∀ x ∈ c.numbers, Double.Within 1 a x) ∧ ∀ arc ∈ c.arc?, arc.IsFlat)
    ⟨fun h => ⟨h.1, h.2⟩, fun h => ⟨h.numbers, h.flat⟩⟩

/-- The points of a command that draws no line along an axis. -/
def Command.points {α : Type} : Command α → List (Point α)
  | .moveTo _ p | .lineTo _ p | .smoothQuadraticTo _ p | .arcTo _ _ p => [p]
  | .cubicTo _ c₁ c₂ p => [c₁, c₂, p]
  | .smoothCubicTo _ c p | .quadraticTo _ c p => [c, p]
  | .horizontalTo .. | .verticalTo .. | .close => []

lemma Command.Within.points {a : Nat} {c : Command Float} (h : c.Within a) :
    ∀ p ∈ c.points, p.Within 1 a := by
  have hnumbers := h.numbers
  intro p hp
  have hmem : p.x ∈ c.numbers ∧ p.y ∈ c.numbers := by
    cases c <;> simp only [Command.points, List.mem_cons, List.not_mem_nil, or_false] at hp <;>
      rcases hp with rfl | rfl | rfl <;> simp [Command.numbers, Command.operands]
  exact ⟨hnumbers _ hmem.1, hnumbers _ hmem.2⟩

/-- An outline whose points are all bounded. -/
def Outline.Within (n a : Nat) (segments : List (Segment Float)) : Prop :=
  ∀ s ∈ segments, ∀ p ∈ s.points, p.Within n a

/-! ### Pens -/

namespace Pen

/-- A pen after at most `n` commands whose numbers have magnitudes up to `2 ^ a`. -/
structure Within (n a : Nat) (pen : Pen Float) : Prop where
  current : pen.current.Within n a
  start : pen.start.Within n a
  lastCubic : ∀ c ∈ pen.lastCubic, c.Within (n ^ 2) a
  lastQuadratic : ∀ c ∈ pen.lastQuadratic, c.Within (n ^ 2) a

variable {n a : Nat} {pen : Pen Float}

lemma within_initial (a : Nat) : (initial : Pen Float).Within 0 a where
  current := Point.within_origin 0 a
  start := Point.within_origin 0 a
  lastCubic := nofun
  lastQuadratic := nofun

/-- A coordinate that counts from another one, or from zero. -/
lemma within_coordinate (hn : (n + 1) ^ 2 < 2 ^ 53) (ha : a ≤ 971) (relative : Bool) {x y : Float}
    (hx : Double.Within n a x) (hy : Double.Within 1 a y) :
    Double.Within (n + 1) a (if relative then x + y else y) := by
  split_ifs
  · exact hx.add hy ((Nat.le_self_pow two_ne_zero (n + 1)).trans_lt hn) ha
  · exact hy.mono (Nat.le_add_left 1 n)

section Step

variable (hpen : pen.Within n a) (hn : (n + 1) ^ 2 < 2 ^ 53) (ha : a ≤ 971)

include hpen hn ha

lemma Within.resolve (relative : Bool) {p : Point Float} (hp : p.Within 1 a) :
    (pen.resolve relative p).Within (n + 1) a := by
  unfold Pen.resolve
  split_ifs
  · exact hpen.current.add hp ((Nat.le_self_pow two_ne_zero (n + 1)).trans_lt hn) ha
  · exact hp.mono (Nat.le_add_left 1 n)

/-- A mirrored control point takes one step in the growth of squares. -/
lemma Within.smoothControl {last : Option (Point Float)} (hlast : ∀ c ∈ last, c.Within (n ^ 2) a) :
    (pen.smoothControl last).Within ((n + 1) ^ 2) a := by
  cases last with
  | none => exact hpen.current.mono (by nlinarith)
  | some c =>
    have hgrowth : n * 2 + n ^ 2 ≤ (n + 1) ^ 2 := by nlinarith
    exact (hpen.current.reflect (hlast c rfl) (hgrowth.trans_lt hn) ha).mono hgrowth

omit hn ha

/-- The pen after a step to a point. -/
lemma Within.goTo {p : Point Float} (hp : p.Within (n + 1) a) : (pen.goTo p).Within (n + 1) a where
  current := hp
  start := hpen.start.mono (Nat.le_succ n)
  lastCubic := nofun
  lastQuadratic := nofun

lemma Within.line {p : Point Float} (hp : p.Within (n + 1) a) :
    Outline.Within ((n + 1) ^ 2) a (pen.line p).1 ∧ (pen.line p).2.Within (n + 1) a := by
  refine ⟨List.forall_mem_singleton.mpr (List.forall_mem_singleton.mpr ?_), hpen.goTo hp⟩
  exact hp.mono (Nat.le_self_pow two_ne_zero (n + 1))

lemma Within.cubic {c₁ c₂ p : Point Float} (hc₁ : c₁.Within ((n + 1) ^ 2) a)
    (hc₂ : c₂.Within ((n + 1) ^ 2) a) (hp : p.Within (n + 1) a) :
    Outline.Within ((n + 1) ^ 2) a (pen.cubic c₁ c₂ p).1 ∧ (pen.cubic c₁ c₂ p).2.Within (n + 1) a := by
  have hsquare := hp.mono (Nat.le_self_pow two_ne_zero (n + 1))
  refine ⟨List.forall_mem_singleton.mpr ?_, { hpen.goTo hp with lastCubic := ?_ }⟩
  · simp only [Segment.points, List.forall_mem_cons]
    exact ⟨hc₁, hc₂, hsquare, nofun⟩
  · rintro _ ⟨⟩
    exact hc₂

lemma Within.quadratic {c p : Point Float} (hc : c.Within ((n + 1) ^ 2) a)
    (hp : p.Within (n + 1) a) :
    Outline.Within ((n + 1) ^ 2) a (pen.quadratic c p).1 ∧ (pen.quadratic c p).2.Within (n + 1) a := by
  have hsquare := hp.mono (Nat.le_self_pow two_ne_zero (n + 1))
  refine ⟨List.forall_mem_singleton.mpr ?_, { hpen.goTo hp with lastQuadratic := ?_ }⟩
  · simp only [Segment.points, List.forall_mem_cons]
    exact ⟨hc, hsquare, nofun⟩
  · rintro _ ⟨⟩
    exact hc

end Step

/-- What one command draws is bounded, and so is the pen after it. -/
lemma Within.draw (hpen : pen.Within n a) (hn : (n + 1) ^ 2 < 2 ^ 53) (ha : a ≤ 971)
    {c : Command Float} (hc : c.Within a) :
    Outline.Within ((n + 1) ^ 2) a (pen.draw c).1 ∧ (pen.draw c).2.Within (n + 1) a := by
  have hpoint (r : Bool) {p : Point Float} (hp : p ∈ c.points) :
      (pen.resolve r p).Within (n + 1) a := hpen.resolve hn ha r (hc.points p hp)
  have hcontrol (r : Bool) {p : Point Float} (hp : p ∈ c.points) :
      (pen.resolve r p).Within ((n + 1) ^ 2) a :=
    (hpoint r hp).mono (Nat.le_self_pow two_ne_zero (n + 1))
  cases c with
  | moveTo r p =>
    have hp := hpoint r (List.mem_singleton_self p)
    refine ⟨List.forall_mem_singleton.mpr (List.forall_mem_singleton.mpr ?_),
      { hpen.goTo hp with start := hp }⟩
    exact hcontrol r (List.mem_singleton_self p)
  | lineTo r p => exact hpen.line (hpoint r (List.mem_singleton_self p))
  | horizontalTo r x =>
    have hx := hc.numbers x (List.mem_singleton_self x)
    exact hpen.line ⟨within_coordinate hn ha r hpen.current.1 hx,
      hpen.current.2.mono (Nat.le_succ n)⟩
  | verticalTo r y =>
    have hy := hc.numbers y (List.mem_singleton_self y)
    exact hpen.line ⟨hpen.current.1.mono (Nat.le_succ n),
      within_coordinate hn ha r hpen.current.2 hy⟩
  | cubicTo r c₁ c₂ p =>
    exact hpen.cubic (hcontrol r (by simp [Command.points])) (hcontrol r (by simp [Command.points]))
      (hpoint r (by simp [Command.points]))
  | smoothCubicTo r c₂ p =>
    exact hpen.cubic (hpen.smoothControl hn ha hpen.lastCubic) (hcontrol r (by simp [Command.points]))
      (hpoint r (by simp [Command.points]))
  | quadraticTo r c p =>
    exact hpen.quadratic (hcontrol r (by simp [Command.points])) (hpoint r (by simp [Command.points]))
  | smoothQuadraticTo r p =>
    exact hpen.quadratic (hpen.smoothControl hn ha hpen.lastQuadratic)
      (hpoint r (by simp [Command.points]))
  | arcTo r arc p =>
    have hp := hpoint r (List.mem_singleton_self p)
    rw [Pen.draw, Arc.segments_of_isFlat (hc.flat arc rfl)]
    exact hpen.line hp
  | close =>
    have hstart := hpen.goTo (hpen.start.mono (Nat.le_succ n))
    exact ⟨List.forall_mem_singleton.mpr nofun, hstart⟩

/-- A list of commands draws an outline whose points are bounded by the square of their number. -/
lemma Within.drawAll (hpen : pen.Within n a) {cs : List (Command Float)}
    (hlength : (n + cs.length) ^ 2 < 2 ^ 53) (ha : a ≤ 971) (hcs : ∀ c ∈ cs, c.Within a) :
    Outline.Within ((n + cs.length) ^ 2) a (pen.drawAll cs).1 := by
  induction cs generalizing pen n with
  | nil => nofun
  | cons c cs ih =>
    rw [List.forall_mem_cons] at hcs
    rw [List.length_cons, Nat.add_comm cs.length, ← Nat.add_assoc] at hlength ⊢
    have hgrowth : (n + 1) ^ 2 ≤ (n + 1 + cs.length) ^ 2 :=
      Nat.pow_le_pow_left (Nat.le_add_right _ _) 2
    obtain ⟨hfirst, hnext⟩ := hpen.draw (hgrowth.trans_lt hlength) ha hcs.1
    refine List.forall_mem_append.mpr ⟨?_, ih hnext hlength hcs.2⟩
    intro s hs p hp
    exact (hfirst s hs p hp).mono hgrowth

end Pen

/-! ### Outlines -/

namespace Outline

/-- Commands draw from the origin. -/
lemma within_ofCommands {a : Nat} {cs : List (Command Float)} (hlength : cs.length ^ 2 < 2 ^ 53)
    (ha : a ≤ 971) (hcs : ∀ c ∈ cs, c.Within a) : Within (cs.length ^ 2) a (ofCommands cs) := by
  have hdrawn := (Pen.within_initial a).drawAll (by rwa [Nat.zero_add]) ha hcs
  rwa [Nat.zero_add] at hdrawn

mutual

/-- The paths of a node, with the maps of the coordinates around them. -/
def pathsOf (m : Affine Float) : Node Float → List (Affine Float × Path Float)
  | .group _ transform children => allPathsOf (m * transform.matrix) children
  | .path p => [(m, p)]

/-- The paths of a list of nodes, with the maps of the coordinates around them. -/
def allPathsOf (m : Affine Float) : List (Node Float) → List (Affine Float × Path Float)
  | [] => []
  | n :: ns => pathsOf m n ++ allPathsOf m ns

end

/-- The outline of a path in the coordinates that a map leads to. -/
def placed (q : Affine Float × Path Float) : List (Segment Float) :=
  (ofCommands q.2.commands).map (Segment.map q.1.apply)

mutual

lemma ofNode_eq (m : Affine Float) : ∀ n, ofNode m n = (pathsOf m n).flatMap placed
  | .group _ transform children => ofNodes_eq (m * transform.matrix) children
  | .path _ => (List.append_nil _).symm

lemma ofNodes_eq (m : Affine Float) : ∀ ns, ofNodes m ns = (allPathsOf m ns).flatMap placed
  | [] => rfl
  | n :: ns => by rw [ofNodes, allPathsOf, List.flatMap_append, ofNode_eq m n, ofNodes_eq m ns]

end

end Outline

/-- A map that stretches by at most `2 ^ b`, and shifts by at most as much as it stretches numbers up
to `2 ^ a`. -/
structure Affine.Within (a b : Nat) (m : Affine Float) : Prop where
  xAxis : m.xAxis.Within 1 b
  yAxis : m.yAxis.Within 1 b
  origin : m.origin.Within 1 (a + b)

instance (a b : Nat) (m : Affine Float) : Decidable (m.Within a b) :=
  decidable_of_iff (m.xAxis.Within 1 b ∧ m.yAxis.Within 1 b ∧ m.origin.Within 1 (a + b))
    ⟨fun h => ⟨h.1, h.2.1, h.2.2⟩, fun h => ⟨h.xAxis, h.yAxis, h.origin⟩⟩

namespace Affine

variable {n a b : Nat} {m : Affine Float} {p : Point Float}

lemma Within.applyVector (hm : m.Within a b) (hp : p.Within n a) (hn : n + n < 2 ^ 53)
    (hab : a + b ≤ 971) : (m.applyVector p).Within (n + n) (a + b) := by
  have hproduct {x y : Float} (hx : Double.Within 1 b x) (hy : Double.Within n a y) :
      Double.Within n (a + b) (x * y) := by
    have := hx.mul hy (by omega) (by omega)
    rwa [Nat.one_mul, Nat.add_comm] at this
  exact ⟨(hproduct hm.xAxis.1 hp.1).add (hproduct hm.yAxis.1 hp.2) (by omega) hab,
    (hproduct hm.xAxis.2 hp.1).add (hproduct hm.yAxis.2 hp.2) (by omega) hab⟩

lemma Within.apply (hm : m.Within a b) (hp : p.Within n a) (hn : n + n + 1 < 2 ^ 53)
    (hab : a + b ≤ 971) : (m.apply p).Within (n + n + 1) (a + b) :=
  (hm.applyVector hp (by omega) hab).add hm.origin hn hab

end Affine

/-- The paths of a graphic, with the maps to the coordinates of its viewport. -/
def Graphic.placedPaths (g : Graphic Float) : List (Affine Float × Path Float) :=
  Outline.allPathsOf Affine.identity g.nodes

lemma Graphic.outline_eq (g : Graphic Float) : g.outline = g.placedPaths.flatMap Outline.placed :=
  Outline.ofNodes_eq Affine.identity g.nodes

/-- A path of no more than `2 ^ 25` commands whose numbers have magnitudes up to `2 ^ a`, and that
draws no curve of an ellipse. -/
structure Path.Within (a : Nat) (p : Path Float) : Prop where
  length : p.commands.length ≤ 2 ^ 25
  commands : ∀ c ∈ p.commands, c.Within a

instance (a : Nat) (p : Path Float) : Decidable (p.Within a) :=
  decidable_of_iff (p.commands.length ≤ 2 ^ 25 ∧ ∀ c ∈ p.commands, c.Within a)
    ⟨fun h => ⟨h.1, h.2⟩, fun h => ⟨h.length, h.commands⟩⟩

/-- If the paths of a graphic and the maps around them are bounded, then the outline is. -/
lemma Graphic.within_outline {g : Graphic Float} {a b : Nat} (hab : a + b ≤ 971)
    (h : ∀ q ∈ g.placedPaths, q.1.Within a b ∧ q.2.Within a) :
    Outline.Within (2 ^ 51 + 1) (a + b) g.outline := by
  rw [g.outline_eq]
  intro s hs p hp
  obtain ⟨q, hq, hplaced⟩ := List.mem_flatMap.mp hs
  obtain ⟨drawn, hdrawn, rfl⟩ := List.mem_map.mp hplaced
  rw [Segment.points_map] at hp
  obtain ⟨point, hpoint, rfl⟩ := List.mem_map.mp hp
  obtain ⟨hmap, hpath⟩ := h q hq
  have hsquare : q.2.commands.length ^ 2 ≤ 2 ^ 50 :=
    (Nat.pow_le_pow_left hpath.length 2).trans_eq (by norm_num)
  have hbound : point.Within (q.2.commands.length ^ 2) a :=
    Outline.within_ofCommands (hsquare.trans_lt (by norm_num)) (by omega) hpath.commands drawn hdrawn
      point hpoint
  exact hmap.apply (hbound.mono hsquare) (by norm_num) hab

end Iconsmith
