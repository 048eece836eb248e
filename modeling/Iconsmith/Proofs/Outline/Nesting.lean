import Iconsmith.Proofs.Plane.Exact
import Iconsmith.Outline.Replay

/-!
# Outlines in nested groups

The walk through a graphic multiplies the maps of the groups on its way down, and maps the points of a path
when it comes to one. In exact arithmetic that is the same as to draw each path alone, and to map its points
by one group after the other on the way up.
-/

namespace Iconsmith

/-! ### The groups around a path -/

section Around

variable {α : Type}

mutual

/-- The paths of a node, each with the transforms of the groups around it, the innermost first. -/
def Node.withGroups (around : List (Transform α)) : Node α → List (List (Transform α) × Path α)
  | .group _ t children => Node.allWithGroups (t :: around) children
  | .path p => [(around, p)]

/-- The paths of a list of nodes, each with the transforms of the groups around it. -/
def Node.allWithGroups (around : List (Transform α)) :
    List (Node α) → List (List (Transform α) × Path α)
  | [] => []
  | n :: ns => n.withGroups around ++ Node.allWithGroups around ns

end

mutual

lemma Node.map_snd_withGroups (around : List (Transform α)) :
    ∀ n : Node α, (n.withGroups around).map Prod.snd = n.paths
  | .group _ t children => Node.map_snd_allWithGroups (t :: around) children
  | .path _ => rfl

/-- The paths with groups around them are those of the tree, in the same order. -/
lemma Node.map_snd_allWithGroups (around : List (Transform α)) :
    ∀ ns : List (Node α), (Node.allWithGroups around ns).map Prod.snd = Node.pathsOf ns
  | [] => rfl
  | n :: ns => by
    rw [Node.allWithGroups, List.map_append, Node.map_snd_withGroups around n,
      Node.map_snd_allWithGroups around ns, Node.pathsOf]

end

end Around

variable {α : Type} [ExactScalar α]

/-! ### One group -/

namespace Transform

/-- Where a group moves a point: the vector to it from the pivot is stretched, turned, and taken from the
shifted pivot on. -/
def move (t : Transform α) (p : Point α) : Point α :=
  let v := p - t.pivot
  t.pivot + t.shift + (Turn.ofDegrees t.rotation).apply ⟨t.scale.x * v.x, t.scale.y * v.y⟩

/-- The four factors of the matrix, from the last to the first, are the steps of the move. -/
lemma apply_matrix (t : Transform α) (p : Point α) : t.matrix.apply p = t.move p := by
  rw [matrix, Affine.apply_mul, Affine.apply_mul, Affine.apply_mul, Affine.apply_shift,
    Affine.apply_stretch, Affine.apply_turn, Affine.apply_shift]
  ext
  all_goals
    simp only [move, Point.add_x, Point.add_y, Point.sub_x, Point.sub_y, Point.neg_x, Point.neg_y,
      ← sub_eq_add_neg]
    ring

lemma move_pivot (t : Transform α) : t.move t.pivot = t.pivot + t.shift := by
  ext <;> simp [move, Turn.apply]

/-- Maps a point by the matrices of some groups, one after the other. -/
def applyAll (around : List (Transform α)) (p : Point α) : Point α :=
  around.foldl (fun q t => t.matrix.apply q) p

end Transform

/-! ### Trees of groups -/

namespace Outline

mutual

/-- If the map of the walk maps points like the groups around, then each path is drawn alone and mapped by
its groups. -/
lemma ofNode_eq_flatMap {m : Affine α} {around : List (Transform α)}
    (hm : m.apply = Transform.applyAll around) : ∀ n, ofNode m n =
      (n.withGroups around).flatMap fun q =>
        (ofCommands q.2.commands).map (Segment.map (Transform.applyAll q.1))
  | .group _ t children => by
    have hinner : (m * t.matrix).apply = Transform.applyAll (t :: around) := by
      funext p
      rw [Affine.apply_mul, hm]
      rfl
    exact ofNodes_eq_flatMap hinner children
  | .path p => by rw [ofNode, hm, Node.withGroups, List.flatMap_singleton]

lemma ofNodes_eq_flatMap {m : Affine α} {around : List (Transform α)}
    (hm : m.apply = Transform.applyAll around) : ∀ ns, ofNodes m ns =
      (Node.allWithGroups around ns).flatMap fun q =>
        (ofCommands q.2.commands).map (Segment.map (Transform.applyAll q.1))
  | [] => rfl
  | n :: ns => by
    rw [ofNodes, Node.allWithGroups, List.flatMap_append, ofNode_eq_flatMap hm n,
      ofNodes_eq_flatMap hm ns]

end

mutual

/-- One more map around the walk maps what the walk draws. -/
lemma ofNode_comp {m m' : Affine α} {f : Point α → Point α} (hm : m.apply = f ∘ m'.apply) :
    ∀ n, ofNode m n = (ofNode m' n).map (Segment.map f)
  | .group _ t children => by
    have hinner : (m * t.matrix).apply = f ∘ (m' * t.matrix).apply := by
      funext p
      rw [Affine.apply_mul, hm, Function.comp_apply, Function.comp_apply, Affine.apply_mul]
    exact ofNodes_comp hinner children
  | .path p => by simp [ofNode, hm, Segment.map_map]

lemma ofNodes_comp {m m' : Affine α} {f : Point α → Point α} (hm : m.apply = f ∘ m'.apply) :
    ∀ ns, ofNodes m ns = (ofNodes m' ns).map (Segment.map f)
  | [] => rfl
  | n :: ns => by rw [ofNodes, ofNodes, List.map_append, ofNode_comp hm n, ofNodes_comp hm ns]

end

/-- A group around some nodes moves their outline. -/
lemma ofNodes_group (name : Option String) (t : Transform α) (ns : List (Node α)) :
    ofNodes Affine.identity [.group name t ns] =
      (ofNodes Affine.identity ns).map (Segment.map t.move) := by
  have hm : (Affine.identity * t.matrix).apply = t.move ∘ Affine.identity.apply := by
    funext p
    rw [Affine.apply_mul, Affine.apply_identity, Function.comp_apply, Affine.apply_identity,
      t.apply_matrix]
  rw [ofNodes, ofNode, ofNodes, List.append_nil, ofNodes_comp hm]

/-- The outline of some nodes consists of the outlines of their paths, each drawn from the origin and
mapped by the matrices of the groups around it from the inside out. A group around the nodes moves all
points of it: it stretches, then turns about the pivot, which goes to the pivot shifted. -/
theorem ofNodes_of_groups (ns : List (Node α)) :
    (Node.allWithGroups [] ns).map Prod.snd = Node.pathsOf ns
    ∧ ofNodes Affine.identity ns = ((Node.allWithGroups [] ns).flatMap fun q =>
        (ofCommands q.2.commands).map (Segment.map (Transform.applyAll q.1)))
    ∧ (∀ name (t : Transform α), ofNodes Affine.identity [.group name t ns] =
        (ofNodes Affine.identity ns).map (Segment.map t.move))
    ∧ ∀ t : Transform α, t.matrix.apply t.pivot = t.pivot + t.shift := by
  have hidentity : (Affine.identity : Affine α).apply = Transform.applyAll [] :=
    funext Affine.apply_identity
  refine ⟨Node.map_snd_allWithGroups [] ns, ofNodes_eq_flatMap hidentity ns,
    fun name t => ofNodes_group name t ns, fun t => ?_⟩
  rw [t.apply_matrix, t.move_pivot]

end Outline

end Iconsmith
