import Iconsmith.Color.Basic
import Iconsmith.Proofs.Decimal.Doubles
import Iconsmith.Proofs.Graphic.Numbers

/-!
# Normal forms of graphics

Two graphics can differ without being drawn in different ways: in groups that have no name and move
nothing, in the units of their sizes, and in the signs of zeros. A normal graphic has no such groups, no
signs on zeros, and sizes in density-independent pixels; what it draws is the same.
-/

namespace Iconsmith

open Double (unsigned)

/-- A path whose zeros have no signs and whose stroke has no unit. -/
def Path.normal (p : Path Float) : Path Float :=
  { p.map unsigned with strokeWidth := p.strokeWidth.map fun w => ⟨unsigned w.value, none⟩ }

/-- A node with all its paths normal, and with zeros that have no signs. -/
def Node.normal : Node Float → Node Float
  | .group name transform children =>
    .group name (transform.map unsigned) (children.map Node.normal)
  | .path p => .path p.normal

lemma Node.normal_group (name : Option String) (t : Transform Float) (children : List (Node Float)) :
    (Node.group name t children).normal = .group name (t.map unsigned) (children.map Node.normal) := by
  simp [Node.normal]

lemma Node.normal_path (p : Path Float) : (Node.path p).normal = .path p.normal := by
  simp [Node.normal]

/-- Whether a group is no more than a list of its children. -/
def isPlainGroup (name : Option String) (t : Transform Float) : Bool :=
  name.isNone && t.isIdentity

mutual

/-- The nodes in place of a node: the children of a plain group, spliced in their turn. -/
def Node.splice : Node Float → List (Node Float)
  | .group name transform children =>
    if isPlainGroup name transform then Node.spliceAll children
    else [.group name transform (Node.spliceAll children)]
  | .path p => [.path p]

/-- The nodes in place of a list of nodes. -/
def Node.spliceAll : List (Node Float) → List (Node Float)
  | [] => []
  | n :: ns => n.splice ++ Node.spliceAll ns

end

/-- The normal form of a graphic. -/
def Graphic.normal (g : Graphic Float) : Graphic Float where
  width := ⟨unsigned g.width.toDp, some .dp⟩
  height := ⟨unsigned g.height.toDp, some .dp⟩
  viewport := g.viewport.map unsigned
  nodes := (Node.spliceAll g.nodes).map Node.normal

/-! ### Spliced nodes -/

mutual

/-- No plain group is left in a node. -/
def Node.Spliced : Node Float → Prop
  | .group name transform children =>
    isPlainGroup name transform = false ∧ Node.SplicedAll children
  | .path _ => True

/-- No plain group is left in a list of nodes. -/
def Node.SplicedAll : List (Node Float) → Prop
  | [] => True
  | n :: ns => n.Spliced ∧ Node.SplicedAll ns

end

lemma Node.splicedAll_append {ms ns : List (Node Float)} (hm : SplicedAll ms)
    (hn : SplicedAll ns) : SplicedAll (ms ++ ns) := by
  induction ms with
  | nil => exact hn
  | cons m ms ih => exact ⟨hm.1, ih hm.2⟩

mutual

lemma Node.splicedAll_splice : ∀ n : Node Float, SplicedAll n.splice
  | .group name t children => by
    have hchildren := Node.splicedAll_spliceAll children
    rw [splice]
    split_ifs with hplain
    · exact hchildren
    · exact ⟨⟨by simpa using hplain, hchildren⟩, trivial⟩
  | .path _ => ⟨trivial, trivial⟩

/-- Splicing leaves no plain group at any depth. -/
lemma Node.splicedAll_spliceAll : ∀ ns : List (Node Float), SplicedAll (spliceAll ns)
  | [] => trivial
  | n :: ns => splicedAll_append (Node.splicedAll_splice n) (Node.splicedAll_spliceAll ns)

end

lemma Node.pathsOf_append {α : Type} (ms ns : List (Node α)) :
    pathsOf (ms ++ ns) = pathsOf ms ++ pathsOf ns := by
  induction ms with
  | nil => rfl
  | cons m ms ih => simp [pathsOf, ih]

mutual

lemma Node.pathsOf_splice : ∀ n : Node Float, pathsOf n.splice = n.paths
  | .group name t children => by
    have hchildren := Node.pathsOf_spliceAll children
    rw [splice]
    split_ifs
    · exact hchildren
    · simp [pathsOf, paths, hchildren]
  | .path p => by simp [splice, pathsOf, paths]

/-- Splicing keeps all paths in their order. -/
lemma Node.pathsOf_spliceAll : ∀ ns : List (Node Float), pathsOf (spliceAll ns) = pathsOf ns
  | [] => rfl
  | n :: ns => by
    rw [spliceAll, pathsOf_append, Node.pathsOf_splice n, Node.pathsOf_spliceAll ns, pathsOf]

end

/-! ### Colors -/

/-- Eight hex digits in either case. -/
def IsHexColor (c : String) : Prop :=
  c.toList.length = 8 ∧ ∀ d ∈ c.toList, Color.isHexDigit d = true

instance (c : String) : Decidable (IsHexColor c) :=
  inferInstanceAs (Decidable (_ ∧ ∀ d ∈ c.toList, _))

lemma IsHexColor.notMem {c : String} (h : IsHexColor c) {d : Char}
    (hd : Color.isHexDigit d = false) : d ∉ c.toList := by
  intro hmem
  rw [h.2 d hmem] at hd
  contradiction

/-- The colors of a fill. -/
def Fill.colors {α : Type} : Fill α → List String
  | .solid color => [color]
  | .linear stops _ _ | .radial stops _ _ => stops.map (·.color)

/-- The colors of a path. -/
def Path.colors {α : Type} (p : Path α) : List String :=
  p.fill.toList.flatMap Fill.colors ++ p.strokeColor.toList

/-- A path with full colors. -/
def Path.Colored {α : Type} (p : Path α) : Prop :=
  ∀ c ∈ p.colors, IsHexColor c

instance {α : Type} (p : Path α) : Decidable p.Colored :=
  inferInstanceAs (Decidable (∀ c ∈ p.colors, _))

/-- A graphic with full colors. -/
def Graphic.Colored {α : Type} (g : Graphic α) : Prop :=
  ∀ p ∈ g.paths, p.Colored

instance {α : Type} (g : Graphic α) : Decidable g.Colored :=
  inferInstanceAs (Decidable (∀ p ∈ g.paths, _))

end Iconsmith
