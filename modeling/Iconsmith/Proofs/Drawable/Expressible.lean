import Iconsmith.Proofs.Drawable.Values
import Mathlib.Tactic

/-!
# Expressible graphics

Not every graphic can be written as a drawable: a drawable has no text for a color that is not fully
spelled out, for the unit of a stroke, or for a name with line ends, and is refused with a gradient of
one color or without an extent. `Expressible` says that none of this occurs at any depth.
-/

namespace Iconsmith

open Drawable (IsColor)

/-- A number between zero and one. -/
def IsOpacity (x : Float) : Prop :=
  0 ≤ x ∧ x ≤ 1

instance (x : Float) : Decidable (IsOpacity x) :=
  inferInstanceAs (Decidable (_ ∧ _))

/-- A name of any characters of a document but tabs and line ends, which may be empty. -/
def IsName (name : Option String) : Prop :=
  ∀ n ∈ name, Xml.IsValue n

instance (name : Option String) : Decidable (IsName name) :=
  inferInstanceAs (Decidable (∀ n ∈ name, _))

/-- At least two stops in full colors, none of them outside the gradient. -/
structure AreStops (stops : List (ColorStop Float)) : Prop where
  two : 2 ≤ stops.length
  offset : ∀ s ∈ stops, IsOpacity s.offset
  color : ∀ s ∈ stops, IsColor s.color

instance (stops : List (ColorStop Float)) : Decidable (AreStops stops) :=
  decidable_of_iff (2 ≤ stops.length ∧ (∀ s ∈ stops, IsOpacity s.offset) ∧
    ∀ s ∈ stops, IsColor s.color)
    ⟨fun ⟨two, offset, color⟩ => ⟨two, offset, color⟩,
      fun ⟨two, offset, color⟩ => ⟨two, offset, color⟩⟩

/-- A fill that can be written. -/
def Fill.Expressible : Fill Float → Prop
  | .solid color => IsColor color
  | .linear stops _ _ => AreStops stops
  | .radial stops _ radius => AreStops stops ∧ 0 < radius

instance : (a : Fill Float) → Decidable a.Expressible
  | .solid color => inferInstanceAs (Decidable (IsColor color))
  | .linear stops _ _ => inferInstanceAs (Decidable (AreStops stops))
  | .radial stops _ radius => inferInstanceAs (Decidable (AreStops stops ∧ 0 < radius))

/-- A path that can be written. -/
structure Path.Expressible (p : Path Float) : Prop where
  name : IsName p.name
  fill : ∀ f ∈ p.fill, f.Expressible
  fillAlpha : IsOpacity p.fillAlpha
  strokeColor : ∀ c ∈ p.strokeColor, IsColor c
  strokeAlpha : IsOpacity p.strokeAlpha
  strokeWidth : ∀ w ∈ p.strokeWidth, w.unit = none

instance (p : Path Float) : Decidable p.Expressible :=
  decidable_of_iff (IsName p.name ∧ (∀ f ∈ p.fill, f.Expressible) ∧ IsOpacity p.fillAlpha ∧
    (∀ c ∈ p.strokeColor, IsColor c) ∧ IsOpacity p.strokeAlpha ∧
    ∀ w ∈ p.strokeWidth, w.unit = none)
    ⟨fun ⟨name, fill, fillAlpha, strokeColor, strokeAlpha, strokeWidth⟩ =>
      ⟨name, fill, fillAlpha, strokeColor, strokeAlpha, strokeWidth⟩,
      fun ⟨name, fill, fillAlpha, strokeColor, strokeAlpha, strokeWidth⟩ =>
        ⟨name, fill, fillAlpha, strokeColor, strokeAlpha, strokeWidth⟩⟩

mutual

/-- A node that can be written. -/
def Node.Expressible : Node Float → Prop
  | .group name _ children => IsName name ∧ Node.ExpressibleAll children
  | .path p => p.Expressible

/-- Nodes that can be written. -/
def Node.ExpressibleAll : List (Node Float) → Prop
  | [] => True
  | n :: ns => n.Expressible ∧ Node.ExpressibleAll ns

end

mutual

/-- Whether a node can be written is found out node by node. -/
def Node.decideExpressible : (n : Node Float) → Decidable n.Expressible
  | .group name _ children =>
    have := Node.decideExpressibleAll children
    inferInstanceAs (Decidable (IsName name ∧ Node.ExpressibleAll children))
  | .path p => inferInstanceAs (Decidable p.Expressible)

/-- The same for a list of nodes. -/
def Node.decideExpressibleAll : (ns : List (Node Float)) → Decidable (Node.ExpressibleAll ns)
  | [] => isTrue trivial
  | n :: ns =>
    have := n.decideExpressible
    have := Node.decideExpressibleAll ns
    inferInstanceAs (Decidable (n.Expressible ∧ Node.ExpressibleAll ns))

end

/-- A graphic that can be written. -/
structure Graphic.Expressible (g : Graphic Float) : Prop where
  finite : ∀ x ∈ g.numbers, x.isFinite = true
  viewport : 0 < g.viewport.x ∧ 0 < g.viewport.y
  nodes : Node.ExpressibleAll g.nodes

instance (g : Graphic Float) : Decidable g.Expressible :=
  have := Node.decideExpressibleAll g.nodes
  decidable_of_iff ((∀ x ∈ g.numbers, x.isFinite = true) ∧
    (0 < g.viewport.x ∧ 0 < g.viewport.y) ∧ Node.ExpressibleAll g.nodes)
    ⟨fun ⟨finite, viewport, nodes⟩ => ⟨finite, viewport, nodes⟩,
      fun ⟨finite, viewport, nodes⟩ => ⟨finite, viewport, nodes⟩⟩

end Iconsmith
