import Iconsmith.Proofs.Drawable.Expressible
import Mathlib.Tactic

/-!
# Spelled graphics

A graphic that is `Spelled` has a text for all that is in it, so that its document can be read as markup,
though perhaps not as the same graphic: names lose tabs and line ends, and a radial gradient without
extent is refused. `reread` says what is read of it.
-/

namespace Iconsmith

open Double (unsigned)
open Drawable (IsColor)

/-! ### Fills -/

namespace Fill

/-- A fill that can be written, but perhaps has no extent. -/
def Spelled : Fill Float → Prop
  | solid color => IsColor color
  | linear stops _ _ | radial stops _ _ => AreStops stops

/-- A fill that is no radial gradient without extent. -/
def HasExtent : Fill Float → Prop
  | radial _ _ radius => 0 < radius
  | solid _ | linear .. => True

/-- What is read of a fill. A radial gradient needs a positive radius. -/
def reread : Fill Float → Except Drawable.Error (Fill Float)
  | radial stops center radius =>
    if unsigned radius ≤ 0 then .error (.gradient (.radiusNotPositive (unsigned radius)))
    else .ok (map unsigned (radial stops center radius))
  | a => .ok (a.map unsigned)

variable {a : Fill Float}

lemma expressible_iff : a.Expressible ↔ a.Spelled ∧ a.HasExtent := by
  cases a with
  | solid color => exact (and_iff_left trivial).symm
  | linear stops start finish => exact (and_iff_left trivial).symm
  | radial stops center radius => rfl

lemma Spelled.color (h : a.Spelled) : ∀ s ∈ a.stops, IsColor s.color := by
  cases a with
  | solid c => nofun
  | linear ss start finish => exact AreStops.color h
  | radial ss center radius => exact AreStops.color h

lemma reread_of_hasExtent (h : a.HasExtent) : a.reread = .ok (a.map unsigned) := by
  cases a with
  | solid color => rfl
  | linear stops start finish => rfl
  | radial stops center radius =>
    have hpositive : ¬ unsigned radius ≤ 0 := by
      rw [Double.unsigned_of_pos h]
      exact Double.not_le_zero_of_pos h
    exact if_neg hpositive

end Fill

/-! ### Names -/

section Names

variable {name : Option String}

lemma isName_spaced (h : ∀ n ∈ name, Xml.IsText n) : IsName (name.map Xml.spaced) := by
  intro n hn
  obtain ⟨m, hm, rfl⟩ := Option.map_eq_some_iff.mp hn
  exact Xml.isValue_spaced (h m hm)

lemma map_spaced_of_isName (h : IsName name) : name.map Xml.spaced = name := by
  cases name with
  | none => rfl
  | some n =>
    have hn := h n rfl
    rw [Option.map_some, (Xml.spaced_eq_iff hn.isText).mpr hn]

end Names

/-! ### Paths -/

namespace Path

/-- A path that can be written, but perhaps with a name that loses layout or with a fill that has no
extent. -/
structure Spelled (p : Path Float) : Prop where
  name : ∀ n ∈ p.name, Xml.IsText n
  fill : ∀ f ∈ p.fill, f.Spelled
  fillAlpha : IsOpacity p.fillAlpha
  strokeColor : ∀ c ∈ p.strokeColor, IsColor c
  strokeAlpha : IsOpacity p.strokeAlpha
  strokeWidth : ∀ w ∈ p.strokeWidth, w.unit = none

/-- A path with spaces in place of the tabs and line ends of its name. -/
def spaced (p : Path Float) : Path Float :=
  { p with name := p.name.map Xml.spaced }

/-- What is read of a path. -/
def reread (p : Path Float) : Except Drawable.Error (Path Float) := do
  let fill ← p.fill.mapM Fill.reread
  return { p.spaced.map unsigned with fill }

variable {p : Path Float}

lemma Expressible.spelled (h : p.Expressible) : p.Spelled where
  name n hn := (h.name n hn).isText
  fill f hf := (Fill.expressible_iff.mp (h.fill f hf)).1
  fillAlpha := h.fillAlpha
  strokeColor := h.strokeColor
  strokeAlpha := h.strokeAlpha
  strokeWidth := h.strokeWidth

lemma Spelled.spaced (h : p.Spelled) : p.spaced.Spelled :=
  { h with name := fun n hn => (isName_spaced h.name n hn).isText }

lemma spaced_of_isName (h : IsName p.name) : p.spaced = p := by
  rw [Path.spaced, map_spaced_of_isName h]

/-- What is read of a path has no layout left in its name. -/
lemma Spelled.reread_spaced (h : p.Spelled) : p.spaced.reread = p.reread := by
  have hsame : p.spaced.spaced = p.spaced := spaced_of_isName (isName_spaced h.name)
  rw [reread, hsame]
  rfl

lemma reread_of_hasExtent (h : ∀ f ∈ p.fill, f.HasExtent) :
    p.reread = .ok (p.spaced.map unsigned) := by
  have hfill : p.fill.mapM Fill.reread = .ok (p.fill.map (Fill.map unsigned)) := by
    cases hp : p.fill with
    | none => rfl
    | some a =>
      rw [Option.mapM_some, Fill.reread_of_hasExtent (h a hp)]
      rfl
  rw [reread, hfill]
  rfl

/-- A path is refused for what its fill is refused for. -/
lemma reread_of_error {f : Fill Float} (hf : f ∈ p.fill) {e : Drawable.Error}
    (h : f.reread = .error e) : p.reread = .error e := by
  rw [reread, hf, Option.mapM_some, h]
  rfl

lemma Expressible.reread_eq (h : p.Expressible) : p.reread = .ok (p.map unsigned) := by
  rw [reread_of_hasExtent fun f hf => (Fill.expressible_iff.mp (h.fill f hf)).2,
    spaced_of_isName h.name]

end Path

/-! ### Nodes -/

namespace Node

mutual

/-- A node that can be written, but perhaps with names that lose layout or with fills that have no
extent. -/
def Spelled : Node Float → Prop
  | group name _ children => (∀ n ∈ name, Xml.IsText n) ∧ SpelledAll children
  | path p => p.Spelled

/-- The same for a list of nodes. -/
def SpelledAll : List (Node Float) → Prop
  | [] => True
  | n :: ns => n.Spelled ∧ SpelledAll ns

end

mutual

/-- What is read of a node. -/
def reread : Node Float → Except Drawable.Error (Node Float)
  | group name transform children => do
    let inside ← rereadAll children
    return group (name.map Xml.spaced) (transform.map unsigned) inside
  | path p => return path (← p.reread)

/-- What is read of a list of nodes. -/
def rereadAll : List (Node Float) → Except Drawable.Error (List (Node Float))
  | [] => return []
  | n :: ns => return (← n.reread) :: (← rereadAll ns)

end

lemma spelledAll_iff {ns : List (Node Float)} : SpelledAll ns ↔ ∀ n ∈ ns, n.Spelled := by
  induction ns with
  | nil => simp [SpelledAll]
  | cons n ns ih => rw [SpelledAll, ih, List.forall_mem_cons]

lemma rereadAll_eq_mapM (ns : List (Node Float)) : rereadAll ns = ns.mapM reread := by
  induction ns with
  | nil => rfl
  | cons n ns ih => rw [rereadAll, List.mapM_cons, ih]

mutual

lemma Expressible.spelled {n : Node Float} (h : n.Expressible) : n.Spelled := by
  match n with
  | group name transform children =>
    exact ⟨fun m hm => (h.1 m hm).isText, ExpressibleAll.spelled h.2⟩
  | path p => exact Path.Expressible.spelled h

lemma ExpressibleAll.spelled {ns : List (Node Float)} (h : ExpressibleAll ns) : SpelledAll ns := by
  match ns with
  | [] => trivial
  | n :: ns => exact ⟨Expressible.spelled h.1, ExpressibleAll.spelled h.2⟩

end

mutual

/-- What is read of a node that can be written is the node, but for the signs of zeros. -/
lemma Expressible.reread_eq {n : Node Float} (h : n.Expressible) :
    n.reread = .ok (n.map unsigned) := by
  match n with
  | group name transform children =>
    rw [reread, ExpressibleAll.rereadAll_eq h.2, map_spaced_of_isName h.1, map_group]
    rfl
  | path p =>
    have hp : p.Expressible := h
    rw [reread, hp.reread_eq, map_path]
    rfl

lemma ExpressibleAll.rereadAll_eq {ns : List (Node Float)} (h : ExpressibleAll ns) :
    rereadAll ns = .ok (ns.map (Node.map unsigned)) := by
  match ns with
  | [] => rfl
  | n :: ns =>
    rw [rereadAll, Expressible.reread_eq h.1, ExpressibleAll.rereadAll_eq h.2]
    rfl

end

end Node

/-! ### Graphics -/

namespace Graphic

/-- A graphic that can be written, but perhaps with names that lose layout or with fills that have no
extent. -/
structure Spelled (g : Graphic Float) : Prop where
  finite : ∀ x ∈ g.numbers, x.isFinite = true
  viewport : 0 < g.viewport.x ∧ 0 < g.viewport.y
  nodes : Node.SpelledAll g.nodes

/-- What is read of a graphic. -/
def reread (g : Graphic Float) : Except Drawable.Error (Graphic Float) := do
  let nodes ← Node.rereadAll g.nodes
  return { g.map unsigned with nodes }

lemma Expressible.spelled {g : Graphic Float} (h : g.Expressible) : g.Spelled :=
  ⟨h.finite, h.viewport, Node.ExpressibleAll.spelled h.nodes⟩

end Graphic

end Iconsmith
