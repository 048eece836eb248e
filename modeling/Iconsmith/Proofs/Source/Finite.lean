import Iconsmith.Proofs.Graphic.Numbers
import Iconsmith.Proofs.Results
import Iconsmith.Source.Finite

/-!
# Graphics that pass the check

Each number of a graphic stands for a quantity. The check goes through the quantities from the top of the
graphic: it stops at the first one whose number is infinite or undefined, and passes if there is none.
-/

namespace Iconsmith

open Source (Quantity)

variable {α : Type}

/-! ### Quantities -/

/-- The quantities of a fill. -/
def Fill.quantities : Fill α → List (Quantity × α)
  | .solid _ => []
  | .linear stops start finish =>
    (stops.map (·.offset)).map (.gradientStop, ·)
      ++ [start.x, start.y, finish.x, finish.y].map (.linearGradient, ·)
  | .radial stops center radius =>
    (stops.map (·.offset)).map (.gradientStop, ·)
      ++ [center.x, center.y, radius].map (.radialGradient, ·)

/-- The quantities of a path. -/
def Path.quantities (p : Path α) : List (Quantity × α) :=
  (p.commands.flatMap Command.numbers).map (.pathData, ·)
    ++ [(.fillAlpha, p.fillAlpha), (.strokeAlpha, p.strokeAlpha), (.strokeMiter, p.miter)]
    ++ p.strokeWidth.toList.map (fun w => (.strokeWidth, w.value))
    ++ p.fill.toList.flatMap Fill.quantities

mutual

/-- The quantities of a node at any depth. -/
def Node.quantities : Node α → List (Quantity × α)
  | .group _ transform children =>
    transform.numbers.map (.groupTransform, ·) ++ Node.quantitiesOf children
  | .path p => p.quantities

/-- The quantities of a list of nodes. -/
def Node.quantitiesOf : List (Node α) → List (Quantity × α)
  | [] => []
  | n :: ns => n.quantities ++ Node.quantitiesOf ns

end

/-- The quantities of a graphic, from the top. -/
def Graphic.quantities (g : Graphic α) : List (Quantity × α) :=
  [(.width, g.width.value), (.height, g.height.value), (.viewport, g.viewport.x),
    (.viewport, g.viewport.y)] ++ Node.quantitiesOf g.nodes

lemma map_snd_quantity (q : Quantity) (xs : List α) : (xs.map (q, ·)).map Prod.snd = xs := by
  rw [List.map_map]
  exact List.map_id xs

lemma Fill.map_snd_quantities (a : Fill α) : a.quantities.map Prod.snd = a.numbers := by
  cases a with
  | solid color => rfl
  | linear stops start finish =>
    rw [quantities, List.map_append, map_snd_quantity, map_snd_quantity, numbers]
  | radial stops center radius =>
    rw [quantities, List.map_append, map_snd_quantity, map_snd_quantity, numbers]

lemma Path.map_snd_quantities (p : Path α) : p.quantities.map Prod.snd = p.numbers := by
  have hfill : (p.fill.toList.flatMap Fill.quantities).map Prod.snd
      = p.fill.toList.flatMap Fill.numbers := by
    rw [List.map_flatMap]
    exact List.flatMap_congr fun a _ => a.map_snd_quantities
  rw [quantities, List.map_append, List.map_append, List.map_append, map_snd_quantity, hfill,
    List.map_map, numbers]
  rfl

mutual

lemma Node.map_snd_quantities : ∀ n : Node α, n.quantities.map Prod.snd = n.numbers
  | .group _ t children => by
    rw [quantities, List.map_append, map_snd_quantity, Node.map_snd_quantitiesOf children, numbers]
  | .path p => p.map_snd_quantities

lemma Node.map_snd_quantitiesOf : ∀ ns : List (Node α),
    (quantitiesOf ns).map Prod.snd = numbersOf ns
  | [] => rfl
  | n :: ns => by
    rw [quantitiesOf, List.map_append, Node.map_snd_quantities n, Node.map_snd_quantitiesOf ns,
      numbersOf]

end

/-- Every number of a graphic stands for a quantity. -/
lemma Graphic.map_snd_quantities (g : Graphic α) : g.quantities.map Prod.snd = g.numbers := by
  rw [quantities, List.map_append, Node.map_snd_quantitiesOf, numbers]
  rfl

namespace Source

/-! ### The first fault -/

/-- The first quantity whose number is not finite. -/
def firstFault? (qs : List (Quantity × Float)) : Option (Quantity × Float) :=
  qs.find? fun m => m.2.isNaN || m.2.isInf

/-- The outcome of a check that stops at the first fault. -/
def verdict (qs : List (Quantity × Float)) : Except Error Unit :=
  match firstFault? qs with
  | some (q, x) => .error (.nonFinite x q)
  | none => .ok ()

lemma isNaN_or_isInf (x : Float) : (x.isNaN || x.isInf) = !x.isFinite := by
  change (x.toModel.unpack.isNaN || x.toModel.unpack.isInf) = !x.toModel.unpack.isFinite
  cases x.toModel.unpack <;> rfl

lemma verdict_append (qs rs : List (Quantity × Float)) :
    verdict (qs ++ rs) = (verdict qs >>= fun _ => verdict rs) := by
  unfold verdict firstFault?
  rw [List.find?_append]
  cases qs.find? fun m => m.2.isNaN || m.2.isInf <;> rfl

lemma checkNumber_eq (q : Quantity) (x : Float) : checkNumber q x = verdict [(q, x)] := by
  rw [checkNumber, verdict, firstFault?, List.find?_singleton, isNaN_or_isInf]
  cases x.isFinite <;> rfl

lemma verdict_cons (q : Quantity) (x : Float) (qs : List (Quantity × Float)) :
    verdict ((q, x) :: qs) = (checkNumber q x >>= fun _ => verdict qs) := by
  rw [checkNumber_eq, ← verdict_append, List.singleton_append]

lemma checkNumbers_eq (q : Quantity) (xs : List Float) :
    checkNumbers q xs = verdict (xs.map (q, ·)) := by
  induction xs with
  | nil => rfl
  | cons x xs ih =>
    rw [List.map_cons, verdict_cons, ← ih]
    rfl

lemma checkFill_eq (a : Fill Float) : checkFill a = verdict a.quantities := by
  cases a with
  | solid color => rfl
  | linear stops start finish =>
    rw [Fill.quantities, verdict_append, ← checkNumbers_eq, ← checkNumbers_eq]
    rfl
  | radial stops center radius =>
    rw [Fill.quantities, verdict_append, ← checkNumbers_eq, ← checkNumbers_eq]
    rfl

lemma checkPath_eq (p : Path Float) : checkPath p = verdict p.quantities := by
  have hwidth : p.strokeWidth.forM (fun w => checkNumber .strokeWidth w.value)
      = verdict (p.strokeWidth.toList.map fun w => (.strokeWidth, w.value)) := by
    cases p.strokeWidth with
    | none => rfl
    | some w => exact checkNumber_eq .strokeWidth w.value
  have hfill : p.fill.forM checkFill = verdict (p.fill.toList.flatMap Fill.quantities) := by
    cases p.fill with
    | none => rfl
    | some a =>
      rw [Option.toList_some, List.flatMap_singleton]
      exact checkFill_eq a
  rw [checkPath, checkNumbers_eq, hwidth, hfill, Path.quantities, List.append_assoc,
    List.append_assoc, verdict_append, List.cons_append, verdict_cons, List.cons_append,
    verdict_cons, List.cons_append, verdict_cons, List.nil_append, verdict_append]

mutual

lemma checkNode_eq : ∀ n : Node Float, checkNode n = verdict n.quantities
  | .group _ t children => by
    rw [checkNode, checkNumbers_eq, checkNodes_eq children, Node.quantities, verdict_append]
  | .path p => by rw [checkNode, checkPath_eq, Node.quantities]

lemma checkNodes_eq : ∀ ns : List (Node Float), checkNodes ns = verdict (Node.quantitiesOf ns)
  | [] => rfl
  | n :: ns => by
    rw [checkNodes, checkNode_eq n, checkNodes_eq ns, Node.quantitiesOf, verdict_append]

end

/-- The check is that of all quantities. -/
theorem checkFinite_eq (g : Graphic Float) : checkFinite g = verdict g.quantities := by
  rw [checkFinite, checkNumbers_eq, checkNodes_eq, Graphic.quantities, List.cons_append, verdict_cons,
    List.cons_append, verdict_cons, verdict_append]
  rfl

lemma verdict_eq_ok {qs : List (Quantity × Float)} :
    verdict qs = .ok () ↔ ∀ x ∈ qs.map Prod.snd, x.isFinite = true := by
  have hnone : verdict qs = .ok () ↔ firstFault? qs = none := by
    cases hfault : firstFault? qs <;> simp [verdict, hfault]
  rw [hnone, firstFault?, List.find?_eq_none, List.forall_mem_map]
  simp only [isNaN_or_isInf, Bool.not_eq_true', Bool.not_eq_false]

lemma verdict_eq_error {qs : List (Quantity × Float)} {e : Error} :
    verdict qs = .error e ↔ ∃ q x, firstFault? qs = some (q, x) ∧ e = .nonFinite x q := by
  cases hfault : firstFault? qs with
  | none => simp [verdict, hfault]
  | some m =>
    obtain ⟨q, x⟩ := m
    simp [verdict, hfault, eq_comm]

/-- The check leaves out no number of a graphic. -/
theorem checkFinite_eq_ok {g : Graphic Float} :
    checkFinite g = .ok () ↔ ∀ x ∈ g.numbers, x.isFinite = true := by
  rw [checkFinite_eq, verdict_eq_ok, g.map_snd_quantities]

end Source

end Iconsmith
