import Iconsmith.Proofs.Graphic.Contexts
import Iconsmith.Proofs.ImageVector.Calls
import Iconsmith.Proofs.ImageVector.Finite

/-!
# Plain groups

A group without a name that moves nothing has no call of its own: its children are written where the group
stands. So nothing of the source of an icon tells whether nodes are in such a group, at any depth.
-/

namespace Iconsmith

namespace Source

lemma checkNodes_append (ns ms : List (Node Float)) :
    checkNodes (ns ++ ms) = (checkNodes ns >>= fun _ => checkNodes ms) := by
  induction ns with
  | nil => rfl
  | cons n ns ih =>
    rw [List.cons_append, checkNodes, checkNodes, ih]
    cases checkNode n <;> rfl

lemma checkNodes_singleton (n : Node Float) : checkNodes [n] = checkNode n := by
  rw [checkNodes, checkNodes]
  cases checkNode n <;> rfl

/-- Runs that pass the check alike do so in every context. -/
lemma checkNodes_fill_congr {run run' : List (Node Float)} (h : checkNodes run = checkNodes run')
    (c : Context Float) : checkNodes (c.fill run) = checkNodes (c.fill run') := by
  refine c.fill_congr (fun x y => x >>= fun _ => y)
    (fun _ t x => checkNumbers .groupTransform t.numbers >>= fun _ => x) checkNodes_append
    (fun name t ns => ?_) h
  rw [checkNodes_singleton, checkNode]

/-- A transform that moves nothing has finite numbers. -/
lemma isFinite_of_isIdentity {t : Transform Float} (h : t.isIdentity = true) :
    ∀ x ∈ t.numbers, x.isFinite = true := by
  have hnumber {x y : Float} (hy : y.isFinite = true) (hxy : (x == y) = true) :
      x.isFinite = true := by
    rw [← ImageVector.isFinite_unsigned, Double.unsigned_eq_of_beq hy hxy,
      ImageVector.isFinite_unsigned, hy]
  have hzero : (Scalar.lit 0 : Float).isFinite = true := by decide
  have hone : (Scalar.lit 1 : Float).isFinite = true := by decide
  change (t.rotation == Scalar.lit 0 && ((t.pivot.x == Scalar.lit 0 && t.pivot.y == Scalar.lit 0)
    && ((t.scale.x == Scalar.lit 1 && t.scale.y == Scalar.lit 1)
      && (t.shift.x == Scalar.lit 0 && t.shift.y == Scalar.lit 0)))) = true at h
  simp only [Bool.and_eq_true] at h
  obtain ⟨hrotation, ⟨hpivotX, hpivotY⟩, ⟨hscaleX, hscaleY⟩, hshiftX, hshiftY⟩ := h
  simp only [Transform.numbers, List.forall_mem_cons]
  exact ⟨hnumber hzero hrotation, hnumber hzero hpivotX, hnumber hzero hpivotY,
    hnumber hone hscaleX, hnumber hone hscaleY, hnumber hzero hshiftX, hnumber hzero hshiftY,
    List.forall_mem_nil _⟩

/-- A group that moves nothing passes the check just as its children do. -/
lemma checkNode_group_of_isIdentity {t : Transform Float} (h : t.isIdentity = true)
    (name : Option String) (children : List (Node Float)) :
    checkNode (.group name t children) = checkNodes children := by
  have ht : checkNumbers .groupTransform t.numbers = .ok () := by
    rw [checkNumbers_eq, verdict_eq_ok, map_snd_quantity]
    exact isFinite_of_isIdentity h
  rw [checkNode, ht, ok_bind]

end Source

namespace ImageVector

variable {settings : Source.Settings} {group : Group} {symbol : String} {g : Graphic Float}
  {ns ms : List (Node Float)}

/-- The source of an icon depends on the nodes by their calls and by whether they pass the check. -/
lemma icon_congr (hcalls : nodesDraft ns = nodesDraft ms)
    (hcheck : Source.checkNodes ns = Source.checkNodes ms) :
    icon settings group symbol { g with nodes := ns }
      = icon settings group symbol { g with nodes := ms } := by
  have hfinite : Source.checkFinite { g with nodes := ns }
      = Source.checkFinite { g with nodes := ms } := by
    rw [Source.checkFinite, hcheck]
    rfl
  have hfile : iconFile settings group symbol { g with nodes := ns }
      = iconFile settings group symbol { g with nodes := ms } := by
    rw [iconFile, iconFile, iconDraft, iconDraft, hcalls]
    rfl
  rw [icon, icon, hfinite, hfile]

/-- Putting a run of nodes into a plain group changes nothing of the source, wherever the run stands. -/
theorem icon_fill_group {t : Transform Float} (ht : t.isIdentity = true) (c : Context Float)
    (run : List (Node Float)) :
    icon settings group symbol { g with nodes := c.fill [.group none t run] }
      = icon settings group symbol { g with nodes := c.fill run } := by
  have hplain : isPlainGroup none t = true := by simpa [isPlainGroup] using ht
  have hcalls : nodesDraft [.group none t run] = nodesDraft run := by
    rw [nodesDraft_singleton, nodeDraft_plain hplain]
  have hcheck : Source.checkNodes [.group none t run] = Source.checkNodes run := by
    rw [Source.checkNodes_singleton, Source.checkNode_group_of_isIdentity ht]
  refine icon_congr ?_ (Source.checkNodes_fill_congr hcheck c)
  refine c.fill_congr (· ++ ·) (fun name t d => groupDraft (groupArguments name t) d)
    nodesDraft_append (fun name t ns => ?_) hcalls
  rw [nodesDraft_singleton, nodeDraft]

/-! ### Dots in a row -/

/-- A dot on the middle line. -/
def dot (x : Float) : Node Float :=
  .path { Path.ofCommands [.moveTo false ⟨x, 12⟩, .lineTo true ⟨1, 0⟩] with
    strokeColor := some "FF204060", cap := .round }

/-- Dots before and after a run in a turned group. -/
def rowContext : Context Float :=
  .inside [dot 1] (some "row") { Transform.identity with rotation := 45, pivot := ⟨12, 12⟩ }
    (.siblings [dot 4] [dot 16]) [dot 22]

/-- A graphic of some nodes. -/
def rowGraphic (nodes : List (Node Float)) : Graphic Float where
  width := ⟨24, some .dp⟩
  height := ⟨24, some .dp⟩
  viewport := ⟨24, 24⟩
  nodes := nodes

theorem icon_fill_group_dots :
    ∃ t : Transform Float, t.isIdentity = true ∧ ∃ f,
      icon ⟨true, "AllAssets"⟩ ⟨"com.app", "Icons", ["Shapes"]⟩ "Row"
          (rowGraphic (rowContext.fill [dot 8, dot 12])) = .ok f
        ∧ icon ⟨true, "AllAssets"⟩ ⟨"com.app", "Icons", ["Shapes"]⟩ "Row"
          (rowGraphic (rowContext.fill [.group none t [dot 8, dot 12]])) = .ok f := by
  have ht : ({ Transform.identity with shift := ⟨-0, 0⟩ } : Transform Float).isIdentity = true := by
    decide +kernel
  obtain ⟨f, hf⟩ : ∃ f, icon ⟨true, "AllAssets"⟩ ⟨"com.app", "Icons", ["Shapes"]⟩ "Row"
      (rowGraphic (rowContext.fill [dot 8, dot 12])) = .ok f :=
    exists_icon (by decide) (by decide +kernel)
  exact ⟨_, ht, f, hf, (icon_fill_group (g := rowGraphic []) ht rowContext [dot 8, dot 12]).trans hf⟩

end ImageVector

end Iconsmith
