import Mathlib.Tactic
import Iconsmith.Naming.Group
import Iconsmith.Proofs.Naming.Segments

/-!
# Groups and their directories

A group below another one adds one name to those of the group above, and one segment to its
directory. The last segment is that of the group's own name.
-/

namespace Iconsmith.Group

@[simp] lemma names_ofRoot (basePackage name : String) : (ofRoot basePackage name).names = [name] :=
  rfl

@[simp] lemma name_ofRoot (basePackage name : String) : (ofRoot basePackage name).name = name := rfl

@[simp] lemma basePackage_child (g : Group) (name : String) :
    (g.child name).basePackage = g.basePackage := rfl

@[simp] lemma names_child (g : Group) (name : String) :
    (g.child name).names = g.names ++ [name] := rfl

@[simp] lemma name_child (g : Group) (name : String) : (g.child name).name = name := by
  simp [Group.name, child]

@[simp] lemma parent?_child (g : Group) (name : String) : (g.child name).parent? = some g := by
  simp [parent?, isRoot, child]

/-- A group is reached from the root by one name after the other. -/
lemma foldl_child (basePackage root : String) (below : List String) :
    below.foldl child (ofRoot basePackage root) = ⟨basePackage, root, below⟩ := by
  induction below using List.reverseRecOn with
  | nil => rfl
  | append_singleton below name ih =>
    rw [List.foldl_append, ih]
    rfl

lemma names_ne_nil (g : Group) : g.names ≠ [] :=
  List.cons_ne_nil g.root g.below

lemma names_eq (g : Group) : g.names = g.names.dropLast ++ [g.name] := by
  have hlast : g.names.getLast g.names_ne_nil = g.name := by
    rcases List.eq_nil_or_concat g.below with h | ⟨init, last, h⟩ <;> simp [names, name, h]
  rw [← hlast, List.dropLast_append_getLast]

lemma name_mem_names (g : Group) : g.name ∈ g.names := by
  rw [names_eq]
  exact List.mem_append_right _ (List.mem_singleton_self g.name)

lemma packageOf_cons (basePackage name : String) (names : List String) :
    packageOf basePackage (name :: names)
      = packageOf (joinPackage basePackage (Naming.packageSegment name)) names :=
  rfl

/-- A group is declared where the icons of the group above it are. -/
lemma groupPackage_child (g : Group) (name : String) :
    (g.child name).groupPackage = g.iconsPackage := by
  rw [groupPackage, names_child, List.dropLast_concat]
  rfl

@[simp] lemma directory_child (g : Group) (name : String) :
    (g.child name).directory = g.directory ++ [Naming.packageSegment name] := by
  simp [directory]

lemma directory_eq (g : Group) :
    g.directory = g.directory.dropLast ++ [Naming.packageSegment g.name] := by
  rw [directory, ← List.map_dropLast, ← List.map_singleton, ← List.map_append, ← names_eq]

lemma directory_ne_nil (g : Group) : g.directory ≠ [] := by
  simp [directory, names_ne_nil]

/-- A qualified name can be taken apart at its points. -/
lemma qualifiedName_inj {g h : Group} (hg : Naming.IsWord g.root) (hh : Naming.IsWord h.root)
    (heq : g.qualifiedName = h.qualifiedName) :
    g.root = h.root
      ∧ g.below.map Naming.packageSegment = h.below.map Naming.packageSegment := by
  have hsplit (g : Group) (hg : Naming.IsWord g.root) :
      g.qualifiedName.toList.splitOn '.'
        = (g.root :: g.below.map Naming.packageSegment).map String.toList := by
    rw [qualifiedName, String.toList_intercalate]
    refine List.splitOn_intercalate '.' (List.forall_mem_map.mpr fun name hname hpoint => ?_) (by simp)
    have hword : Naming.IsWord name := by
      rcases List.mem_cons.mp hname with rfl | hname
      · exact hg
      · obtain ⟨n, -, rfl⟩ := List.mem_map.mp hname
        exact Naming.isWord_packageSegment n
    exact absurd (hword.2 '.' hpoint) (by decide)
  have hlists := hsplit g hg
  rw [heq, hsplit h hh] at hlists
  exact (List.cons.inj (List.map_injective_iff.mpr (fun _ _ => String.toList_inj.mp) hlists)).imp
    Eq.symm Eq.symm

/-- A group is another one, or below it. -/
def IsWithin (h g : Group) : Prop :=
  ∃ names, h = { g with below := g.below ++ names }

lemma IsWithin.refl (g : Group) : g.IsWithin g :=
  ⟨[], by simp⟩

lemma IsWithin.of_child {h g : Group} {name : String} (hh : h.IsWithin (g.child name)) :
    h.IsWithin g := by
  obtain ⟨names, rfl⟩ := hh
  exact ⟨name :: names, by simp [child]⟩

lemma IsWithin.basePackage {h g : Group} (hh : h.IsWithin g) : h.basePackage = g.basePackage := by
  obtain ⟨names, rfl⟩ := hh
  rfl

/-- The directory of a group begins with that of every group above. -/
lemma IsWithin.prefix_directory {h g : Group} (hh : h.IsWithin g) : g.directory <+: h.directory := by
  obtain ⟨names, rfl⟩ := hh
  exact ⟨names.map Naming.packageSegment, by simp [directory, Group.names]⟩

/-- Groups below siblings with different segments have different qualified names. -/
lemma IsWithin.qualifiedName_ne {g h k : Group} {a b : String} (hh : h.IsWithin (g.child a))
    (hk : k.IsWithin (g.child b)) (hg : Naming.IsWord g.root)
    (hne : Naming.packageSegment a ≠ Naming.packageSegment b) :
    h.qualifiedName ≠ k.qualifiedName := by
  obtain ⟨as, rfl⟩ := hh
  obtain ⟨bs, rfl⟩ := hk
  intro heq
  have hbelow := (qualifiedName_inj (by exact hg) (by exact hg) heq).2
  simp only [child, List.append_assoc, List.map_append, List.map_cons] at hbelow
  exact hne (List.cons.inj (List.append_cancel_left hbelow)).1

end Iconsmith.Group
