import Iconsmith.Proofs.Batch.Trees

/-!
# The icons of a tree

The icons of a run are those in its tree: listed by groups, each before the groups below it, they
come in the order in which they were generated.
-/

namespace Iconsmith.Batch

/-- An icon of a group, as the group, the file and the symbol. -/
abbrev Entry := Group × String × String

namespace Tree

/-- The icons directly in the group at the root. -/
def ownEntries (t : Tree) : List Entry :=
  t.icons.map (t.group, ·)

/-- The icons of all groups of a tree. -/
def entries (t : Tree) : List Entry :=
  t.walk.flatMap ownEntries

lemma entries_eq (t : Tree) : t.entries = t.ownEntries ++ t.children.flatMap entries := by
  rw [entries, walk_eq, List.flatMap_cons, List.flatMap_assoc]
  rfl

lemma mem_entries {t : Tree} {e : Entry} :
    e ∈ t.entries ↔ ∃ u ∈ t.walk, u.group = e.1 ∧ e.2 ∈ u.icons := by
  obtain ⟨g, icon⟩ := e
  simp only [entries, ownEntries, List.mem_flatMap, List.mem_map, Prod.mk.injEq]
  refine exists_congr fun u => and_congr_right fun _ => ?_
  constructor
  · rintro ⟨icon, hmem, rfl, rfl⟩
    exact ⟨rfl, hmem⟩
  · rintro ⟨rfl, hmem⟩
    exact ⟨icon, hmem, rfl, rfl⟩

lemma iconCountOf_eq (ts : List Tree) : iconCountOf ts = (ts.map iconCount).sum := by
  induction ts with
  | nil => rfl
  | cons t ts ih => simp [iconCountOf, ih]

lemma length_entries (t : Tree) : t.entries.length = t.iconCount := by
  induction t using induct with
  | node g icons children ih =>
    rw [entries_eq, List.length_append, List.length_flatMap, iconCount, iconCountOf_eq]
    have : children.map (fun c => c.entries.length) = children.map iconCount :=
      List.map_congr_left ih
    simp [ownEntries, Tree.icons, Tree.children, this]

lemma isEmpty_iff {t : Tree} : t.isEmpty = true ↔ t.entries = [] := by
  rw [isEmpty, beq_iff_eq, ← length_entries, List.length_eq_zero_iff]

end Tree

namespace Workshop

variable (w : Workshop)

/-- An icon was generated from the graphic in its file, for its group and under its symbol. -/
def Generated (e : Entry) (a : Artifact) : Prop :=
  ∃ g source, w.graphic e.2.1 = .ok g
    ∧ w.backend.icon w.options.settings e.1 e.2.2 g = .ok source
    ∧ a = w.artifactOf e.1 e.2.1 e.2.2 source

variable {w}

lemma Becomes.generated {group : Group} {names after : Naming.Allocator} {file : String}
    {r : Except Failure Artifact} (h : w.Becomes group names file r after) {a : Artifact}
    (ha : r = .ok a) : w.Generated (group, file, a.name) a := by
  cases h with
  | foreign | unreadable | inexpressible => simp at ha
  | icon accepted read made =>
    cases ha
    exact ⟨_, _, read, made, rfl⟩

/-- Some entries are those of the icons among some outcomes, in the same order. -/
structure Traced (w : Workshop) (es : List Entry) (os : List Outcome) : Prop where
  generated : List.Forall₂ w.Generated es (Outcome.artifacts os)
  icons : es.map (·.2) = Outcome.icons os

lemma Traced.nil (w : Workshop) : w.Traced [] [] := ⟨.nil, rfl⟩

lemma Traced.append {es es' : List Entry} {os os' : List Outcome} (h : w.Traced es os)
    (h' : w.Traced es' os') : w.Traced (es ++ es') (os ++ os') where
  generated := by
    rw [Outcome.artifacts_append]
    exact List.rel_append h.generated h'.generated
  icons := by rw [List.map_append, h.icons, h'.icons, Outcome.icons_append]

/-- The entries of a tree name the icons and their groups as the artifacts do. -/
lemma Traced.names {es : List Entry} {os : List Outcome} (h : w.Traced es os) :
    es.map (fun e => (e.2.2, e.1.qualifiedName))
      = (Outcome.artifacts os).map fun a => (a.name, a.group) := by
  rw [← List.forall₂_eq_eq_eq, List.forall₂_map_left_iff, List.forall₂_map_right_iff]
  refine h.generated.imp ?_
  rintro e a ⟨g, source, -, -, rfl⟩
  rfl

lemma outcomes_traced (group : Group) (names : Naming.Allocator) (files : List String) :
    w.Traced ((Outcome.icons (w.outcomes group names files).1).map (group, ·))
      (w.outcomes group names files).1 := by
  induction files generalizing names with
  | nil => exact Traced.nil w
  | cons file files ih =>
    have hone : w.Traced ((w.outcome group names file).1.icon?.toList.map (group, ·))
        [(w.outcome group names file).1] := by
      refine ⟨?_, by simp⟩
      rw [Outcome.icon?, w.location_outcome]
      cases hartifact : (w.outcome group names file).1.artifact? with
      | none => simp [hartifact]
      | some a =>
        have hresult := Outcome.artifact?_eq_some.mp hartifact
        simpa [hartifact] using (w.outcome_becomes group names file).generated hresult
    have := hone.append (ih (w.outcome group names file).2)
    rwa [← List.map_append, ← Outcome.icons_cons] at this

/-- The icons of a single group. -/
lemma leaf_traced (w : Workshop) (group : Group) (files : List String) :
    w.Traced (Tree.node group
      (Outcome.icons (w.outcomes group (ownNames group) files).1) []).entries
      (w.outcomes group (ownNames group) files).1 := by
  rw [Tree.entries_eq]
  exact (List.append_nil _).symm ▸ w.outcomes_traced group (ownNames group) files

/-- No icon comes of what goes wrong with a directory. -/
lemma faultsOf_traced (w : Workshop) (dir : String) : w.Traced [] (w.faultsOf dir) := by
  refine ⟨?_, (icons_faultsOf dir).symm⟩
  rw [artifacts_faultsOf]
  exact .nil

/-- The icons of a visit are those in its tree, in the same order. -/
lemma Visits.traced {n : Nat} {dir : String} {group : Group} {t : Tree} {os : List Outcome}
    (h : w.Visits n dir group t os) : w.Traced t.entries os := by
  refine h.induction (P := fun _ _ t os => w.Traced t.entries os)
    (Q := fun _ _ ts os => w.Traced (ts.flatMap Tree.entries) os) ?unlisted ?listed ?nothing ?below
  case unlisted => exact fun dir _ _ _ => w.faultsOf_traced dir
  case listed =>
    intro dir group names ts os _ hbelow
    rw [Tree.entries_eq]
    have hicons := w.outcomes_traced group (ownNames group) (w.filesIn dir names)
    exact (w.faultsOf_traced dir).append (hicons.append hbelow)
  case nothing => exact fun _ _ => Traced.nil w
  case below =>
    intro _ _ _ _ t ts os os' _ hvisited hrest
    have happend := hvisited.append hrest
    split_ifs with hempty
    · rwa [Tree.isEmpty_iff.mp hempty] at happend
    · exact happend

end Workshop

end Iconsmith.Batch
