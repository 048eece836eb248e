import Iconsmith.Graphic.Basic
import Mathlib.Tactic

/-!
# Contexts of nodes

A run of nodes stands among its siblings, which are the nodes of a graphic or the children of a group that
stands among its own siblings. The context of a run is all that is around it, up to the top. The nodes of a
graphic at any depth are those that stand in some context.
-/

namespace Iconsmith

variable {α : Type}

/-! ### Nodes at any depth -/

mutual

/-- A node and all nodes below it. -/
def Node.all : Node α → List (Node α)
  | .group name transform children => .group name transform children :: Node.allOf children
  | .path p => [.path p]

/-- The nodes of a list and all nodes below them. -/
def Node.allOf : List (Node α) → List (Node α)
  | [] => []
  | n :: ns => n.all ++ Node.allOf ns

end

/-- The nodes of a graphic at any depth, in the order of the document. -/
def Graphic.allNodes (g : Graphic α) : List (Node α) :=
  Node.allOf g.nodes

lemma Node.allOf_append (ns ms : List (Node α)) : allOf (ns ++ ms) = allOf ns ++ allOf ms := by
  induction ns with
  | nil => rfl
  | cons n ns ih => rw [List.cons_append, allOf, allOf, ih, List.append_assoc]

lemma Node.self_mem_all (n : Node α) : n ∈ n.all := by
  cases n <;> simp [all]

mutual

lemma Node.mem_paths_iff {p : Path α} : ∀ n : Node α, p ∈ n.paths ↔ .path p ∈ n.all
  | .group name t children => by
    simpa [paths, all] using Node.mem_pathsOf_iff children
  | .path q => by simp [paths, all]

lemma Node.mem_pathsOf_iff {p : Path α} : ∀ ns : List (Node α), p ∈ pathsOf ns ↔ .path p ∈ allOf ns
  | [] => by simp [pathsOf, allOf]
  | n :: ns => by
    rw [pathsOf, allOf, List.mem_append, List.mem_append, Node.mem_paths_iff n,
      Node.mem_pathsOf_iff ns]

end

/-- The paths of a graphic are its nodes at any depth that are paths. -/
lemma Graphic.mem_paths_iff {g : Graphic α} {p : Path α} : p ∈ g.paths ↔ .path p ∈ g.allNodes :=
  Node.mem_pathsOf_iff g.nodes

/-! ### Contexts -/

/-- What is around a run of nodes. -/
inductive Context (α : Type) where
  | siblings (before after : List (Node α))
  | inside (before : List (Node α)) (name : Option String) (transform : Transform α) (c : Context α)
    (after : List (Node α))

namespace Context

/-- The nodes at the top, with a run in its context. -/
def fill : Context α → List (Node α) → List (Node α)
  | siblings before after, run => before ++ run ++ after
  | inside before name transform c after, run =>
    before ++ [.group name transform (c.fill run)] ++ after

/-- What is made of a list of nodes part by part depends on a run just by what is made of the run. -/
lemma fill_congr {β : Type} {f : List (Node α) → β} (join : β → β → β)
    (wrap : Option String → Transform α → β → β)
    (hjoin : ∀ ns ms, f (ns ++ ms) = join (f ns) (f ms))
    (hwrap : ∀ name t ns, f [.group name t ns] = wrap name t (f ns))
    {run run' : List (Node α)} (h : f run = f run') (c : Context α) :
    f (c.fill run) = f (c.fill run') := by
  induction c with
  | siblings before after => rw [fill, fill, hjoin, hjoin before, h, ← hjoin before, ← hjoin]
  | inside before name transform c after ih =>
    rw [fill, fill, hjoin, hjoin before, hwrap, ih, ← hwrap, ← hjoin before, ← hjoin]

lemma mem_allOf_fill (m : Node α) (c : Context α) : m ∈ Node.allOf (c.fill [m]) := by
  induction c with
  | siblings before after =>
    simp [fill, Node.allOf_append, Node.allOf, m.self_mem_all]
  | inside before name transform c after ih =>
    simp [fill, Node.allOf_append, Node.allOf, Node.all, ih]

mutual

lemma exists_fill_of_mem_all {m : Node α} : ∀ n : Node α, m ∈ n.all → ∀ before after,
    ∃ c : Context α, before ++ [n] ++ after = c.fill [m]
  | .group name t children, h, before, after => by
    rcases List.mem_cons.mp h with rfl | h
    · exact ⟨.siblings before after, rfl⟩
    · obtain ⟨c, hc⟩ := exists_fill_of_mem_allOf children h []
      exact ⟨.inside before name t c after, by rw [fill, ← hc, List.nil_append]⟩
  | .path p, h, before, after => by
    obtain rfl : m = .path p := by simpa [Node.all] using h
    exact ⟨.siblings before after, rfl⟩

lemma exists_fill_of_mem_allOf {m : Node α} : ∀ ns : List (Node α), m ∈ Node.allOf ns → ∀ before,
    ∃ c : Context α, before ++ ns = c.fill [m]
  | [], h, _ => by simp [Node.allOf] at h
  | n :: ns, h, before => by
    rcases List.mem_append.mp h with h | h
    · simpa using exists_fill_of_mem_all n h before ns
    · simpa using exists_fill_of_mem_allOf ns h (before ++ [n])

end

/-- The nodes at any depth are those that stand in some context. -/
theorem mem_allNodes_iff {g : Graphic α} {m : Node α} :
    m ∈ g.allNodes ↔ ∃ c : Context α, g.nodes = c.fill [m] := by
  constructor
  · intro h
    simpa using exists_fill_of_mem_allOf g.nodes h []
  · rintro ⟨c, hc⟩
    rw [Graphic.allNodes, hc]
    exact mem_allOf_fill m c

end Context

end Iconsmith
