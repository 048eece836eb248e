import Iconsmith.Proofs.Batch.Visits
import Iconsmith.Proofs.Naming.Groups

/-!
# Names in a tree of groups

In every group of a run the names of the group itself, of its icons and of the groups directly below
differ, and so do the package segments of the groups below. Hence no two groups of a tree share a
directory.
-/

namespace Iconsmith.Batch

namespace Tree

/-! ### Walks -/

/-- Induction on a tree, with a hypothesis for each of the trees directly below. -/
theorem induct {P : Tree → Prop}
    (node : ∀ g icons children, (∀ c ∈ children, P c) → P (.node g icons children)) :
    ∀ t, P t
  | .node g icons children => node g icons children fun c _ => induct node c
termination_by t => sizeOf t
decreasing_by
  have := List.sizeOf_lt_of_mem ‹_›
  simp only [Tree.node.sizeOf_spec]
  omega

lemma walkAll_eq (ts : List Tree) : walkAll ts = ts.flatMap walk := by
  induction ts with
  | nil => rfl
  | cons t ts ih => simp [walkAll, ih]

lemma walk_eq (t : Tree) : t.walk = t :: t.children.flatMap walk := by
  obtain ⟨g, icons, children⟩ := t
  rw [walk, walkAll_eq]
  rfl

lemma mem_walk_self (t : Tree) : t ∈ t.walk := by
  rw [walk_eq]
  exact List.mem_cons_self

lemma mem_walk_of_mem {t c u : Tree} (hc : c ∈ t.children) (hu : u ∈ c.walk) : u ∈ t.walk := by
  rw [walk_eq]
  exact List.mem_cons_of_mem _ (List.mem_flatMap.mpr ⟨c, hc, hu⟩)

lemma mem_walk_iff {t u : Tree} : u ∈ t.walk ↔ u = t ∨ ∃ c ∈ t.children, u ∈ c.walk := by
  rw [walk_eq, List.mem_cons, List.mem_flatMap]

/-- Below the root, every tree of a walk is directly below another one. -/
lemma exists_parent {t u : Tree} (hu : u ∈ t.walk) :
    u = t ∨ ∃ p ∈ t.walk, u ∈ p.children := by
  induction t using induct with
  | node g icons children ih =>
    rcases mem_walk_iff.mp hu with rfl | ⟨c, hc, hu⟩
    · exact Or.inl rfl
    · right
      rcases ih c hc hu with rfl | ⟨p, hp, hup⟩
      · exact ⟨_, mem_walk_self _, hc⟩
      · exact ⟨p, mem_walk_of_mem hc hp, hup⟩

/-! ### Soundness -/

/-- The names of a group and its members differ, and the groups below have segments of their own. -/
structure SoundAt (t : Tree) : Prop where
  members : (t.group.name :: (t.icons.map (·.2) ++ t.children.map (·.group.name))).Nodup
  segments : (t.children.map fun c => Naming.packageSegment c.group.name).Nodup
  below : ∀ c ∈ t.children, c.group = t.group.child c.group.name

/-- All groups of a tree are sound. -/
def Sound (t : Tree) : Prop :=
  ∀ u ∈ t.walk, u.SoundAt

lemma Sound.child {t c : Tree} (h : t.Sound) (hc : c ∈ t.children) : c.Sound :=
  fun u hu => h u (mem_walk_of_mem hc hu)

lemma sound_of {t : Tree} (ht : t.SoundAt) (hc : ∀ c ∈ t.children, c.Sound) : t.Sound := by
  intro u hu
  rcases mem_walk_iff.mp hu with rfl | ⟨c, hmem, hu⟩
  · exact ht
  · exact hc c hmem u hu

lemma SoundAt.directory {t c : Tree} (h : t.SoundAt) (hc : c ∈ t.children) :
    c.group.directory = t.group.directory ++ [Naming.packageSegment c.group.name] := by
  rw [h.below c hc, Group.directory_child, Group.name_child]

/-- The groups of a tree are below its root. -/
lemma Sound.isWithin {t u : Tree} (h : t.Sound) (hu : u ∈ t.walk) : u.group.IsWithin t.group := by
  induction t using induct with
  | node g icons children ih =>
    rcases mem_walk_iff.mp hu with rfl | ⟨c, hc, hu⟩
    · exact .refl _
    · have hwithin := ih c hc (h.child hc) hu
      rw [(h _ (mem_walk_self _)).below c hc] at hwithin
      exact hwithin.of_child

/-- The directory of a group begins with that of every group above. -/
lemma Sound.prefix_directory {t u : Tree} (h : t.Sound) (hu : u ∈ t.walk) :
    t.group.directory <+: u.group.directory :=
  (h.isWithin hu).prefix_directory

lemma Sound.basePackage {t u : Tree} (h : t.Sound) (hu : u ∈ t.walk) :
    u.group.basePackage = t.group.basePackage :=
  (h.isWithin hu).basePackage

/-- No two groups of a tree share a directory. -/
lemma Sound.nodup_directories {t : Tree} (h : t.Sound) :
    (t.walk.map (·.group.directory)).Nodup := by
  induction t using induct with
  | node g icons children ih =>
    have hat := h _ (mem_walk_self _)
    rw [walk_eq, List.map_cons, List.nodup_cons, List.map_flatMap, List.nodup_flatMap]
    refine ⟨?_, fun c hc => ih c hc (h.child hc), ?_⟩
    · intro hmem
      obtain ⟨c, hc, hmem⟩ := List.mem_flatMap.mp hmem
      obtain ⟨u, hu, heq⟩ := List.mem_map.mp hmem
      have hlen := ((h.child hc).prefix_directory hu).length_le
      rw [heq, hat.directory hc] at hlen
      simp at hlen
    · have hsegments := List.pairwise_map.mp hat.segments
      refine hsegments.imp_of_mem fun {c c'} hc hc' hne => ?_
      intro d hd hd'
      obtain ⟨u, hu, rfl⟩ := List.mem_map.mp hd
      obtain ⟨u', hu', heq⟩ := List.mem_map.mp hd'
      have hprefix := (h.child hc).prefix_directory hu
      have hprefix' := (h.child hc').prefix_directory hu'
      rw [heq] at hprefix'
      rw [hat.directory hc] at hprefix
      rw [hat.directory hc'] at hprefix'
      have := List.prefix_of_prefix_length_le hprefix hprefix' (by simp)
      have := this.eq_of_length (by simp)
      simp [hne] at this

lemma Sound.eq_of_directory {t u v : Tree} (h : t.Sound) (hu : u ∈ t.walk) (hv : v ∈ t.walk)
    (heq : u.group.directory = v.group.directory) : u = v :=
  List.inj_on_of_nodup_map h.nodup_directories hu hv heq

end Tree

namespace Workshop

variable {w : Workshop}

/-! ### Trees of visits -/

/-- A file leaves the names taken before it taken, and its symbol is one name more. -/
lemma Becomes.names {group : Group} {names after : Naming.Allocator} {file : String}
    {r : Except Failure Artifact} (h : w.Becomes group names file r after) :
    names.taken ⊆ after.taken
      ∧ ∀ a, r = .ok a → a.name ∉ names.taken ∧ a.name ∈ after.taken := by
  cases h with
  | foreign => exact ⟨fun _ hx => hx, by simp⟩
  | unreadable => exact ⟨fun _ hx => hx, by simp⟩
  | inexpressible => exact ⟨fun _ hx => List.mem_cons_of_mem _ hx, by simp⟩
  | icon =>
    refine ⟨fun _ hx => List.mem_cons_of_mem _ hx, ?_⟩
    rintro a ⟨⟩
    exact ⟨names.allocate_notMem _, List.mem_cons_self⟩

/-- The symbols of a list of files are new and differ, and all of them are taken afterwards. -/
lemma outcomes_names (group : Group) (names : Naming.Allocator) (files : List String) :
    names.taken ⊆ (w.outcomes group names files).2.taken
      ∧ (∀ a ∈ Outcome.artifacts (w.outcomes group names files).1,
          a.name ∉ names.taken ∧ a.name ∈ (w.outcomes group names files).2.taken)
      ∧ ((Outcome.artifacts (w.outcomes group names files).1).map (·.name)).Nodup := by
  induction files generalizing names with
  | nil => exact ⟨fun _ hx => hx, by simp [outcomes], by simp [outcomes]⟩
  | cons file files ih =>
    obtain ⟨hkept, hname⟩ := (w.outcome_becomes group names file).names
    obtain ⟨ihkept, ihfresh, ihnodup⟩ := ih (w.outcome group names file).2
    simp only [outcomes, Outcome.artifacts_cons]
    have hhead : ∀ a ∈ (w.outcome group names file).1.artifact?, a.name ∉ names.taken
        ∧ a.name ∈ (w.outcome group names file).2.taken :=
      fun a ha => hname a (Outcome.artifact?_eq_some.mp ha)
    refine ⟨fun x hx => ihkept (hkept hx), ?_, ?_⟩
    · intro a ha
      rcases List.mem_append.mp ha with ha | ha
      · have := hhead a (by simpa using ha)
        exact ⟨this.1, ihkept this.2⟩
      · exact ⟨fun hmem => (ihfresh a ha).1 (hkept hmem), (ihfresh a ha).2⟩
    · rw [List.map_append, List.nodup_append]
      refine ⟨?_, ihnodup, ?_⟩
      · cases (w.outcome group names file).1.artifact? <;> simp
      · intro s hs s' hs' heq
        obtain ⟨a, ha, rfl⟩ := List.mem_map.mp hs
        obtain ⟨a', ha', rfl⟩ := List.mem_map.mp hs'
        exact (ihfresh a' ha').1 (heq ▸ (hhead a (by simpa using ha)).2)

/-- Sound trees of the groups below a group. Their names and segments are new and differ. -/
structure SoundBelow (group : Group) (s : Naming.Siblings) (ts : List Tree) : Prop where
  sound : ∀ t ∈ ts, t.Sound
  child : ∀ t ∈ ts, t.group = group.child t.group.name
  fresh : ∀ t ∈ ts, t.group.name ∉ s.names.taken
  segment : ∀ t ∈ ts, Naming.packageSegment t.group.name ∉ s.segments
  names : (ts.map (·.group.name)).Nodup
  segments : (ts.map fun t => Naming.packageSegment t.group.name).Nodup

lemma SoundBelow.nil (group : Group) (s : Naming.Siblings) : SoundBelow group s [] where
  sound := nofun
  child := nofun
  fresh := nofun
  segment := nofun
  names := List.nodup_nil
  segments := List.nodup_nil

section Naming

variable {group : Group} {s s' : Naming.Siblings} {name : String} {ts : List Tree}

/-- What is new after a name was given was new before. -/
lemma SoundBelow.before (h : SoundBelow group s' ts) (hnamed : s.Named name s') :
    SoundBelow group s ts where
  sound := h.sound
  child := h.child
  fresh t ht hmem := h.fresh t ht (hnamed.kept _ hmem)
  segment t ht hmem := h.segment t ht (hnamed.segments ▸ List.mem_cons_of_mem _ hmem)
  names := h.names
  segments := h.segments

/-- A name given before the others differs from them. -/
lemma SoundBelow.cons (h : SoundBelow group s' ts) (hnamed : s.Named name s') {t : Tree}
    (hsound : t.Sound) (hgroup : t.group = group.child name) : SoundBelow group s (t :: ts) := by
  have hname : t.group.name = name := by rw [hgroup, Group.name_child]
  have hbefore := h.before hnamed
  constructor
  case sound => exact List.forall_mem_cons.mpr ⟨hsound, hbefore.sound⟩
  case child => exact List.forall_mem_cons.mpr ⟨by rw [hname, hgroup], hbefore.child⟩
  case fresh => exact List.forall_mem_cons.mpr ⟨hname ▸ hnamed.fresh, hbefore.fresh⟩
  case segment => exact List.forall_mem_cons.mpr ⟨hname ▸ hnamed.segment, hbefore.segment⟩
  case names =>
    rw [List.map_cons, List.nodup_cons]
    refine ⟨fun hmem => ?_, h.names⟩
    obtain ⟨u, hu, heq⟩ := List.mem_map.mp hmem
    exact h.fresh u hu (heq ▸ hname ▸ hnamed.taken)
  case segments =>
    rw [List.map_cons, List.nodup_cons]
    refine ⟨fun hmem => ?_, h.segments⟩
    obtain ⟨u, hu, heq⟩ := List.mem_map.mp hmem
    refine h.segment u hu ?_
    rw [heq, hname, hnamed.segments]
    exact List.mem_cons_self

end Naming

lemma taken_ownNames (group : Group) : (ownNames group).taken = [group.name] := rfl

/-- One group is sound if the groups below it are, and have new names and segments. -/
lemma sound_node {group : Group} {files : List String} {ts : List Tree}
    (h : SoundBelow group ⟨(w.outcomes group (ownNames group) files).2, []⟩ ts) :
    (Tree.node group (Outcome.icons (w.outcomes group (ownNames group) files).1) ts).Sound := by
  obtain ⟨hkept, hfresh, hnodup⟩ := w.outcomes_names group (ownNames group) files
  refine Tree.sound_of ⟨?_, h.segments, h.child⟩ h.sound
  change (group.name :: ((Outcome.icons _).map (·.2) ++ ts.map (·.group.name))).Nodup
  rw [Outcome.map_snd_icons, List.nodup_cons, List.nodup_append]
  refine ⟨?_, hnodup, h.names, ?_⟩
  · intro hmem
    rcases List.mem_append.mp hmem with hmem | hmem
    · obtain ⟨a, ha, heq⟩ := List.mem_map.mp hmem
      exact (hfresh a ha).1 (by simp [taken_ownNames, heq])
    · obtain ⟨t, ht, heq⟩ := List.mem_map.mp hmem
      exact h.fresh t ht (hkept (by simp [taken_ownNames, heq]))
  · intro x hx y hy heq
    obtain ⟨a, ha, rfl⟩ := List.mem_map.mp hx
    obtain ⟨t, ht, rfl⟩ := List.mem_map.mp hy
    exact h.fresh t ht (heq ▸ (hfresh a ha).2)

lemma sound_leaf (group : Group) (files : List String) :
    (Tree.node group (Outcome.icons (w.outcomes group (ownNames group) files).1) []).Sound :=
  sound_node (.nil group _)

/-- The tree of a visit is sound, and its root is the group of the visit. -/
lemma Visits.sound {n : Nat} {dir : String} {group : Group} {t : Tree} {os : List Outcome}
    (h : w.Visits n dir group t os) : t.group = group ∧ t.Sound := by
  refine h.induction (P := fun _ group t _ => t.group = group ∧ t.Sound)
    (Q := fun group s ts _ => SoundBelow group s ts) ?unlisted ?listed ?nothing ?below
  case unlisted => exact fun _ group _ _ => ⟨rfl, @sound_leaf w group []⟩
  case listed => exact fun _ group _ _ _ _ hbelow => ⟨rfl, sound_node hbelow⟩
  case nothing => exact fun group s => .nil group s
  case below =>
    intro _ _ _ _ _ _ _ _ hnamed hvisited hrest
    split_ifs
    · exact hrest.before hnamed
    · exact hrest.cons hnamed hvisited.2 hvisited.1

end Workshop

end Iconsmith.Batch
