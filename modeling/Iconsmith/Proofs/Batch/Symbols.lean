import Iconsmith.Proofs.Batch.Conservation
import Iconsmith.Proofs.Batch.Links

/-!
# Symbols of files

The tree of a run and the list of its icons say the same. The icons of the groups, each group before
those below it, are the icons of the list in their order, under the same names. So the tree knows the
symbol of every file that became an icon, and of no other, and it has no group without icons but the
root.
-/

namespace Iconsmith.Batch

namespace Tree

/-! ### Looking up a file -/

lemma symbolIn?_append (icons icons' : List (String × String)) (location : String) :
    symbolIn? (icons ++ icons') location
      = (symbolIn? icons location).or (symbolIn? icons' location) := by
  rw [symbolIn?, List.find?_append, Option.map_or]
  rfl

lemma symbolAmong?_eq {location : String} {ts : List Tree}
    (h : ∀ t ∈ ts, t.symbolFor? location = symbolIn? (t.entries.map (·.2)) location) :
    symbolAmong? location ts = symbolIn? ((ts.flatMap entries).map (·.2)) location := by
  induction ts with
  | nil => rfl
  | cons t ts ih =>
    rw [List.forall_mem_cons] at h
    rw [symbolAmong?, h.1, ih h.2, List.flatMap_cons, List.map_append, symbolIn?_append]

/-- A file is looked up in the icons of all groups, in their order. -/
lemma symbolFor?_eq (t : Tree) (location : String) :
    t.symbolFor? location = symbolIn? (t.entries.map (·.2)) location := by
  induction t using induct with
  | node g icons children ih =>
    have hown : (ownEntries (node g icons children)).map (·.2) = icons := by
      simp [ownEntries, Tree.icons, Function.comp_def]
    rw [symbolFor?, symbolAmong?_eq ih, entries_eq, List.map_append, symbolIn?_append, hown]
    rfl

/-! ### Groups without icons -/

/-- No group below another one is without icons. -/
def Pruned (t : Tree) : Prop :=
  ∀ u ∈ t.walk.tail, u.isEmpty = false

lemma pruned_node {g : Group} {icons : List (String × String)} {children : List Tree}
    (h : ∀ c ∈ children, c.isEmpty = false ∧ c.Pruned) : (node g icons children).Pruned := by
  intro u hu
  rw [walk_eq, List.tail_cons] at hu
  obtain ⟨c, hc, hu⟩ := List.mem_flatMap.mp hu
  rw [walk_eq] at hu
  rcases List.mem_cons.mp hu with rfl | hu
  · exact (h _ hc).1
  · exact (h c hc).2 u (by rwa [walk_eq, List.tail_cons])

end Tree

/-- No symbol is found for a location that no icon is at. -/
lemma symbolIn?_eq_none {os : List Outcome} {location : String}
    (h : ∀ o ∈ os, Location.same o.location location = false ∨ o.artifact? = none) :
    Tree.symbolIn? (Outcome.icons os) location = none := by
  rw [Tree.symbolIn?, Option.map_eq_none_iff, List.find?_eq_none]
  intro icon hicon
  obtain ⟨o, ho, a, ha, rfl⟩ := Outcome.mem_icons.mp hicon
  rcases h o ho with hother | hnone
  · rw [hother]
    exact Bool.false_ne_true
  · rw [Outcome.artifact?_eq_some.mpr ha] at hnone
    contradiction

lemma symbolIn?_toList (o : Outcome) (location : String) :
    Tree.symbolIn? o.icon?.toList location
      = if Location.same o.location location then o.artifact?.map (·.name) else none := by
  cases hartifact : o.artifact? <;>
    simp [Tree.symbolIn?, Outcome.icon?, hartifact, List.find?_singleton, apply_ite]

/-- The symbol of a file is found by any location of it, if no icon of another file has such a
location. -/
lemma symbolIn?_icons {os : List Outcome}
    (hdistinct : os.Pairwise fun o o' => Location.same o.location o'.location = false
      ∨ o.artifact? = none ∧ o'.artifact? = none)
    {o : Outcome} (ho : o ∈ os) {location : String}
    (hsame : Location.same o.location location = true) :
    Tree.symbolIn? (Outcome.icons os) location = o.artifact?.map (·.name) := by
  have hparts := same_iff.mp hsame
  induction os with
  | nil => simp at ho
  | cons o' os ih =>
    obtain ⟨hhead, hdistinct⟩ := List.pairwise_cons.mp hdistinct
    rw [Outcome.icons_cons, Tree.symbolIn?_append, symbolIn?_toList]
    rcases List.mem_cons.mp ho with rfl | ho
    · have hrest : Tree.symbolIn? (Outcome.icons os) location = none := by
        refine symbolIn?_eq_none fun o' ho' => (hhead o' ho').imp (fun hother => ?_) And.right
        rwa [← Bool.not_eq_true, same_iff, eq_comm, hparts, ← same_iff, Bool.not_eq_true] at hother
      rw [hrest, if_pos hsame, Option.or_none]
    · rw [ih hdistinct ho]
      rcases hhead o ho with hother | ⟨hnone, -⟩
      · rw [← Bool.not_eq_true, same_iff, hparts, ← same_iff] at hother
        rw [if_neg hother, Option.none_or]
      · rw [hnone, Option.map_none, ite_self, Option.none_or]

namespace Workshop

variable {w : Workshop}

/-- A visit leaves no group without icons below another one. -/
lemma Visits.pruned {n : Nat} {dir : String} {group : Group} {t : Tree} {os : List Outcome}
    (h : w.Visits n dir group t os) : t.Pruned := by
  refine h.induction (P := fun _ _ t _ => t.Pruned)
    (Q := fun _ _ ts _ => ∀ t ∈ ts, t.isEmpty = false ∧ t.Pruned) ?unlisted ?listed ?nothing ?below
  case unlisted => exact fun _ _ _ _ => Tree.pruned_node (by simp)
  case listed => exact fun _ _ _ _ _ _ hbelow => Tree.pruned_node hbelow
  case nothing => simp
  case below =>
    intro _ _ _ _ t _ _ _ _ hvisited hrest
    split_ifs with hempty
    · exact hrest
    · rw [Bool.not_eq_true] at hempty
      exact List.forall_mem_cons.mpr ⟨⟨hempty, hvisited⟩, hrest⟩

lemma pruned_generate (input : Input) : (w.generate input).value.Pruned := by
  obtain ⟨-, hpruned, -⟩ := w.generate_spec (P := fun _ t _ => t.Pruned)
    (fun _ _ _ => Visits.pruned) (fun _ => Tree.pruned_node (by simp)) input
  exact hpruned

end Workshop

/-- The icons of the tree, by groups from the root down, are the artifacts in their order, and each
is in the group that its artifact names. Only the root can be without icons. There is one outcome for
each file that the run considers, and the tree gives its symbol for any location of the file, or none
if the file failed. Beside these there are only outcomes of what went wrong with directories. -/
theorem tree_lists_artifacts {σ : Type} (write : String → String → StateM σ (Except Failure Unit))
    (normalize : FileView → String → Normalized) (files : FileView) (options : Options)
    (out : Option String) (input : Input) (s s' : σ) (log : List Log.Record) (r : Report)
    (hfiles : ∀ root, input = .directory root → files.Lawful)
    (hrun : (run write normalize files options out input).run s = ((log, .ok r), s')) :
    (r.root.walk.flatMap fun u => u.icons.map fun icon => (icon.2, u.group.qualifiedName))
        = r.artifacts.map (fun a => (a.name, a.group))
      ∧ r.root.iconCount = r.artifacts.length
      ∧ (∀ u ∈ r.root.walk.tail, u.isEmpty = false)
      ∧ ∃ w notices os, prepare options files normalize input = .ok (w, notices)
        ∧ w.Considers input os
        ∧ r.artifacts = Outcome.artifacts os ∧ Outcome.failures os <+: r.failures
        ∧ r.root.walk.flatMap Tree.icons = Outcome.icons os
        ∧ ∀ o ∈ os, ∀ location, Location.same o.location location = true →
          r.root.symbolFor? location = o.artifact?.map (·.name) := by
  obtain ⟨w, notices, hprepare⟩ := exists_prepare hrun
  obtain ⟨hartifacts, hroot⟩ := run_eq_ok hprepare hrun
  obtain ⟨-, hinput, -, hview, -⟩ := prepare_eq_ok hprepare
  subst hview
  obtain ⟨os, hos⟩ := w.exists_considers hinput hfiles
  have htraced := hos.traced
  rw [← hroot] at htraced
  have hlist : r.artifacts = Outcome.artifacts os := hartifacts.trans hos.explained.artifacts
  have hnames := htraced.names
  rw [← hlist, Tree.entries, List.map_flatMap] at hnames
  have hicons := htraced.icons
  rw [Tree.entries, List.map_flatMap] at hicons
  refine ⟨?_, ?_, hroot ▸ w.pruned_generate input, w, notices, os, hprepare, hos, hlist, ?_, ?_, ?_⟩
  · simpa [Tree.ownEntries, Function.comp_def] using hnames
  · rw [← Tree.length_entries, htraced.generated.length_eq, hlist]
  · rw [← hos.explained.failures]
    exact failures_prefix hprepare hrun
  · simpa [Tree.ownEntries, Function.comp_def] using hicons
  · intro o ho location hsame
    rw [Tree.symbolFor?_eq, htraced.icons]
    refine symbolIn?_icons (hos.pairwise.imp ?_) ho hsame
    rintro o o' (hother | ⟨-, dir, -, -, fault, -, fault', -, rfl, rfl⟩)
    · exact Or.inl hother
    · exact Or.inr ⟨rfl, rfl⟩

/-! ### Nested directories -/

lemma nestedFiles_lawful : nestedFiles.Lawful := by
  have hentries : ∀ dir names, nestedFiles.entries dir = .ok names →
      names = ["b"] ∨ names = ["add.xml"] := by
    intro dir names h
    simp only [nestedFiles] at h
    split_ifs at h <;> cases h <;> simp
  refine ⟨fun h => ?_, fun h n hn => ?_⟩
  · rcases hentries _ _ h with rfl | rfl <;> decide
  · rcases hentries _ _ h with rfl | rfl <;> rw [List.mem_singleton.mp hn] <;> constructor <;> decide

/-- The drawable in a nested directory is listed in the group of that directory, and the tree knows
it by any location. -/
theorem listing_of_nested_directories :
    nestedFiles.Lawful ∧ ∃ log r s',
      (run (m := StateM Unit) writeNothing mixedShop.normalize nestedFiles nestedOptions (some "out")
        (.directory "in")).run () = ((log, .ok r), s')
      ∧ (r.root.walk.flatMap fun u => u.icons.map fun icon => (icon.2, u.group.qualifiedName))
        = [("Add", "Icons.b")]
      ∧ r.root.iconCount = 1
      ∧ ∃ w os, Workshop.Considers w (.directory "in") os ∧ ∃ o ∈ os, o.location = "in/b/add.xml"
        ∧ r.root.symbolFor? "in/./b//add.xml" = o.artifact?.map (·.name) := by
  obtain ⟨log, r, s', hrun, hartifacts, -⟩ := exists_nestedRun
  have hnames : r.artifacts.map (fun a => (a.name, a.group)) = [("Add", "Icons.b")] := by
    have := congrArg (List.map fun a => (a.1, a.2.1)) hartifacts
    rwa [List.map_map] at this
  obtain ⟨hlist, hcount, -, w, notices, os, hprepare, hos, -, -, -, hsymbols⟩ :=
    tree_lists_artifacts writeNothing mixedShop.normalize nestedFiles nestedOptions (some "out")
      (.directory "in") () s' log r (fun _ _ => nestedFiles_lawful) hrun
  refine ⟨nestedFiles_lawful, log, r, s', hrun, hlist.trans hnames, ?_, ?_⟩
  · have := congrArg List.length hnames
    rw [hcount]
    simpa using this
  · have hview : w.files = nestedFiles := (prepare_eq_ok hprepare).2.2.2.1
    have hmeets : w.files.Meets Workshop.maxDepth "in" ["b", "add.xml"] := by
      rw [hview]
      refine .step rfl (by simp) (by decide +kernel) (by decide +kernel) ?_
      have hjoin : Location.join "in" "b" = "in/b" := by decide +kernel
      rw [hjoin]
      exact .file rfl (by simp) (by decide +kernel) (by decide +kernel)
    obtain ⟨o, ho, hlocation⟩ := (hos.concerns "in/b/add.xml").mpr ⟨_, hmeets, by decide +kernel⟩
    refine ⟨w, os, hos, o, ho, hlocation, hsymbols o ho _ ?_⟩
    rw [hlocation]
    decide +kernel

end Iconsmith.Batch
