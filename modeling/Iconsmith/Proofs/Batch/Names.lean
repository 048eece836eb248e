import Iconsmith.Proofs.Batch.Isolation

/-!
# Names of icons and groups

Every icon of a run, and every group below the root, is named after a file or a directory: its name
answers a request for the identifier of that location. So it can be declared and is no reserved
word, with a number after it as well as without one.
-/

namespace Iconsmith.Batch

/-! ### Members -/

namespace Tree

/-- The names of the icons of a group and of the groups directly below it. -/
def memberNames (t : Tree) : List String :=
  t.members.icons ++ t.members.children

lemma mem_memberNames {t : Tree} {n : String} :
    n ∈ t.memberNames ↔ n ∈ t.icons.map (·.2) ∨ ∃ c ∈ t.children, c.group.name = n := by
  rw [memberNames, List.mem_append, members, List.mem_map (f := fun c : Tree => c.group.name)]

/-- What can be relied on of the names in a group, when some words are reserved. -/
structure WellNamed (ws : List String) (t : Tree) : Prop where
  declarable : ∀ n ∈ t.memberNames, Naming.isIdentifier n = true
  unreserved : ∀ n ∈ t.memberNames, n ∉ ws
  distinct : (t.group.name :: t.memberNames).Nodup
  segments : (t.members.children.map Naming.packageSegment).Nodup

end Tree

namespace Workshop

variable {w : Workshop}

/-! ### Names of files and directories -/

/-- A name was given for the file or the directory at some location. -/
def NamedAfter (w : Workshop) (name : String) : Prop :=
  ∃ location, Naming.Allocator.Answers (w.identifierOf location) name

namespace NamedAfter

variable {name : String}

lemma isIdentifier (h : w.NamedAfter name) : Naming.isIdentifier name = true := by
  obtain ⟨location, hanswers⟩ := h
  exact hanswers.isIdentifier (w.isIdentifier_identifierOf location)

lemma isSymbol (h : w.NamedAfter name) : Naming.IsSymbol name := by
  obtain ⟨location, hanswers⟩ := h
  exact hanswers.isSymbol (w.isIdentifier_identifierOf location)
    (Naming.isSymbol_identifier w.backend.reserved ((Location.fileName? location).getD ""))

lemma isCapital (h : w.NamedAfter name) : Naming.IsCapital name := by
  obtain ⟨location, hanswers⟩ := h
  exact hanswers.isCapital (w.isIdentifier_identifierOf location)
    (Naming.isCapital_identifier w.backend.reserved ((Location.fileName? location).getD ""))

lemma notMem_reserved (h : w.NamedAfter name) : name ∉ w.backend.reserved := by
  obtain ⟨location, hanswers⟩ := h
  have hplain := Naming.arePlain_reserved w.backend
  have hrequest : w.identifierOf location ∉ w.backend.reserved :=
    hplain.noneLowLine.identifier_notMem ((Location.fileName? location).getD "")
  exact hanswers.notMem hplain hrequest

end NamedAfter

lemma Becomes.namedAfter {group : Group} {names after : Naming.Allocator} {file : String}
    {r : Except Failure Artifact} (h : w.Becomes group names file r after) :
    ∀ a, r = .ok a → w.NamedAfter a.name := by
  cases h with
  | foreign => nofun
  | unreadable => nofun
  | inexpressible => nofun
  | icon =>
    rintro _ ⟨⟩
    exact ⟨file, names.allocate_answers (w.identifierOf file)⟩

/-! ### Names in a tree -/

/-- All icons of a tree, and all groups below its root, are named after files and directories. -/
def NamesAll (w : Workshop) (t : Tree) : Prop :=
  ∀ u ∈ t.walk, ∀ n ∈ u.memberNames, w.NamedAfter n

/-- One group and the groups below it are named after the files and the directories inside. -/
lemma namesAll_node (group : Group) (names : Naming.Allocator) (files : List String)
    {ts : List Tree} (hts : ∀ t ∈ ts, w.NamedAfter t.group.name ∧ w.NamesAll t) :
    w.NamesAll (.node group (Outcome.icons (w.outcomes group names files).1) ts) := by
  intro u hu n hn
  rcases Tree.mem_walk_iff.mp hu with rfl | ⟨c, hc, hu⟩
  · rcases Tree.mem_memberNames.mp hn with hn | ⟨c, hc, rfl⟩
    · rw [Tree.icons, Outcome.map_snd_icons] at hn
      obtain ⟨a, ha, rfl⟩ := List.mem_map.mp hn
      obtain ⟨o, ho, hartifact⟩ := List.mem_filterMap.mp ha
      obtain ⟨before, after, hbecomes⟩ := w.exists_becomes ho
      exact hbecomes.namedAfter a (Outcome.artifact?_eq_some.mp hartifact)
    · exact (hts c hc).1
  · exact (hts c hc).2 u hu n hn

/-- All icons and groups that a visit makes are named after files and directories. -/
lemma Visits.namesAll {n : Nat} {dir : String} {group : Group} {t : Tree} {os : List Outcome}
    (h : w.Visits n dir group t os) : w.NamesAll t := by
  refine (h.induction (P := fun _ group t _ => t.group = group ∧ w.NamesAll t)
    (Q := fun _ _ ts _ => ∀ t ∈ ts, w.NamedAfter t.group.name ∧ w.NamesAll t)
    ?unlisted ?listed ?nothing ?below).2
  case unlisted => exact fun _ group _ _ => ⟨rfl, namesAll_node group (ownNames group) [] (by simp)⟩
  case listed =>
    exact fun dir group names _ _ _ hbelow =>
      ⟨rfl, namesAll_node group (ownNames group) (w.filesIn dir names) hbelow⟩
  case nothing => simp
  case below =>
    intro group s dir name t ts _ _ hnamed hvisited hrest
    have hname : w.NamedAfter t.group.name := by
      rw [hvisited.1, Group.name_child]
      exact ⟨dir, hnamed.answers⟩
    split_ifs
    · exact hrest
    · exact List.forall_mem_cons.mpr ⟨⟨hname, hvisited.2⟩, hrest⟩

variable (w)

lemma namesAll_generate (input : Input) : w.NamesAll (w.generate input).value := by
  obtain ⟨-, hnames, -⟩ := w.generate_spec (P := fun _ t _ => w.NamesAll t)
    (fun _ _ _ => Visits.namesAll)
    (fun locations => namesAll_node w.options.rootGroup _ (distinct locations) (by simp)) input
  exact hnames

/-- Whatever is generated is named after a file. -/
lemma namedAfter_generate (input : Input) :
    ∀ a ∈ (w.generate input).artifacts, w.NamedAfter a.name := by
  intro a ha
  obtain ⟨os, htraced, hos⟩ := w.generate_traced input
  rw [hos.artifacts] at ha
  have hname : a.name ∈ (w.generate input).value.entries.map (·.2.2) := by
    have hnames := congrArg (List.map Prod.fst) htraced.names
    rw [List.map_map, List.map_map] at hnames
    exact hnames ▸ List.mem_map_of_mem ha
  obtain ⟨e, he, heq⟩ := List.mem_map.mp hname
  obtain ⟨u, hu, -, hicon⟩ := Tree.mem_entries.mp he
  rw [← heq]
  exact w.namesAll_generate input u hu _
    (Tree.mem_memberNames.mpr (Or.inl (List.mem_map_of_mem hicon)))

lemma Reports.namedAfter {w : Workshop} {input : Input} {r : Report} (h : w.Reports input r)
    {u : Tree} (hu : u ∈ r.root.walk) : ∀ n ∈ u.memberNames, w.NamedAfter n := by
  rw [h.root] at hu
  exact w.namesAll_generate input u hu

end Workshop

/-! ### Runs -/

/-- The icons of a run are those of its tree, and all their symbols can be declared and are not
reserved. So can the names of the groups below another one; and in one group the names of its icons,
of the groups below and of the group itself differ, as do the package segments of the groups below.
-/
theorem names_of_run {σ : Type} (write : String → String → StateM σ (Except Failure Unit))
    (normalize : FileView → String → Normalized) (files : FileView) (options : Options)
    (out : Option String) (input : Input) (s s' : σ) (log : List Log.Record) (r : Report)
    (hrun : (run write normalize files options out input).run s = ((log, .ok r), s')) :
    r.artifacts.map (fun a => (a.name, a.group)) =
        r.root.entries.map (fun e => (e.2.2, e.1.qualifiedName)) ∧
      (∀ a ∈ r.artifacts, Naming.isIdentifier a.name = true ∧ a.name ∉ options.backend.reserved) ∧
      ∀ u ∈ r.root.walk, u.WellNamed options.backend.reserved := by
  obtain ⟨w, rfl, hreports⟩ := exists_reports hrun
  obtain ⟨os, htraced, hos⟩ := w.generate_traced input
  have hartifacts := w.namedAfter_generate input
  rw [← hreports.artifacts] at hartifacts
  rw [← hreports.root] at htraced
  refine ⟨?_, fun a ha => ?_, fun u hu => ?_⟩
  · rw [htraced.names, hreports.artifacts, hos.artifacts]
  · exact ⟨(hartifacts a ha).isIdentifier, (hartifacts a ha).notMem_reserved⟩
  · have hsound := hreports.sound u hu
    exact {
      declarable := fun n hn => (hreports.namedAfter hu n hn).isIdentifier
      unreserved := fun n hn => (hreports.namedAfter hu n hn).notMem_reserved
      distinct := hsound.members
      segments := by
        have hsegments := hsound.segments
        rwa [← Function.comp_def, ← List.map_map] at hsegments }

/-- A directory in which the names of files and directories meet a reserved word and each other. -/
def namesakes : FileView where
  isDirectory location := ["in", "in/ICONS", "in/icons"].contains location
  entries location :=
    if location = "in" then .ok ["Color!.xml", "ICONS", "color.xml", "icons"]
    else if location = "in/ICONS" || location = "in/icons" then .ok ["add.xml"]
    else .error .notDirectory
  bytes _ := .ok (drawing "M1 2z").toUTF8

/-- A run over namesakes. -/
def namesakesShop : Workshop :=
  { mixedShop with files := namesakes }

/-- Namesakes get low lines and numbers, and no two of them in one group the same name. -/
theorem names_of_namesakes :
    ∃ log r s', (run (m := StateM Unit) writeNothing mixedShop.normalize namesakes mixedOptions none
        (.directory "in")).run () = ((log, .ok r), s')
      ∧ r.artifacts.map (fun a => (a.name, a.group)) = [("_Color", "Icons"), ("_Color2", "Icons"),
        ("Add", "Icons.icons2"), ("Add", "Icons.icons3")]
      ∧ (∀ a ∈ r.artifacts, Naming.isIdentifier a.name = true
        ∧ a.name ∉ mixedOptions.backend.reserved)
      ∧ ∀ u ∈ r.root.walk, u.WellNamed mixedOptions.backend.reserved := by
  have hprepare : prepare mixedOptions namesakes mixedShop.normalize (.directory "in")
      = .ok (namesakesShop, []) := rfl
  have hartifacts : (namesakesShop.generate (.directory "in")).artifacts.map
      (fun a => (a.name, a.group)) = [("_Color", "Icons"), ("_Color2", "Icons"),
        ("Add", "Icons.icons2"), ("Add", "Icons.icons3")] := by
    rw [namesakesShop.generate_of_pairwise rfl rfl (by decide +kernel) (by decide +kernel)]
    decide +kernel
  obtain ⟨log, hrun⟩ := run_none (m := StateM Unit) writeNothing hprepare
  obtain ⟨-, hsymbols, hgroups⟩ := names_of_run writeNothing mixedShop.normalize namesakes
    mixedOptions none (.directory "in") () () log _ (congrArg (·.run ()) hrun)
  exact ⟨log, _, (), congrArg (·.run ()) hrun, hartifacts, hsymbols, hgroups⟩

end Iconsmith.Batch
