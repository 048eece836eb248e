import Iconsmith.Proofs.Drawable.RoundTrip

/-!
# Names read back

Groups and paths can have names of any characters of a document. They are written with references for
markup, but with tabs and line ends as they are, so that these are read as spaces. Nothing else becomes of
a name, wherever it stands and whatever the other names are.
-/

namespace Iconsmith

open Double (unsigned)

variable {α β : Type}

/-! ### The names of a tree -/

mutual

/-- The names of a node and of all that is below it, in the order of the document. -/
def Node.names : Node α → List (Option String)
  | .group name _ children => name :: Node.namesOf children
  | .path p => [p.name]

/-- The names of a list of nodes. -/
def Node.namesOf : List (Node α) → List (Option String)
  | [] => []
  | n :: ns => n.names ++ Node.namesOf ns

end

/-- The names of all groups and paths of a graphic. -/
def Graphic.names (g : Graphic α) : List (Option String) :=
  Node.namesOf g.nodes

mutual

/-- A node with other names at every depth. -/
def Node.rename (f : Option String → Option String) : Node α → Node α
  | .group name transform children => .group (f name) transform (Node.renameAll f children)
  | .path p => .path { p with name := f p.name }

/-- A list of nodes with other names. -/
def Node.renameAll (f : Option String → Option String) : List (Node α) → List (Node α)
  | [] => []
  | n :: ns => n.rename f :: Node.renameAll f ns

end

/-- A graphic with other names. -/
def Graphic.rename (f : Option String → Option String) (g : Graphic α) : Graphic α :=
  { g with nodes := Node.renameAll f g.nodes }

/-- A graphic without names. -/
def Graphic.unnamed (g : Graphic α) : Graphic α :=
  g.rename fun _ => none

/-- A graphic with spaces in place of the tabs and line ends of its names. -/
def Graphic.spaced (g : Graphic α) : Graphic α :=
  g.rename (·.map Xml.spaced)

section Rename

variable (f : Option String → Option String)

mutual

lemma Node.names_rename (n : Node α) : (n.rename f).names = n.names.map f := by
  match n with
  | .group name transform children => rw [rename, names, names, Node.namesOf_renameAll, List.map_cons]
  | .path p => rfl

/-- Renaming changes each name on its own. -/
lemma Node.namesOf_renameAll (ns : List (Node α)) :
    namesOf (renameAll f ns) = (namesOf ns).map f := by
  match ns with
  | [] => rfl
  | n :: ns =>
    rw [renameAll, namesOf, namesOf, Node.names_rename, Node.namesOf_renameAll, List.map_append]

end

mutual

lemma Node.numbers_rename (n : Node α) : (n.rename f).numbers = n.numbers := by
  match n with
  | .group name transform children => rw [rename, numbers, numbers, Node.numbersOf_renameAll]
  | .path p => rfl

/-- Renaming keeps the numbers. -/
lemma Node.numbersOf_renameAll (ns : List (Node α)) :
    numbersOf (renameAll f ns) = numbersOf ns := by
  match ns with
  | [] => rfl
  | n :: ns => rw [renameAll, numbersOf, numbersOf, Node.numbers_rename, Node.numbersOf_renameAll]

end

lemma Graphic.names_rename (g : Graphic α) : (g.rename f).names = g.names.map f :=
  Node.namesOf_renameAll f g.nodes

lemma Graphic.numbers_rename (g : Graphic α) : (g.rename f).numbers = g.numbers :=
  congrArg (_ ++ ·) (Node.numbersOf_renameAll f g.nodes)

end Rename

section Map

variable (f : α → β)

mutual

lemma Node.names_map (n : Node α) : (n.map f).names = n.names := by
  match n with
  | .group name transform children => rw [map_group, names, names, Node.namesOf_map]
  | .path p => rw [map_path]; rfl

/-- Other numbers keep the names. -/
lemma Node.namesOf_map (ns : List (Node α)) : namesOf (ns.map (Node.map f)) = namesOf ns := by
  match ns with
  | [] => rfl
  | n :: ns => rw [List.map_cons, namesOf, namesOf, Node.names_map, Node.namesOf_map]

end

lemma Graphic.names_map (g : Graphic α) : (g.map f).names = g.names :=
  Node.namesOf_map f g.nodes

end Map

/-! ### What is read -/

lemma map_spaced_eq_iff {name : Option String} (h : ∀ n ∈ name, Xml.IsText n) :
    name.map Xml.spaced = name ↔ IsName name :=
  ⟨fun heq => heq ▸ isName_spaced h, map_spaced_of_isName⟩

/-- A path whose only fault can be its name is read with spaces in the name. -/
lemma Path.spelled_of_unnamed {p : Path Float} (hp : ({ p with name := none } : Path Float).Expressible)
    (hname : ∀ n ∈ p.name, Xml.IsText n) :
    p.Spelled ∧ p.reread = .ok (p.spaced.map unsigned) := by
  have hfill f (hf : f ∈ p.fill) : f.Spelled ∧ f.HasExtent := Fill.expressible_iff.mp (hp.fill f hf)
  exact ⟨{ hp.spelled with name := hname, fill := fun f hf => (hfill f hf).1 },
    reread_of_hasExtent fun f hf => (hfill f hf).2⟩

mutual

lemma Node.spelled_of_unnamed {n : Node Float} (hn : (n.rename fun _ => none).Expressible)
    (hnames : ∀ name ∈ n.names, ∀ s ∈ name, Xml.IsText s) :
    n.Spelled ∧ n.reread = .ok ((n.rename (·.map Xml.spaced)).map unsigned) := by
  match n with
  | .group name transform children =>
    rw [names, List.forall_mem_cons] at hnames
    obtain ⟨hspelled, hread⟩ := Node.spelledAll_of_unnamed hn.2 hnames.2
    refine ⟨⟨hnames.1, hspelled⟩, ?_⟩
    rw [reread, hread, rename, map_group]
    rfl
  | .path p =>
    obtain ⟨hspelled, hread⟩ := Path.spelled_of_unnamed hn (hnames _ (List.mem_singleton_self _))
    refine ⟨hspelled, ?_⟩
    rw [reread, hread, rename, map_path]
    rfl

/-- Nodes whose only faults can be their names are read with spaces in the names. -/
lemma Node.spelledAll_of_unnamed {ns : List (Node Float)}
    (hns : ExpressibleAll (renameAll (fun _ => none) ns))
    (hnames : ∀ name ∈ namesOf ns, ∀ s ∈ name, Xml.IsText s) :
    SpelledAll ns ∧
      rereadAll ns = .ok ((renameAll (·.map Xml.spaced) ns).map (Node.map unsigned)) := by
  match ns with
  | [] => exact ⟨trivial, rfl⟩
  | n :: ns =>
    rw [namesOf, List.forall_mem_append] at hnames
    obtain ⟨hn, hread⟩ := Node.spelled_of_unnamed hns.1 hnames.1
    obtain ⟨hrest, hreadRest⟩ := Node.spelledAll_of_unnamed hns.2 hnames.2
    refine ⟨⟨hn, hrest⟩, ?_⟩
    rw [rereadAll, hread, hreadRest]
    rfl

end

namespace Drawable

section Reading

variable {g : Graphic Float} (hg : g.unnamed.Expressible)
  (hnames : ∀ name ∈ g.names, ∀ s ∈ name, Xml.IsText s)

include hg hnames

lemma read_write_of_unnamed (t : Color.Table) :
    read t (write g) = ⟨[], .ok (g.spaced.map unsigned)⟩ := by
  obtain ⟨hspelled, hread⟩ := Node.spelledAll_of_unnamed hg.nodes hnames
  have hfinite := hg.finite
  rw [Graphic.unnamed, Graphic.numbers_rename] at hfinite
  rw [read_write_of_spelled ⟨hfinite, hg.viewport, hspelled⟩ t, Graphic.reread, hread]
  rfl

/-- Only names can be read back as others: a graphic that could be written without its names is read as it
was, but with spaces in place of the tabs and line ends of its names. -/
theorem read_write_names (t : Color.Table) :
    ∃ g', read t (write g) = ⟨[], .ok g'⟩ ∧ (g' == g.spaced) = true ∧
      List.Forall₂ (fun name name' => name' = name.map Xml.spaced ∧ (name' = name ↔ IsName name))
        g.names g'.names := by
  refine ⟨_, read_write_of_unnamed hg hnames t, ?_, ?_⟩
  · refine Graphic.map_beq fun x hx => Double.unsigned_beq (hg.finite x ?_)
    rwa [Graphic.unnamed, Graphic.numbers_rename, ← Graphic.numbers_rename (·.map Xml.spaced)]
  · rw [Graphic.names_map, Graphic.spaced, Graphic.names_rename, List.forall₂_map_right_iff,
      List.forall₂_same]
    exact fun name hname => ⟨rfl, map_spaced_eq_iff (hnames name hname)⟩

end Reading

/-- A carriage return and a line feed make one line end. -/
example : Xml.spaced "a\r\n\tb\rc" = "a  b c" := by
  decide +kernel

/-- A graphic with a line end in the name of a group, and with a tab and markup in that of a path in it. -/
def labelled : Graphic Float where
  width := { value := 24, unit := some .dp }
  height := { value := 24, unit := some .dp }
  viewport := ⟨24, 24⟩
  nodes := [
    .group (some "two\nlines") Transform.identity [
      .path { Path.ofCommands [.moveTo false ⟨0, 1⟩, .close] with name := some "\t\"<sun>\" & 'moon'" }],
    .path { Path.ofCommands [.moveTo false ⟨2, 3⟩] with name := some " a " }]

lemma names_labelled : labelled.unnamed.Expressible ∧
    ∀ name ∈ labelled.names, ∀ s ∈ name, Xml.IsText s := by
  decide +kernel

theorem read_write_labelled :
    (labelled.unnamed.Expressible ∧ ∀ name ∈ labelled.names, ∀ s ∈ name, Xml.IsText s) ∧
      ∃ g', read .empty (write labelled) = ⟨[], .ok g'⟩ ∧ (g' == labelled.spaced) = true ∧
        List.Forall₂ (fun name name' => name' = name.map Xml.spaced ∧ (name' = name ↔ IsName name))
          labelled.names g'.names :=
  ⟨names_labelled, read_write_names names_labelled.1 names_labelled.2 .empty⟩

/-- The line end and the tab are lost, and with them the names. -/
theorem labelled_renamed :
    (labelled.unnamed.Expressible ∧ ∀ name ∈ labelled.names, ∀ s ∈ name, Xml.IsText s) ∧
      labelled.names = [some "two\nlines", some "\t\"<sun>\" & 'moon'", some " a "] ∧
      ∃ g', read .empty (write labelled) = ⟨[], .ok g'⟩ ∧
        g'.names = [some "two lines", some " \"<sun>\" & 'moon'", some " a "] := by
  refine ⟨names_labelled, rfl, _, read_write_of_unnamed names_labelled.1 names_labelled.2 .empty, ?_⟩
  rw [Graphic.names_map]
  decide +kernel

end Drawable

end Iconsmith
