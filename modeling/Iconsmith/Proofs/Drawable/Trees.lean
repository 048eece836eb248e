import Iconsmith.Proofs.Drawable.WellFormed

/-!
# The tree of a drawable

The graphic of a document is built as its elements are: below the root and below each group, there is a
node for each element of a group or a path, in the order of the document. An element of another kind is
skipped with all that it holds, and leaves nothing but a notice. The first element that cannot be read, at
any depth of groups, is why a document is rejected.
-/

namespace Iconsmith

/-! ### Elements in the order of the document -/

namespace Xml.Node

mutual

/-- The elements in a node, each with those around it, the innermost first. -/
def nested (above : List Node) : Node → List (List Node × Node)
  | .element name attributes children =>
    (above, .element name attributes children)
      :: nestedOf (.element name attributes children :: above) children
  | .text _ | .remark => []

/-- The same for a list of nodes. -/
def nestedOf (above : List Node) : List Node → List (List Node × Node)
  | [] => []
  | n :: ns => nested above n ++ nestedOf above ns

end

end Xml.Node

namespace Drawable

/-- Whether an element is that of a group. -/
def isGroup (e : Xml.Node) : Bool :=
  e.localName = "group"

/-- Whether an element is that of a path. -/
def isPath (e : Xml.Node) : Bool :=
  e.localName = "path"

@[simp] lemma isGroup_element (name : Xml.Name) (attributes : List Xml.Attribute)
    (children : List Xml.Node) :
    isGroup (.element name attributes children) = decide (name.name = "group") := rfl

@[simp] lemma isPath_element (name : Xml.Name) (attributes : List Xml.Attribute)
    (children : List Xml.Node) :
    isPath (.element name attributes children) = decide (name.name = "path") := rfl

/-- The elements in some nodes around which there are only groups, in the order of the document. -/
def inPlace (ns : List Xml.Node) : List Xml.Node :=
  ((Xml.Node.nestedOf [] ns).filter fun e => e.1.all isGroup).map Prod.snd

/-- The elements of paths around which there are only groups. -/
def pathsInPlace (ns : List Xml.Node) : List Xml.Node :=
  (inPlace ns).filter isPath

/-- The elements among some nodes that are those of groups or paths. -/
def drawn (ns : List Xml.Node) : List Xml.Node :=
  (ns.filter Xml.Node.isElement).filter fun e => isGroup e || isPath e

/-! ### What is reached -/

mutual

/-- The elements that are come upon where only groups are entered. -/
def reached : Xml.Node → List Xml.Node
  | .element name attributes children =>
    .element name attributes children :: if name.name = "group" then reachedOf children else []
  | .text _ | .remark => []

/-- The same for a list of nodes. -/
def reachedOf : List Xml.Node → List Xml.Node
  | [] => []
  | n :: ns => reached n ++ reachedOf ns

end

mutual

lemma filter_nested (above : List Xml.Node) : ∀ n : Xml.Node,
    ((n.nested above).filter fun e => e.1.all isGroup).map Prod.snd
      = if above.all isGroup then reached n else []
  | .element name attributes children => by
    rw [Xml.Node.nested, reached, List.filter_cons, apply_ite (List.map Prod.snd), List.map_cons,
      filter_nestedOf (.element name attributes children :: above) children, List.all_cons,
      isGroup_element]
    by_cases habove : above.all isGroup = true
    · simp only [habove, Bool.and_true, decide_eq_true_eq, if_true]
    · simp only [habove, Bool.and_false, Bool.false_eq_true, if_false]
  | .text _ => by simp [Xml.Node.nested, reached]
  | .remark => by simp [Xml.Node.nested, reached]

lemma filter_nestedOf (above : List Xml.Node) : ∀ ns : List Xml.Node,
    ((Xml.Node.nestedOf above ns).filter fun e => e.1.all isGroup).map Prod.snd
      = if above.all isGroup then reachedOf ns else []
  | [] => by simp [Xml.Node.nestedOf, reachedOf]
  | n :: ns => by
    rw [Xml.Node.nestedOf, List.filter_append, List.map_append, filter_nested above n,
      filter_nestedOf above ns, reachedOf]
    split_ifs <;> rfl

end

lemma inPlace_eq (ns : List Xml.Node) : inPlace ns = reachedOf ns :=
  filter_nestedOf [] ns

mutual

lemma filter_reached : ∀ n : Xml.Node, (reached n).filter isPath = pathElements n
  | .element name attributes children => by
    rw [reached, pathElements, List.filter_cons, isPath_element]
    by_cases hgroup : name.name = "group"
    · have hpath : ¬ name.name = "path" := by
        rw [hgroup]
        decide
      rw [if_pos hgroup, if_pos hgroup, filter_reachedOf children, decide_eq_false hpath]
      rfl
    · rw [if_neg hgroup, if_neg hgroup, List.filter_nil]
      simp only [decide_eq_true_eq]
  | .text _ => rfl
  | .remark => rfl

lemma filter_reachedOf : ∀ ns : List Xml.Node, (reachedOf ns).filter isPath = pathElementsOf ns
  | [] => rfl
  | n :: ns => by
    rw [reachedOf, List.filter_append, filter_reached n, filter_reachedOf ns, pathElementsOf]

end

/-- The paths are read from the elements of paths that are in place. -/
lemma pathsInPlace_eq (ns : List Xml.Node) : pathsInPlace ns = pathElementsOf ns := by
  rw [pathsInPlace, inPlace_eq, filter_reachedOf]

/-! ### Nodes and their elements -/

section Nodes

variable {t : Color.Table}

/-- A node that is built as an element is: a group has a node for each group and each path in its element,
and a path is read from its own. -/
inductive Mirrors (t : Color.Table) : Xml.Node → Node Float → Prop where
  | group {e : Xml.Node} {m : Transform Float} {children : List (Node Float)}
      (hgroup : isGroup e = true) (htransform : transform e = .ok m)
      (hchildren : List.Forall₂ (Mirrors t) (drawn e.children) children) :
      Mirrors t e (.group (attribute? e "name") m children)
  | path {e : Xml.Node} {p : Path Float} (hpath : isPath e = true) (hreads : PathReads t e p) :
      Mirrors t e (.path p)

section Element

variable {name : Xml.Name} {attributes : List Xml.Attribute} {children : List Xml.Node}

lemma node?_of_group (h : name.name = "group") :
    node? t (.element name attributes children) = do
      let m ← transform (.element name attributes children)
      let ms ← nodes t children
      return some (.group (attribute? (.element name attributes children) "name") m ms) := by
  rw [node?, if_pos h]

lemma node?_of_path (hgroup : ¬ name.name = "group") (h : name.name = "path") :
    node? t (.element name attributes children) = do
      let p ← path t (.element name attributes children)
      return some (.path p) := by
  rw [node?, if_neg hgroup, if_pos h]

lemma node?_of_other (hgroup : ¬ name.name = "group") (hpath : ¬ name.name = "path") :
    node? t (.element name attributes children) = do
      skip (.element name attributes children)
      return none := by
  rw [node?, if_neg hgroup, if_neg hpath]

lemma drawn_element : drawn [.element name attributes children]
    = if name.name = "group" ∨ name.name = "path" then [.element name attributes children] else [] := by
  simp [drawn, Xml.Node.isElement, List.filter_cons]

end Element

lemma drawn_cons (n : Xml.Node) (ns : List Xml.Node) : drawn (n :: ns) = drawn [n] ++ drawn ns := by
  rw [drawn, drawn, drawn, ← List.singleton_append, List.filter_append, List.filter_append]

mutual

lemma mirrors_node? {n : Xml.Node} {m : Option (Node Float)} (h : (node? t n).result = .ok m) :
    List.Forall₂ (Mirrors t) (drawn [n]) m.toList := by
  match n with
  | .element name attributes children =>
    rw [drawn_element]
    by_cases hgroup : name.name = "group"
    · rw [node?_of_group hgroup] at h
      obtain ⟨m, hm, h⟩ := Reading.bind_result_eq_ok.mp h
      obtain ⟨ms, hms, h⟩ := Reading.bind_result_eq_ok.mp h
      cases h
      rw [if_pos (Or.inl hgroup)]
      exact .cons (.group (decide_eq_true hgroup) hm (mirrors_nodes hms)) .nil
    · by_cases hpath : name.name = "path"
      · rw [node?_of_path hgroup hpath] at h
        obtain ⟨p, hp, h⟩ := Reading.bind_result_eq_ok.mp h
        cases h
        rw [if_pos (Or.inr hpath)]
        exact .cons (.path (decide_eq_true hpath) (pathReads_of_path hp)) .nil
      · rw [node?_of_other hgroup hpath] at h
        obtain ⟨_, -, h⟩ := Reading.bind_result_eq_ok.mp h
        cases h
        rw [if_neg (not_or.mpr ⟨hgroup, hpath⟩)]
        exact .nil
  | .text _ =>
    cases h
    exact .nil
  | .remark =>
    cases h
    exact .nil

lemma mirrors_nodes {ns : List Xml.Node} {ms : List (Node Float)}
    (h : (nodes t ns).result = .ok ms) : List.Forall₂ (Mirrors t) (drawn ns) ms := by
  match ns with
  | [] =>
    cases h
    exact .nil
  | n :: ns =>
    rw [nodes] at h
    obtain ⟨first, hfirst, h⟩ := Reading.bind_result_eq_ok.mp h
    obtain ⟨rest, hrest, h⟩ := Reading.bind_result_eq_ok.mp h
    cases h
    rw [drawn_cons]
    exact List.rel_append (mirrors_node? hfirst) (mirrors_nodes hrest)

end

end Nodes

/-! ### Notices -/

/-- The notice that an element gives when it is skipped, if it is neither a group nor a path. -/
def notice? (e : Xml.Node) : Option Notice :=
  if isGroup e || isPath e then none
  else if e.localName = "clip-path" then some .clipPath
  else if e.localName = "attr" && e.space == some inlineSpace then none
  else some (.unknownElement e.localName)

section Notices

variable {t : Color.Table}

lemma Reading.notices_bind {α β : Type} {r : Reading α} {a : α} (h : r.result = .ok a)
    (f : α → Reading β) : (r >>= f).notices = r.notices ++ (f a).notices := by
  obtain ⟨notices, result⟩ := r
  cases h
  rfl

section Element

variable {name : Xml.Name} {attributes : List Xml.Attribute} {children : List Xml.Node}

lemma notice?_drawn (h : name.name = "group" ∨ name.name = "path") :
    notice? (.element name attributes children) = none := by
  rw [notice?, isGroup_element, isPath_element, if_pos (by simpa using h)]

lemma notices_skip (hgroup : ¬ name.name = "group") (hpath : ¬ name.name = "path") :
    (skip (.element name attributes children)).notices
      = [.element name attributes children].filterMap notice? := by
  have hskipped : ¬ (isGroup (.element name attributes children)
      || isPath (.element name attributes children)) = true := by simp [hgroup, hpath]
  rw [skip, List.filterMap_cons, notice?, if_neg hskipped]
  split_ifs <;> rfl

end Element

mutual

lemma notices_node? {n : Xml.Node} {m : Option (Node Float)} (h : (node? t n).result = .ok m) :
    (node? t n).notices = (reached n).filterMap notice? := by
  match n with
  | .element name attributes children =>
    rw [reached]
    by_cases hgroup : name.name = "group"
    · rw [node?_of_group hgroup] at h ⊢
      obtain ⟨m, hm, h⟩ := Reading.bind_result_eq_ok.mp h
      obtain ⟨ms, hms, h⟩ := Reading.bind_result_eq_ok.mp h
      rw [if_pos hgroup, Reading.notices_bind hm, Reading.notices_bind hms, notices_nodes hms,
        List.filterMap_cons_none (notice?_drawn (Or.inl hgroup))]
      exact List.append_nil _
    · rw [if_neg hgroup]
      by_cases hpath : name.name = "path"
      · rw [node?_of_path hgroup hpath] at h ⊢
        obtain ⟨p, hp, h⟩ := Reading.bind_result_eq_ok.mp h
        rw [Reading.notices_bind hp, List.filterMap_cons_none (notice?_drawn (Or.inr hpath))]
        rfl
      · rw [node?_of_other hgroup hpath] at h ⊢
        obtain ⟨_, hskip, h⟩ := Reading.bind_result_eq_ok.mp h
        rw [Reading.notices_bind hskip, notices_skip hgroup hpath]
        exact List.append_nil _
  | .text _ => rfl
  | .remark => rfl

/-- A list of nodes that is read gives the notices of the skipped elements, one for each. -/
lemma notices_nodes {ns : List Xml.Node} {ms : List (Node Float)}
    (h : (nodes t ns).result = .ok ms) : (nodes t ns).notices = (reachedOf ns).filterMap notice? := by
  match ns with
  | [] => rfl
  | n :: ns =>
    rw [nodes] at h ⊢
    obtain ⟨first, hfirst, h⟩ := Reading.bind_result_eq_ok.mp h
    obtain ⟨rest, hrest, h⟩ := Reading.bind_result_eq_ok.mp h
    rw [Reading.notices_bind hfirst, Reading.notices_bind hrest, notices_node? hfirst,
      notices_nodes hrest, reachedOf, List.filterMap_append]
    exact congrArg (_ ++ ·) (List.append_nil _)

end

end Notices

/-! ### Faults -/

/-- What is wrong with a result, if something is. -/
def error? {ε α : Type} : Except ε α → Option ε
  | .error e => some e
  | .ok _ => none

/-- What is wrong with the element of a group or a path itself, if something is. -/
def fault? (t : Color.Table) (e : Xml.Node) : Option Error :=
  if isGroup e then error? (transform e) else if isPath e then error? (path t e) else none

section Faults

variable {t : Color.Table}

lemma error?_bind {α β : Type} (r : Reading α) (f : α → Reading β) (o : Option Error)
    (h : ∀ a, r.result = .ok a → error? (f a).result = o) :
    error? (r >>= f).result = (error? r.result).or o := by
  obtain ⟨notices, result⟩ := r
  cases result with
  | error e => rfl
  | ok a => exact h a rfl

lemma Reading.result_lift_bind {α β : Type} {x : Except Error α} {a : α} (h : x = .ok a)
    (f : α → Reading β) : (liftM x >>= f).result = (f a).result := by
  rw [h]
  rfl

lemma error?_skip (e : Xml.Node) : error? (skip e).result = none := by
  unfold skip
  split_ifs <;> rfl

lemma findSome?_cons_eq_or {α β : Type} (f : α → Option β) (a : α) (l : List α) :
    (a :: l).findSome? f = (f a).or (l.findSome? f) := by
  rw [List.findSome?_cons]
  cases f a <;> rfl

mutual

lemma error?_node? : ∀ n : Xml.Node, error? (node? t n).result = (reached n).findSome? (fault? t)
  | .element name attributes children => by
    rw [reached, findSome?_cons_eq_or, fault?, isGroup_element, isPath_element]
    by_cases hgroup : name.name = "group"
    · rw [node?_of_group hgroup, if_pos (decide_eq_true hgroup), if_pos hgroup]
      refine error?_bind _ _ _ fun m _ => ?_
      rw [error?_bind _ _ none fun _ _ => rfl, Option.or_none, error?_nodes children]
    · rw [if_neg (by simpa using hgroup), if_neg hgroup]
      by_cases hpath : name.name = "path"
      · rw [node?_of_path hgroup hpath, if_pos (decide_eq_true hpath)]
        exact error?_bind _ _ _ fun _ _ => rfl
      · rw [node?_of_other hgroup hpath, if_neg (by simpa using hpath),
          error?_bind _ _ none fun _ _ => rfl, Option.or_none, error?_skip]
        rfl
  | .text _ => rfl
  | .remark => rfl

/-- What is wrong with a list of nodes is what is wrong with the first element that is at fault. -/
lemma error?_nodes : ∀ ns : List Xml.Node,
    error? (nodes t ns).result = (reachedOf ns).findSome? (fault? t)
  | [] => rfl
  | n :: ns => by
    rw [nodes, reachedOf, List.findSome?_append, ← error?_node? n]
    refine error?_bind _ _ _ fun first _ => ?_
    rw [error?_bind _ _ none fun _ _ => rfl, Option.or_none, error?_nodes ns]

end

end Faults

/-! ### What is inside of skipped elements -/

mutual

/-- A node without what is inside of skipped elements, and without text and remarks. -/
def pruned : Xml.Node → List Xml.Node
  | .element name attributes children =>
    if name.name = "group" then [.element name attributes (prunedOf children)]
    else if name.name = "path" then [.element name attributes children]
    else [.element name [] []]
  | .text _ | .remark => []

/-- The same for a list of nodes. -/
def prunedOf : List Xml.Node → List Xml.Node
  | [] => []
  | n :: ns => pruned n ++ prunedOf ns

end

/-- A root with its own attributes, and below it nothing that is inside of skipped elements. -/
def prunedRoot : Xml.Node → Xml.Node
  | .element name attributes children => .element name attributes (prunedOf children)
  | n => n

section Pruned

variable {t : Color.Table}

lemma Reading.bind_append_nil {α : Type} (r : Reading (List α)) :
    (r >>= fun rest => pure ([] ++ rest)) = r := by
  obtain ⟨notices, result⟩ := r
  cases result with
  | error e => rfl
  | ok a => exact congrArg (Reading.mk · (.ok a)) (List.append_nil notices)

lemma nodes_cons_of_none {n : Xml.Node} (h : node? t n = pure none) (ns : List Xml.Node) :
    nodes t (n :: ns) = nodes t ns := by
  rw [nodes, h]
  exact Reading.bind_append_nil (nodes t ns)

/-- Only the elements of groups and paths are looked into, and text and remarks are passed over. -/
lemma nodes_prunedOf : ∀ ns : List Xml.Node, nodes t (prunedOf ns) = nodes t ns
  | [] => rfl
  | .element name attributes children :: ns => by
    have hrest := nodes_prunedOf ns
    rw [prunedOf, pruned]
    split_ifs with hgroup hpath
    · have hfirst : node? t (.element name attributes (prunedOf children))
          = node? t (.element name attributes children) := by
        rw [node?_of_group hgroup, node?_of_group hgroup, nodes_prunedOf children]
        rfl
      rw [List.singleton_append, nodes, nodes, hfirst, hrest]
    · rw [List.singleton_append, nodes, nodes, hrest]
    · have hfirst : node? t (.element name [] []) = node? t (.element name attributes children) := by
        rw [node?_of_other hgroup hpath, node?_of_other hgroup hpath]
        rfl
      rw [List.singleton_append, nodes, nodes, hfirst, hrest]
  | .text s :: ns => by
    rw [prunedOf, pruned, List.nil_append, nodes_prunedOf ns, nodes_cons_of_none (by rw [node?])]
  | .remark :: ns => by
    rw [prunedOf, pruned, List.nil_append, nodes_prunedOf ns, nodes_cons_of_none (by rw [node?])]

lemma graphic_prunedRoot (root : Xml.Node) : graphic t (prunedRoot root) = graphic t root := by
  cases root with
  | element name attributes children =>
    have hnodes : nodes t (prunedOf (Xml.Node.element name attributes children).children)
        = nodes t (Xml.Node.element name attributes children).children :=
      nodes_prunedOf children
    unfold graphic
    rw [← hnodes]
    rfl
  | text _ => rfl
  | remark => rfl

end Pruned

/-! ### Documents -/

/-- A graphic whose tree is that of the elements below a root: there is a node for each group and each path
as they are nested, and the paths in the order in which they are drawn are those of the elements in place. -/
structure Mirrored (t : Color.Table) (root : Xml.Node) (g : Graphic Float) : Prop where
  nodes : List.Forall₂ (Mirrors t) (drawn root.children) g.nodes
  paths : List.Forall₂ (PathReads t) (pathsInPlace root.children) g.paths

/-- An element has path data that can be read. -/
def HasCommands (e : Xml.Node) : Prop :=
  ∃ data commands, attribute? e "pathData" = some data ∧ PathData.read data = .ok commands

/-- The sizes of a root can be read. -/
def IsMeasured (root : Xml.Node) : Prop :=
  ∃ width height size, length? root "width" = .ok width ∧ length? root "height" = .ok height
    ∧ viewport root width height = .ok size

section Documents

variable {t : Color.Table} {text : String} {root : Xml.Node} {g : Graphic Float}

lemma read_of_root (h : Xml.Document.readRoot "vector" text = .ok root) :
    read t text = graphic t root := by
  rw [read, h]
  rfl

/-- The root of a document that is read is measured, and its content is read. -/
lemma nodes_of_graphic (h : (graphic t root).result = .ok g) :
    (nodes t root.children).result = .ok g.nodes
      ∧ (graphic t root).notices = (nodes t root.children).notices := by
  unfold graphic at h ⊢
  obtain ⟨width, hwidth, h⟩ := Reading.bind_result_eq_ok.mp h
  obtain ⟨height, hheight, h⟩ := Reading.bind_result_eq_ok.mp h
  obtain ⟨size, hsize, h⟩ := Reading.bind_result_eq_ok.mp h
  obtain ⟨ms, hms, h⟩ := Reading.bind_result_eq_ok.mp h
  rw [Reading.notices_bind hwidth, Reading.notices_bind hheight, Reading.notices_bind hsize,
    Reading.notices_bind hms]
  cases h
  exact ⟨hms, List.append_nil _⟩

lemma mirrored_of_graphic (h : (graphic t root).result = .ok g) : Mirrored t root g := by
  obtain ⟨hnodes, -⟩ := nodes_of_graphic h
  constructor
  case nodes => exact mirrors_nodes hnodes
  case paths =>
    rw [pathsInPlace_eq]
    exact (forall₂_path_nodes hnodes).imp fun _ _ => pathReads_of_path

/-- The data of each path that is in place has been read. -/
lemma hasCommands_of_graphic (h : (graphic t root).result = .ok g) :
    ∀ e ∈ pathsInPlace root.children, HasCommands e := by
  have hpaths := (mirrored_of_graphic h).paths.imp fun e p hp =>
    And.intro (hp.commands.imp fun _ hdata => Exists.intro p.commands hdata : HasCommands e) hp
  exact ((List.forall₂_and_left _ _).mp hpaths).1

/-- With its sizes known, a root is rejected for the first element at fault, however deep it stands. -/
lemma graphic_eq_error (h : IsMeasured root) (e : Error) :
    (graphic t root).result = .error e
      ↔ (inPlace root.children).findSome? (fault? t) = some e := by
  obtain ⟨width, height, size, hwidth, hheight, hsize⟩ := h
  have herror : error? (graphic t root).result = error? (nodes t root.children).result := by
    unfold graphic
    rw [Reading.result_lift_bind hwidth, Reading.result_lift_bind hheight,
      Reading.result_lift_bind hsize, error?_bind _ _ none fun _ _ => rfl, Option.or_none]
  rw [inPlace_eq, ← error?_nodes, ← herror]
  cases (graphic t root).result <;> simp [error?]

/-- What is read of a document has the tree of its elements. Below the root and below each group, the nodes
are those of the elements of groups and paths, so the paths are those of the elements around which there
are only groups, in the order of the document, and drawn as their data says. Each other element that is
come upon gives one notice, or none where it stands for an attribute. A document is rejected if the data of
any of the paths is missing or cannot be read, and for the first element at fault. What is inside of
skipped elements makes no difference. -/
theorem tree_of_read (t : Color.Table) (text : String) :
    (∀ g, (read t text).result = .ok g →
      ∃ root, Xml.Document.readRoot "vector" text = .ok root ∧ Mirrored t root g
        ∧ (read t text).notices = (inPlace root.children).filterMap notice?)
    ∧ ∀ root, Xml.Document.readRoot "vector" text = .ok root →
      ((∃ e ∈ pathsInPlace root.children, ¬ HasCommands e) → ∃ e, (read t text).result = .error e)
      ∧ (IsMeasured root → ∀ e, (read t text).result = .error e
          ↔ (inPlace root.children).findSome? (fault? t) = some e)
      ∧ ∀ text' root', Xml.Document.readRoot "vector" text' = .ok root' →
        prunedRoot root' = prunedRoot root → read t text' = read t text := by
  constructor
  · intro g hg
    obtain ⟨root, hroot, -⟩ := Reading.bind_result_eq_ok.mp hg
    have hroot := mapError_eq_ok.mp hroot
    rw [read_of_root hroot] at hg ⊢
    obtain ⟨hnodes, hnotices⟩ := nodes_of_graphic hg
    refine ⟨root, hroot, mirrored_of_graphic hg, ?_⟩
    rw [hnotices, notices_nodes hnodes, inPlace_eq]
  · intro root hroot
    rw [read_of_root hroot]
    refine ⟨?_, graphic_eq_error, ?_⟩
    · rintro ⟨e, he, hdata⟩
      cases hresult : (graphic t root).result with
      | error e => exact ⟨e, rfl⟩
      | ok g =>
        exact absurd (hasCommands_of_graphic hresult e he) hdata
    · intro text' root' hroot' hpruned
      rw [read_of_root hroot', ← graphic_prunedRoot root', hpruned, graphic_prunedRoot root]

end Documents

/-- A document with groups inside of each other, of which each holds a path, and with skipped elements in
which there are paths without data. -/
def nestedText : String :=
  "<vector xmlns:a='http://schemas.android.com/apk/res/android' " ++
  "xmlns:b='http://schemas.android.com/aapt' a:viewportWidth='8' a:viewportHeight='8'>" ++
  "text<group a:name='outer'><path a:pathData='M0,0h8'/><clip-path><path/></clip-path>" ++
  "<!-- remark --><group a:rotation='45'><path a:pathData='M0,0v8'/></group></group>" ++
  "<b:attr><group/></b:attr><g><group><path/></group></g><path a:pathData='M4,4'/></vector>"

/-- A document in which a path without data is inside of two groups, and one with data in no group. -/
def brokenText : String :=
  "<vector xmlns:a='http://schemas.android.com/apk/res/android' " ++
  "a:viewportWidth='8' a:viewportHeight='8'><group><group><path a:name='blank'/></group></group>" ++
  "<path a:pathData='M4,4'/></vector>"

/-- The first document is read with two notices. The other one is rejected. -/
theorem tree_of_nestedText :
    (∃ g root, (read .empty nestedText).result = .ok g ∧ g.pathCount = 3
      ∧ Xml.Document.readRoot "vector" nestedText = .ok root ∧ Mirrored .empty root g
      ∧ (inPlace root.children).filterMap notice? = [.clipPath, .unknownElement "g"])
    ∧ ∃ e, (read .empty brokenText).result = .error e := by
  constructor
  · have hread : (read .empty nestedText).notices = [.clipPath, .unknownElement "g"]
        ∧ (read .empty nestedText).result.toOption.map Graphic.pathCount = some 3 := by
      -- the characters of a long text are taken from its literals, where they need not be computed
      have htext : nestedText.toList = _ :=
        toList_append_of_eq (toList_append_of_eq (toList_append_of_eq (toList_append_of_eq
          String.toList_ofList String.toList_ofList) String.toList_ofList) String.toList_ofList)
          String.toList_ofList
      rw [read, Xml.Document.readRoot, Xml.Document.read?, Xml.Document.tokens?, htext]
      decide +kernel
    obtain ⟨hnotices, hcount⟩ := hread
    obtain ⟨g, hg, hcount⟩ := Option.map_eq_some_iff.mp hcount
    have hg := toOption_eq_some.mp hg
    obtain ⟨root, hroot, hmirrored, hskipped⟩ := (tree_of_read .empty nestedText).1 g hg
    exact ⟨g, root, hg, hcount, hroot, hmirrored, hskipped.symm.trans hnotices⟩
  · have hread : (Xml.Document.readRoot "vector" brokenText).toOption.map (fun root =>
        (pathsInPlace root.children).map (attribute? · "pathData")) = some [none, some "M4,4"] := by
      have htext : brokenText.toList = _ :=
        toList_append_of_eq (toList_append_of_eq String.toList_ofList String.toList_ofList)
          String.toList_ofList
      rw [Xml.Document.readRoot, Xml.Document.read?, Xml.Document.tokens?, htext]
      decide +kernel
    obtain ⟨root, hroot, hpaths⟩ := Option.map_eq_some_iff.mp hread
    obtain ⟨e, he, hdata⟩ : ∃ e ∈ pathsInPlace root.children, attribute? e "pathData" = none := by
      rw [← List.mem_map, hpaths]
      exact List.mem_cons_self
    refine ((tree_of_read .empty brokenText).2 root (toOption_eq_some.mp hroot)).1 ⟨e, he, ?_⟩
    rintro ⟨data, _, hsome, -⟩
    rw [hdata] at hsome
    cases hsome

end Drawable

end Iconsmith
