import Iconsmith.Graphic.Basic
import Iconsmith.Graphic.Command
import Mathlib.Tactic

/-!
# The numbers of a graphic

A map of numbers takes a graphic to a graphic of the same build: what a command does, and whether it is
relative, stays as it is. If every number of the graphic is equal to what it is taken to, so is the
graphic.
-/

namespace Iconsmith

variable {α β : Type}

/-! ### Commands -/

/-- The kind of an operand. -/
def Operand.kind : Operand α → Operand.Kind
  | .number _ => .number
  | .flag _ => .flag

/-- An operand over other numbers. -/
def Operand.map (f : α → β) : Operand α → Operand β
  | .number x => .number (f x)
  | .flag on => .flag on

namespace Command

/-- A command over other numbers. -/
def map (f : α → β) : Command α → Command β
  | moveTo r p => .moveTo r (p.map f)
  | lineTo r p => .lineTo r (p.map f)
  | horizontalTo r x => .horizontalTo r (f x)
  | verticalTo r y => .verticalTo r (f y)
  | cubicTo r c₁ c₂ p => .cubicTo r (c₁.map f) (c₂.map f) (p.map f)
  | smoothCubicTo r c p => .smoothCubicTo r (c.map f) (p.map f)
  | quadraticTo r c p => .quadraticTo r (c.map f) (p.map f)
  | smoothQuadraticTo r p => .smoothQuadraticTo r (p.map f)
  | arcTo r a p => .arcTo r ⟨a.radii.map f, f a.rotation, a.largeArc, a.sweep⟩ (p.map f)
  | close => .close

@[simp] lemma verb_map (f : α → β) (c : Command α) : (c.map f).verb = c.verb := by
  cases c <;> rfl

@[simp] lemma isRelative_map (f : α → β) (c : Command α) :
    (c.map f).isRelative = c.isRelative := by
  cases c <;> rfl

@[simp] lemma operands_map (f : α → β) (c : Command α) :
    (c.map f).operands = c.operands.map (Operand.map f) := by
  cases c <;> rfl

lemma operands_verb (c : Command α) : c.verb.operands = c.operands.map Operand.kind := by
  cases c <;> rfl

lemma mem_numbers {c : Command α} {x : α} : x ∈ c.numbers ↔ .number x ∈ c.operands := by
  rw [numbers, List.mem_filterMap]
  constructor
  · rintro ⟨a, ha, hx⟩
    cases a with
    | number y =>
      cases hx
      exact ha
    | flag on => contradiction
  · intro h
    exact ⟨_, h, rfl⟩

lemma operands_eq_nil_iff {c : Command α} : c.operands = [] ↔ c = .close := by
  cases c <;> simp [operands]

end Command

/-! ### Graphics -/

/-- A size over other numbers. -/
def Length.map (f : α → β) (l : Length α) : Length β :=
  ⟨f l.value, l.unit⟩

/-- A transform over other numbers. -/
def Transform.map (f : α → β) (t : Transform α) : Transform β where
  rotation := f t.rotation
  pivot := t.pivot.map f
  scale := t.scale.map f
  shift := t.shift.map f

/-- A color stop over other numbers. -/
def ColorStop.map (f : α → β) (s : ColorStop α) : ColorStop β :=
  ⟨f s.offset, s.color⟩

/-- A fill over other numbers. -/
def Fill.map (f : α → β) : Fill α → Fill β
  | .solid color => .solid color
  | .linear stops start finish =>
    .linear (stops.map (ColorStop.map f)) (start.map f) (finish.map f)
  | .radial stops center radius => .radial (stops.map (ColorStop.map f)) (center.map f) (f radius)

/-- A path over other numbers. -/
def Path.map (f : α → β) (p : Path α) : Path β where
  name := p.name
  commands := p.commands.map (Command.map f)
  fill := p.fill.map (Fill.map f)
  fillAlpha := f p.fillAlpha
  strokeColor := p.strokeColor
  strokeAlpha := f p.strokeAlpha
  strokeWidth := p.strokeWidth.map (Length.map f)
  cap := p.cap
  join := p.join
  miter := f p.miter
  fillRule := p.fillRule

/-- A node over other numbers. -/
def Node.map (f : α → β) : Node α → Node β
  | .group name transform children => .group name (transform.map f) (children.map (Node.map f))
  | .path p => .path (p.map f)

@[simp] lemma Node.map_group (f : α → β) (name : Option String) (transform : Transform α)
    (children : List (Node α)) :
    (Node.group name transform children).map f =
      .group name (transform.map f) (children.map (Node.map f)) := by
  simp [Node.map]

@[simp] lemma Node.map_path (f : α → β) (p : Path α) : (Node.path p).map f = .path (p.map f) := by
  simp [Node.map]

/-- A graphic over other numbers. -/
def Graphic.map (f : α → β) (g : Graphic α) : Graphic β where
  width := g.width.map f
  height := g.height.map f
  viewport := g.viewport.map f
  nodes := g.nodes.map (Node.map f)

/-! ### Numbers -/

/-- The numbers of a fill. -/
def Fill.numbers : Fill α → List α
  | .solid _ => []
  | .linear stops start finish =>
    stops.map (·.offset) ++ [start.x, start.y, finish.x, finish.y]
  | .radial stops center radius => stops.map (·.offset) ++ [center.x, center.y, radius]

/-- The numbers of a path. -/
def Path.numbers (p : Path α) : List α :=
  p.commands.flatMap Command.numbers ++ [p.fillAlpha, p.strokeAlpha, p.miter] ++
    p.strokeWidth.toList.map (·.value) ++ p.fill.toList.flatMap Fill.numbers

mutual

/-- The numbers of a node at any depth. -/
def Node.numbers : Node α → List α
  | .group _ transform children => transform.numbers ++ Node.numbersOf children
  | .path p => p.numbers

/-- The numbers of a list of nodes. -/
def Node.numbersOf : List (Node α) → List α
  | [] => []
  | n :: ns => n.numbers ++ Node.numbersOf ns

end

/-- The numbers of a graphic. -/
def Graphic.numbers (g : Graphic α) : List α :=
  [g.width.value, g.height.value, g.viewport.x, g.viewport.y] ++ Node.numbersOf g.nodes

lemma Fill.offset_mem_numbers {a : Fill α} {s : ColorStop α} (hs : s ∈ a.stops) :
    s.offset ∈ a.numbers := by
  cases a with
  | solid color => contradiction
  | linear stops start finish => exact List.mem_append_left _ (List.mem_map_of_mem hs)
  | radial stops center radius => exact List.mem_append_left _ (List.mem_map_of_mem hs)

lemma Path.forall_numbers {P : α → Prop} {p : Path α} :
    (∀ x ∈ p.numbers, P x) ↔
      (∀ c ∈ p.commands, ∀ x ∈ c.numbers, P x) ∧ P p.fillAlpha ∧ P p.strokeAlpha ∧ P p.miter ∧
        (∀ w ∈ p.strokeWidth, P w.value) ∧ ∀ a ∈ p.fill, ∀ x ∈ a.numbers, P x := by
  simp only [numbers, List.forall_mem_append, List.forall_mem_map, List.forall_mem_cons,
    List.mem_flatMap, Option.mem_toList]
  constructor
  · rintro ⟨⟨⟨hcommands, hfillAlpha, hstrokeAlpha, hmiter, -⟩, hwidth⟩, hfill⟩
    exact ⟨fun c hc x hx => hcommands x ⟨c, hc, hx⟩, hfillAlpha, hstrokeAlpha, hmiter, hwidth,
      fun a ha x hx => hfill x ⟨a, ha, hx⟩⟩
  · rintro ⟨hcommands, hfillAlpha, hstrokeAlpha, hmiter, hwidth, hfill⟩
    exact ⟨⟨⟨fun x ⟨c, hc, hx⟩ => hcommands c hc x hx, hfillAlpha, hstrokeAlpha, hmiter, nofun⟩,
      hwidth⟩, fun x ⟨a, ha, hx⟩ => hfill a ha x hx⟩

lemma Node.forall_numbersOf {P : α → Prop} {ns : List (Node α)} :
    (∀ x ∈ numbersOf ns, P x) ↔ ∀ n ∈ ns, ∀ x ∈ n.numbers, P x := by
  induction ns with
  | nil => simp [numbersOf]
  | cons n ns ih => rw [numbersOf, List.forall_mem_append, ih, List.forall_mem_cons]

/-! ### The numbers of a path at any depth -/

mutual

lemma Node.mem_numbers {p : Path α} {x : α} (hx : x ∈ p.numbers) :
    ∀ n : Node α, p ∈ n.paths → x ∈ n.numbers
  | .group _ _ children, hp => List.mem_append_right _ (Node.mem_numbersOf hx children hp)
  | .path q, hp => by
    obtain rfl := List.mem_singleton.mp hp
    exact hx

lemma Node.mem_numbersOf {p : Path α} {x : α} (hx : x ∈ p.numbers) :
    ∀ ns : List (Node α), p ∈ Node.pathsOf ns → x ∈ Node.numbersOf ns
  | [], hp => by contradiction
  | n :: ns, hp => by
    rcases List.mem_append.mp hp with hp | hp
    · exact List.mem_append_left _ (Node.mem_numbers hx n hp)
    · exact List.mem_append_right _ (Node.mem_numbersOf hx ns hp)

end

/-- The numbers of a path at any depth are among those of the graphic. -/
lemma Graphic.mem_numbers {g : Graphic α} {p : Path α} {x : α} (hp : p ∈ g.paths)
    (hx : x ∈ p.numbers) : x ∈ g.numbers :=
  List.mem_append_right _ (Node.mem_numbersOf hx g.nodes hp)

/-! ### Equality -/

section Equality

variable [BEq α] {f : α → α}

lemma list_map_beq {γ : Type} [BEq γ] {g : γ → γ} {l : List γ} (h : ∀ a ∈ l, (g a == a) = true) :
    (l.map g == l) = true := by
  induction l with
  | nil => rfl
  | cons a l ih =>
    rw [List.map_cons, List.cons_beq_cons, h a (by simp),
      ih fun b hb => h b (List.mem_cons_of_mem a hb)]
    rfl

lemma option_map_beq {γ : Type} [BEq γ] {g : γ → γ} {o : Option γ}
    (h : ∀ a ∈ o, (g a == a) = true) : (o.map g == o) = true := by
  cases o with
  | none => rfl
  | some a => exact h a rfl

lemma Point.map_beq {p : Point α} (hx : (f p.x == p.x) = true) (hy : (f p.y == p.y) = true) :
    (p.map f == p) = true := by
  change (f p.x == p.x && f p.y == p.y) = true
  rw [hx, hy]
  rfl

lemma Length.map_beq {l : Length α} (h : (f l.value == l.value) = true) :
    (l.map f == l) = true := by
  change (f l.value == l.value && l.unit == l.unit) = true
  rw [h, beq_self_eq_true]
  rfl

lemma Command.map_beq {c : Command α} (h : ∀ x ∈ c.numbers, (f x == x) = true) :
    (c.map f == c) = true := by
  cases c with
  | moveTo r p =>
    simp [numbers, operands] at h
    change (r == r && p.map f == p) = true
    simp [Point.map_beq h.1 h.2]
  | lineTo r p =>
    simp [numbers, operands] at h
    change (r == r && p.map f == p) = true
    simp [Point.map_beq h.1 h.2]
  | horizontalTo r x =>
    simp [numbers, operands] at h
    change (r == r && f x == x) = true
    simp [h]
  | verticalTo r y =>
    simp [numbers, operands] at h
    change (r == r && f y == y) = true
    simp [h]
  | cubicTo r c₁ c₂ p =>
    simp [numbers, operands] at h
    obtain ⟨hx₁, hy₁, hx₂, hy₂, hx, hy⟩ := h
    change (r == r && (c₁.map f == c₁ && (c₂.map f == c₂ && p.map f == p))) = true
    simp [Point.map_beq hx₁ hy₁, Point.map_beq hx₂ hy₂, Point.map_beq hx hy]
  | smoothCubicTo r c p =>
    simp [numbers, operands] at h
    obtain ⟨hx₁, hy₁, hx, hy⟩ := h
    change (r == r && (c.map f == c && p.map f == p)) = true
    simp [Point.map_beq hx₁ hy₁, Point.map_beq hx hy]
  | quadraticTo r c p =>
    simp [numbers, operands] at h
    obtain ⟨hx₁, hy₁, hx, hy⟩ := h
    change (r == r && (c.map f == c && p.map f == p)) = true
    simp [Point.map_beq hx₁ hy₁, Point.map_beq hx hy]
  | smoothQuadraticTo r p =>
    simp [numbers, operands] at h
    change (r == r && p.map f == p) = true
    simp [Point.map_beq h.1 h.2]
  | arcTo r a p =>
    simp [numbers, operands] at h
    obtain ⟨hx₁, hy₁, hrotation, hx, hy⟩ := h
    change (r == r && ((a.radii.map f == a.radii && (f a.rotation == a.rotation &&
      (a.largeArc == a.largeArc && a.sweep == a.sweep))) && p.map f == p)) = true
    simp [Point.map_beq hx₁ hy₁, Point.map_beq hx hy, hrotation]
  | close => rfl

lemma Transform.map_beq {t : Transform α} (h : ∀ x ∈ t.numbers, (f x == x) = true) :
    (t.map f == t) = true := by
  simp [numbers] at h
  obtain ⟨hrotation, hpivotX, hpivotY, hscaleX, hscaleY, hshiftX, hshiftY⟩ := h
  change (f t.rotation == t.rotation && (t.pivot.map f == t.pivot &&
    (t.scale.map f == t.scale && t.shift.map f == t.shift))) = true
  simp [hrotation, Point.map_beq hpivotX hpivotY, Point.map_beq hscaleX hscaleY,
    Point.map_beq hshiftX hshiftY]

lemma ColorStop.map_beq {s : ColorStop α} (h : (f s.offset == s.offset) = true) :
    (s.map f == s) = true := by
  change (f s.offset == s.offset && s.color == s.color) = true
  simp [h]

lemma Fill.map_beq {a : Fill α} (h : ∀ x ∈ a.numbers, (f x == x) = true) :
    (a.map f == a) = true := by
  have hstops {stops : List (ColorStop α)} (hs : ∀ s ∈ stops, (f s.offset == s.offset) = true) :
      (stops.map (ColorStop.map f) == stops) = true :=
    list_map_beq fun s hmem => ColorStop.map_beq (hs s hmem)
  cases a with
  | solid color => exact beq_self_eq_true color
  | linear stops start finish =>
    simp only [numbers, List.forall_mem_append, List.forall_mem_map, List.forall_mem_cons] at h
    obtain ⟨hoffsets, hx, hy, hx', hy', -⟩ := h
    change (stops.map (ColorStop.map f) == stops &&
      (start.map f == start && finish.map f == finish)) = true
    simp [hstops hoffsets, Point.map_beq hx hy, Point.map_beq hx' hy']
  | radial stops center radius =>
    simp only [numbers, List.forall_mem_append, List.forall_mem_map, List.forall_mem_cons] at h
    obtain ⟨hoffsets, hx, hy, hradius, -⟩ := h
    change (stops.map (ColorStop.map f) == stops &&
      (center.map f == center && f radius == radius)) = true
    simp [hstops hoffsets, Point.map_beq hx hy, hradius]

/-- A path under another name is equal to it just if the names are. -/
lemma Path.map_with_name_beq {p : Path α} (h : ∀ x ∈ p.numbers, (f x == x) = true)
    (name : Option String) : ({ p with name }.map f == p) = (name == p.name) := by
  obtain ⟨hcommands, hfillAlpha, hstrokeAlpha, hmiter, hwidth, hfill⟩ := forall_numbers.mp h
  have h₁ : (p.commands.map (Command.map f) == p.commands) = true :=
    list_map_beq fun c hc => Command.map_beq (hcommands c hc)
  have h₂ : (p.fill.map (Fill.map f) == p.fill) = true :=
    option_map_beq fun a ha => Fill.map_beq (hfill a ha)
  have h₃ : (p.strokeWidth.map (Length.map f) == p.strokeWidth) = true :=
    option_map_beq fun w hw => Length.map_beq (hwidth w hw)
  change (name == p.name && (p.commands.map (Command.map f) == p.commands &&
    (p.fill.map (Fill.map f) == p.fill && (f p.fillAlpha == p.fillAlpha &&
    (p.strokeColor == p.strokeColor && (f p.strokeAlpha == p.strokeAlpha &&
    (p.strokeWidth.map (Length.map f) == p.strokeWidth && (p.cap == p.cap &&
    (p.join == p.join && (f p.miter == p.miter && p.fillRule == p.fillRule)))))))))) =
    (name == p.name)
  simp [h₁, h₂, h₃, hfillAlpha, hstrokeAlpha, hmiter]

lemma Path.map_beq {p : Path α} (h : ∀ x ∈ p.numbers, (f x == x) = true) :
    (p.map f == p) = true :=
  (p.map_with_name_beq h p.name).trans (beq_self_eq_true p.name)

mutual

lemma Node.map_same {n : Node α} (h : ∀ x ∈ n.numbers, (f x == x) = true) :
    (n.map f).same n = true := by
  match n with
  | .group name transform children =>
    simp only [numbers, List.forall_mem_append] at h
    simp only [Node.map_group, Node.same, Transform.map_beq h.1, Node.map_sameList h.2,
      beq_self_eq_true, Bool.and_self]
  | .path p => simpa [Node.same] using Path.map_beq h

lemma Node.map_sameList {ns : List (Node α)} (h : ∀ x ∈ numbersOf ns, (f x == x) = true) :
    sameList (ns.map (Node.map f)) ns = true := by
  match ns with
  | [] => rfl
  | n :: ns =>
    simp only [numbersOf, List.forall_mem_append] at h
    simp only [List.map_cons, sameList, Node.map_same h.1, Node.map_sameList h.2, Bool.and_self]

end

/-- Two lists of nodes are equal if their nodes are. -/
lemma Node.sameList_map {γ : Type} (l : List γ) (a b : γ → Node α) :
    sameList (l.map a) (l.map b) = l.all fun x => (a x).same (b x) := by
  induction l with
  | nil => rfl
  | cons x l ih => rw [List.map_cons, List.map_cons, sameList, ih, List.all_cons]

/-- A graphic of other nodes is equal to it just if the nodes are. -/
lemma Graphic.map_with_nodes_beq {g : Graphic α} (h : ∀ x ∈ g.numbers, (f x == x) = true)
    (nodes : List (Node α)) : ({ g.map f with nodes } == g) = Node.sameList nodes g.nodes := by
  simp only [numbers, List.forall_mem_append, List.forall_mem_cons] at h
  obtain ⟨⟨hwidth, hheight, hx, hy, -⟩, -⟩ := h
  change (g.width.map f == g.width && g.height.map f == g.height && g.viewport.map f == g.viewport
    && Node.sameList nodes g.nodes) = Node.sameList nodes g.nodes
  simp [Length.map_beq hwidth, Length.map_beq hheight, Point.map_beq hx hy]

/-- A graphic is equal to the graphic of numbers that are equal to its own. -/
theorem Graphic.map_beq {g : Graphic α} (h : ∀ x ∈ g.numbers, (f x == x) = true) :
    (g.map f == g) = true :=
  (g.map_with_nodes_beq h _).trans (Node.map_sameList fun x hx => h x (List.mem_append_right _ hx))

end Equality

end Iconsmith
