import Iconsmith.Drawable.Reader
import Iconsmith.Proofs.Graphic.Normal
import Iconsmith.Proofs.Results

/-!
# What a drawable is read from

Where a document is read, each part of the graphic is what the readers of its parts give: the paths are
read one by one from the elements of paths, and each field of a path from the attributes of its element.
-/

namespace Iconsmith.Drawable

variable {t : Color.Table}

/-! ### Attributes -/

section Attributes

variable {n : Xml.Node} {name s : String} {r : Float}

lemma number?_eq_some (h : number? n name = .ok (some r)) :
    ∃ s, attribute? n name = some s ∧ Numeral.floatOf? (Text.trim s.toList) = some r := by
  unfold number? at h
  split at h
  · cases h
  · rename_i s hs
    split at h
    · rename_i hr
      cases h
      exact ⟨s, hs, hr⟩
    · cases h

lemma require_eq_ok {α : Type} {o : Option α} {a : α} (h : require n name o = .ok a) :
    o = some a := by
  cases o with
  | none => cases h
  | some b =>
    cases h
    rfl

end Attributes

/-! ### Paths -/

/-- The fields of a path as they are read from an element. -/
structure PathReads (t : Color.Table) (n : Xml.Node) (p : Path Float) : Prop where
  name : p.name = attribute? n "name"
  commands : ∃ data, attribute? n "pathData" = some data ∧ PathData.read data = .ok p.commands
  fill : fill? t n = .ok p.fill
  strokeColor : strokeColor? t n = .ok p.strokeColor
  fillAlpha : opacity n "fillAlpha" = .ok p.fillAlpha
  strokeAlpha : opacity n "strokeAlpha" = .ok p.strokeAlpha
  strokeWidth : ∃ w, number? n "strokeWidth" = .ok w ∧ p.strokeWidth = w.map fun x => { value := x }
  miter : number n "strokeMiterLimit" Path.defaultMiter = .ok p.miter
  cap : choice n "strokeLineCap" LineCap.ofName? .butt = .ok p.cap
  join : choice n "strokeLineJoin" LineJoin.ofName? .miter = .ok p.join
  fillRule : choice n "fillType" FillRule.ofName? .nonZero = .ok p.fillRule

lemma pathReads_of_path {n : Xml.Node} {p : Path Float} (h : path t n = .ok p) :
    PathReads t n p := by
  obtain ⟨data, hdata, h⟩ := bind_eq_ok.mp h
  obtain ⟨commands, hcommands, h⟩ := bind_eq_ok.mp h
  obtain ⟨fill, hfill, h⟩ := bind_eq_ok.mp h
  obtain ⟨strokeColor, hstrokeColor, h⟩ := bind_eq_ok.mp h
  obtain ⟨fillAlpha, hfillAlpha, h⟩ := bind_eq_ok.mp h
  obtain ⟨strokeAlpha, hstrokeAlpha, h⟩ := bind_eq_ok.mp h
  obtain ⟨strokeWidth, hstrokeWidth, h⟩ := bind_eq_ok.mp h
  obtain ⟨miter, hmiter, h⟩ := bind_eq_ok.mp h
  obtain ⟨cap, hcap, h⟩ := bind_eq_ok.mp h
  obtain ⟨join, hjoin, h⟩ := bind_eq_ok.mp h
  obtain ⟨fillRule, hfillRule, h⟩ := bind_eq_ok.mp h
  cases h
  exact {
    name := rfl
    commands := ⟨data, require_eq_ok hdata, mapError_eq_ok.mp hcommands⟩
    fill := hfill
    strokeColor := hstrokeColor
    fillAlpha := hfillAlpha
    strokeAlpha := hstrokeAlpha
    strokeWidth := ⟨strokeWidth, hstrokeWidth, rfl⟩
    miter := hmiter
    cap := hcap
    join := hjoin
    fillRule := hfillRule }

/-! ### Readings -/

section Readings

variable {α β : Type}

lemma Reading.bind_result_eq_ok {r : Reading α} {f : α → Reading β} {b : β} :
    (r >>= f).result = .ok b ↔ ∃ a, r.result = .ok a ∧ (f a).result = .ok b := by
  obtain ⟨notices, result⟩ := r
  cases result with
  | error e =>
    constructor
    · rintro ⟨⟩
    · rintro ⟨_, ⟨⟩, _⟩
  | ok a =>
    constructor
    · exact fun h => ⟨a, rfl, h⟩
    · rintro ⟨_, ⟨⟩, h⟩
      exact h

lemma Reading.lift_result (x : Except Error α) : (liftM x : Reading α).result = x :=
  rfl

end Readings

/-! ### The elements of paths -/

mutual

/-- The elements in a node that are read as paths, in the order of the document. -/
def pathElements : Xml.Node → List Xml.Node
  | .element name attributes children =>
    if name.name = "group" then pathElementsOf children
    else if name.name = "path" then [.element name attributes children]
    else []
  | .text _ | .remark => []

/-- The same for a list of nodes. -/
def pathElementsOf : List Xml.Node → List Xml.Node
  | [] => []
  | n :: ns => pathElements n ++ pathElementsOf ns

end

mutual

lemma forall₂_path_node? {n : Xml.Node} {m : Option (Node Float)} (h : (node? t n).result = .ok m) :
    List.Forall₂ (fun e p => path t e = .ok p) (pathElements n) (Node.pathsOf m.toList) := by
  match n with
  | .element name attributes children =>
    rw [node?] at h
    rw [pathElements]
    split at h
    · rename_i hgroup
      obtain ⟨transform, -, h⟩ := Reading.bind_result_eq_ok.mp h
      obtain ⟨ms, hms, h⟩ := Reading.bind_result_eq_ok.mp h
      cases h
      rw [if_pos hgroup, Option.toList_some, Node.pathsOf, Node.pathsOf, List.append_nil]
      exact forall₂_path_nodes hms
    · rename_i hgroup
      rw [if_neg hgroup]
      split at h
      · rename_i hpath
        obtain ⟨p, hp, h⟩ := Reading.bind_result_eq_ok.mp h
        rw [Reading.lift_result] at hp
        cases h
        rw [if_pos hpath]
        exact .cons hp .nil
      · rename_i hpath
        obtain ⟨_, -, h⟩ := Reading.bind_result_eq_ok.mp h
        cases h
        rw [if_neg hpath]
        exact .nil
  | .text _ =>
    cases h
    exact .nil
  | .remark =>
    cases h
    exact .nil

/-- Each path is read from an element, in the order of the document. -/
lemma forall₂_path_nodes {ns : List Xml.Node} {ms : List (Node Float)}
    (h : (nodes t ns).result = .ok ms) :
    List.Forall₂ (fun e p => path t e = .ok p) (pathElementsOf ns) (Node.pathsOf ms) := by
  match ns with
  | [] =>
    cases h
    exact .nil
  | n :: ns =>
    rw [nodes] at h
    obtain ⟨first, hfirst, h⟩ := Reading.bind_result_eq_ok.mp h
    obtain ⟨rest, hrest, h⟩ := Reading.bind_result_eq_ok.mp h
    cases h
    rw [pathElementsOf, Node.pathsOf_append]
    exact List.rel_append (forall₂_path_node? hfirst) (forall₂_path_nodes hrest)

end

lemma forall₂_path_read {text : String} {g : Graphic Float} (h : (read t text).result = .ok g) :
    ∃ root, Xml.Document.readRoot "vector" text = .ok root ∧
      List.Forall₂ (fun e p => path t e = .ok p) (pathElementsOf root.children) g.paths := by
  obtain ⟨root, hroot, h⟩ := Reading.bind_result_eq_ok.mp h
  obtain ⟨width, -, h⟩ := Reading.bind_result_eq_ok.mp h
  obtain ⟨height, -, h⟩ := Reading.bind_result_eq_ok.mp h
  obtain ⟨size, -, h⟩ := Reading.bind_result_eq_ok.mp h
  obtain ⟨ms, hms, h⟩ := Reading.bind_result_eq_ok.mp h
  cases h
  exact ⟨root, mapError_eq_ok.mp hroot, forall₂_path_nodes hms⟩

end Iconsmith.Drawable
