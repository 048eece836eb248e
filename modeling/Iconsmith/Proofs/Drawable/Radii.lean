import Iconsmith.Proofs.Decimal.Undefined
import Iconsmith.Proofs.Drawable.WellFormed

/-!
# Radii of gradients

The paths of a graphic are read from the elements of its document one by one. The radius of a radial
gradient is checked not to be zero or less. So it is positive, unless it is the undefined number, which
passes the check and is read just where the document spells it.
-/

namespace Iconsmith

/-- The radius of the radial gradient that a path is filled with. -/
def Path.radius? {α : Type} (p : Path α) : Option α :=
  match p.fill with
  | some (.radial _ _ r) => some r
  | _ => none

namespace Drawable

open Numeral (IsUndefined)

variable {t : Color.Table}

/-! ### The radius of a path -/

/-- The text of the radius of the gradient that a path is filled with. -/
def radiusText? (e : Xml.Node) : Option String :=
  (inlineGradient? e "android:fillColor").bind (attribute? · "gradientRadius")

/-- The radius of a path, if it has one, is what the text in its element denotes. It is positive, unless
the text spells the undefined number. -/
def RadiusReads (e : Xml.Node) (p : Path Float) : Prop :=
  ∀ r, p.radius? = some r → ∃ s, radiusText? e = some s ∧
    Numeral.floatOf? (Text.trim s.toList) = some r ∧
    (0 < r ↔ ¬ IsUndefined (Text.trim s.toList)) ∧
    (r.isNaN = true ↔ IsUndefined (Text.trim s.toList))

section Radius

variable {n : Xml.Node} {r : Float}

/-- The check of a radius leaves positive numbers and the undefined one. -/
lemma radius_eq_ok (h : radius n = .ok r) :
    ∃ s, attribute? n "gradientRadius" = some s ∧
      Numeral.floatOf? (Text.trim s.toList) = some r ∧ (0 < r ∨ r.isNaN = true) := by
  obtain ⟨a, ha, h⟩ := bind_eq_ok.mp h
  obtain ⟨r', hr', hchecked⟩ := bind_eq_ok.mp h
  obtain rfl := require_eq_ok hr'
  obtain ⟨s, hs, hvalue⟩ := number?_eq_some ha
  split at hchecked
  · cases hchecked
  · rename_i hcheck
    cases hchecked
    exact ⟨s, hs, hvalue, Double.pos_or_isNaN_of_not_le_zero hcheck⟩

lemma radius_of_gradient {stops : List (ColorStop Float)} {center : Point Float}
    (h : gradient t n = .ok (.radial stops center r)) : radius n = .ok r := by
  obtain ⟨ss, -, h⟩ := bind_eq_ok.mp h
  split at h
  · obtain ⟨start, -, h⟩ := bind_eq_ok.mp h
    obtain ⟨finish, -, h⟩ := bind_eq_ok.mp h
    cases h
  · obtain ⟨r', hr, h⟩ := bind_eq_ok.mp h
    obtain ⟨center, -, h⟩ := bind_eq_ok.mp h
    cases h
    exact hr
  · cases h
  · cases h

lemma radius_of_fill? {stops : List (ColorStop Float)} {center : Point Float}
    (h : fill? t n = .ok (some (.radial stops center r))) :
    ∃ a, inlineGradient? n "android:fillColor" = some a ∧ radius a = .ok r := by
  unfold fill? at h
  split at h
  · rename_i a ha
    obtain ⟨fill, hfill, h⟩ := bind_eq_ok.mp h
    cases h
    exact ⟨a, ha, radius_of_gradient hfill⟩
  · split at h
    · obtain ⟨color, -, h⟩ := bind_eq_ok.mp h
      cases h
    · cases h

lemma radiusReads_of_path {p : Path Float} (h : path t n = .ok p) : RadiusReads n p := by
  intro r hr
  have hfill := (pathReads_of_path h).fill
  unfold Path.radius? at hr
  split at hr
  · rename_i hradial
    obtain rfl := Option.some.inj hr
    rw [hradial] at hfill
    obtain ⟨a, ha, hradius⟩ := radius_of_fill? hfill
    obtain ⟨s, hs, hvalue, hcases⟩ := radius_eq_ok hradius
    have hundefined := Numeral.isNaN_floatOf?_iff hvalue
    refine ⟨s, by rw [radiusText?, ha, Option.bind_some, hs], hvalue, ?_, hundefined⟩
    rw [← hundefined, Bool.not_eq_true]
    constructor
    · exact Double.isNaN_of_pos
    · intro hdefined
      rw [hdefined] at hcases
      exact hcases.resolve_right nofun
  · contradiction

end Radius

/-- Whatever the document and the table of colors, each path of the graphic that is read comes from an
element, in the order of the document. If it is filled with a radial gradient, the radius is positive or
spelled to be undefined. -/
theorem radii_of_read {text : String} {g : Graphic Float} (h : (read t text).result = .ok g) :
    ∃ root, Xml.Document.readRoot "vector" text = .ok root ∧
      List.Forall₂ RadiusReads (pathElementsOf root.children) g.paths := by
  obtain ⟨root, hroot, hpaths⟩ := forall₂_path_read h
  exact ⟨root, hroot, hpaths.imp fun e p hp => radiusReads_of_path hp⟩

/-- A document of two radial gradients, the first below two groups and the second of undefined radius. -/
def radialText : String :=
  "<vector xmlns:a='http://schemas.android.com/apk/res/android' " ++
  "xmlns:b='http://schemas.android.com/aapt' a:viewportWidth='8' a:viewportHeight='8'>" ++
  "<group><group><path a:pathData='M0,0h8'><b:attr name='android:fillColor'>" ++
  "<gradient a:type='radial' a:gradientRadius=' +25e-1 ' a:startColor='#f00' a:endColor='#fff'/>" ++
  "</b:attr></path></group></group><path a:pathData='M0,0v8'><b:attr name='android:fillColor'>" ++
  "<gradient a:type='radial' a:gradientRadius='-nAn' a:startColor='#f00' a:endColor='#fff'/>" ++
  "</b:attr></path></vector>"

/-- Whether the radii of a graphic are positive, and whether they are undefined. -/
def radiusSigns (g : Graphic Float) : List (Option (Bool × Bool)) :=
  g.paths.map fun p => p.radius?.map fun r => (decide (0 < r), r.isNaN)

lemma exists_read_radialText : ∃ g, (read .empty radialText).result = .ok g ∧
    radiusSigns g = [some (true, false), some (false, true)] := by
  have hsigns : (read .empty radialText).result.toOption.map radiusSigns =
      some [some (true, false), some (false, true)] := by
    -- the characters of a long text are taken from its literals, where they need not be computed
    have htext : radialText.toList = _ :=
      toList_append_of_eq (toList_append_of_eq (toList_append_of_eq (toList_append_of_eq
        (toList_append_of_eq (toList_append_of_eq String.toList_ofList String.toList_ofList)
        String.toList_ofList) String.toList_ofList) String.toList_ofList) String.toList_ofList)
        String.toList_ofList
    rw [read, Xml.Document.readRoot, Xml.Document.read?, Xml.Document.tokens?, htext]
    decide +kernel
  obtain ⟨g, hg, hsigns⟩ := Option.map_eq_some_iff.mp hsigns
  exact ⟨g, toOption_eq_some.mp hg, hsigns⟩

theorem radii_of_radialText :
    ∃ g, (read .empty radialText).result = .ok g ∧ g.pathCount = 2 ∧
      ∃ root, Xml.Document.readRoot "vector" radialText = .ok root ∧
        List.Forall₂ RadiusReads (pathElementsOf root.children) g.paths := by
  obtain ⟨g, hread, hsigns⟩ := exists_read_radialText
  have hcount := congrArg List.length hsigns
  rw [radiusSigns, List.length_map] at hcount
  exact ⟨g, hread, hcount, radii_of_read hread⟩

/-- An undefined radius passes the check, though it is not positive. -/
theorem undefined_radius_of_radialText :
    ∃ g, (read .empty radialText).result = .ok g ∧
      ∃ p ∈ g.paths, ∃ r, p.radius? = some r ∧ ¬ 0 < r ∧ r.isNaN = true := by
  obtain ⟨g, hread, hsigns⟩ := exists_read_radialText
  have hmem : some (false, true) ∈ radiusSigns g := by
    rw [hsigns]
    decide
  obtain ⟨p, hp, hsign⟩ := List.mem_map.mp hmem
  obtain ⟨r, hr, hflags⟩ := Option.map_eq_some_iff.mp hsign
  obtain ⟨hpositive, hundefined⟩ := Prod.mk.inj hflags
  exact ⟨g, hread, p, hp, r, hr, of_decide_eq_false hpositive, hundefined⟩

end Drawable

end Iconsmith
