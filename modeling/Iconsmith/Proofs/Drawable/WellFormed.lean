import Iconsmith.Proofs.Drawable.Expressible
import Iconsmith.Proofs.Drawable.Readings
import Iconsmith.Proofs.PathData.Grammar

/-!
# What is read is well formed

Whoever draws a graphic relies on its colors to be spelled out, on its opacities and on the places of its
color stops to be fractions, and on a viewport that has an extent. The reader sees to all of this at
every depth, whatever document and whatever table of colors it is given.
-/

namespace Iconsmith

open Drawable (IsColor)

/-- A fill in full colors, whose gradient has stops to blend. -/
def Fill.WellFormed : Fill Float → Prop
  | .solid color => IsColor color
  | .linear stops _ _ | .radial stops _ _ => AreStops stops

/-- A path in full colors with opacities between zero and one. -/
structure Path.WellFormed (p : Path Float) : Prop where
  fill : ∀ f ∈ p.fill, f.WellFormed
  fillAlpha : IsOpacity p.fillAlpha
  strokeColor : ∀ c ∈ p.strokeColor, IsColor c
  strokeAlpha : IsOpacity p.strokeAlpha
  strokeWidth : ∀ w ∈ p.strokeWidth, w.unit = none

/-- A graphic with an extent whose paths at any depth are well formed. -/
structure Graphic.WellFormed (g : Graphic Float) : Prop where
  viewport : 0 < g.viewport.x ∧ 0 < g.viewport.y
  defined : g.viewport.x.isNaN = false ∧ g.viewport.y.isNaN = false
  paths : ∀ p ∈ g.paths, p.WellFormed

lemma Double.isNaN_of_pos {x : Float} (h : 0 < x) : x.isNaN = false := by
  change x.toModel.unpack.isNaN = false
  rcases unpack_of_pos h with hx | ⟨m, e, hm, hx⟩ <;> rw [hx] <;> rfl

namespace Drawable

/-! ### Colors -/

section Colors

variable {t : Color.Table} {l ds : List Char} {c d : Char} {text color : String}

/-- An upper case hex digit. -/
def IsHex (c : Char) : Prop :=
  c.isDigit = true ∨ 'A' ≤ c ∧ c ≤ 'F'

lemma isHex_toUpper (h : Color.isHexDigit c = true) : IsHex c.toUpper := by
  simp only [Color.isHexDigit, Bool.or_eq_true, Bool.and_eq_true, decide_eq_true_eq] at h
  rcases h with (hdigit | hlower) | hupper
  · rw [toUpper_of_hex (.inl hdigit)]
    exact .inl hdigit
  · have hlow : 97 ≤ c.toNat := hlower.1
    have hhigh : c.toNat ≤ 102 := hlower.2
    have hletters : ∀ n ≤ 102, 97 ≤ n →
        'A' ≤ (Char.ofNat n).toUpper ∧ (Char.ofNat n).toUpper ≤ 'F' := by decide
    rw [← Char.ofNat_toNat c]
    exact .inr (hletters c.toNat hhigh hlow)
  · rw [toUpper_of_hex (.inr hupper)]
    exact .inr hupper

lemma isHex_expand? (hl : ∀ d ∈ l, IsHex d) (h : Color.expand? l = some ds) :
    ds.length = 8 ∧ ∀ d ∈ ds, IsHex d := by
  have hopaque : IsHex 'F' := .inr (by decide)
  unfold Color.expand? at h
  split at h
  all_goals first
    | contradiction
    | cases h
      simp_all

lemma isColor_ofLiteral (h : Color.ofLiteral text = .ok color) : IsColor color := by
  unfold Color.ofLiteral at h
  split at h
  · rename_i digits _
    split at h
    · rename_i ds hds
      cases h
      split at hds
      · rename_i hdigits
        have hupper : ∀ d ∈ digits.map Char.toUpper, IsHex d := by
          simp only [List.mem_map, forall_exists_index, and_imp, forall_apply_eq_imp_iff₂]
          exact fun d hd => isHex_toUpper (List.all_eq_true.mp hdigits d hd)
        rw [IsColor, String.toList_ofList]
        exact isHex_expand? hupper hds
      · contradiction
    · contradiction
  · contradiction

lemma isColor_framework? (h : Color.framework? text = some color) : IsColor color := by
  unfold Color.framework? at h
  split at h
  all_goals first
    | contradiction
    | cases h
      decide

lemma isColor_meaning (h : Color.meaning t text = .settled (.ok color)) : IsColor color := by
  unfold Color.meaning at h
  dsimp only at h
  split at h
  · exact isColor_ofLiteral (Color.Meaning.settled.inj h)
  · cases h
  · split at h
    · split at h
      · rename_i hname
        cases h
        exact isColor_framework? hname
      · cases h
    · split at h
      · split at h <;> cases h
      · cases h
  · cases h

/-- A chain of references ends in a color. -/
lemma isColor_follow {n : Nat} (h : Color.follow t n text = .ok color) : IsColor color := by
  induction n generalizing text with
  | zero =>
    unfold Color.follow at h
    split at h
    · rename_i hmeaning
      rw [h] at hmeaning
      exact isColor_meaning hmeaning
    · contradiction
  | succ n ih =>
    unfold Color.follow at h
    split at h
    · rename_i hmeaning
      rw [h] at hmeaning
      exact isColor_meaning hmeaning
    · exact ih h

lemma isColor_color (h : Drawable.color t text = .ok color) : IsColor color :=
  isColor_follow (mapError_eq_ok.mp h)

end Colors

/-! ### Styles -/

section Styles

variable {t : Color.Table} {n : Xml.Node} {name : String}

lemma isOpacity_of_isFraction {x : Float} (h : isFraction x = true) : IsOpacity x := by
  simpa [isFraction, IsOpacity] using h

lemma isOpacity_opacity {x : Float} (h : opacity n name = .ok x) : IsOpacity x := by
  obtain ⟨a, -, h⟩ := bind_eq_ok.mp h
  cases a with
  | none =>
    cases h
    decide +kernel
  | some y =>
    dsimp only at h
    split at h
    · rename_i hy
      cases h
      exact isOpacity_of_isFraction hy
    · contradiction

lemma isColor_stop {s : ColorStop Float} (h : stop t n = .ok s) : IsColor s.color := by
  obtain ⟨_, -, h⟩ := bind_eq_ok.mp h
  obtain ⟨_, -, h⟩ := bind_eq_ok.mp h
  obtain ⟨text, -, h⟩ := bind_eq_ok.mp h
  obtain ⟨color, hcolor, h⟩ := bind_eq_ok.mp h
  cases h
  exact isColor_color hcolor

lemma isColor_namedStops {ss : List (ColorStop Float)} (h : namedStops t n = .ok ss) :
    ∀ s ∈ ss, IsColor s.color := by
  refine forall_mem_of_mapM_eq_ok ?_ h
  intro a _ s hs
  obtain ⟨color, hcolor, hs⟩ := bind_eq_ok.mp hs
  cases hs
  exact isColor_color hcolor

/-- A list of colored stops that passes both checks of a gradient. -/
lemma areStops_of_find? {ss : List (ColorStop Float)} (hcolor : ∀ s ∈ ss, IsColor s.color)
    (htwo : ¬ ss.length < 2) (hfind : ss.find? (!isFraction ·.offset) = none) : AreStops ss := by
  refine ⟨by omega, ?_, hcolor⟩
  intro s hs
  have hfraction := List.find?_eq_none.mp hfind s hs
  exact isOpacity_of_isFraction (by simpa using hfraction)

lemma areStops_stops {ss : List (ColorStop Float)} (h : stops t n = .ok ss) : AreStops ss := by
  unfold stops at h
  dsimp only at h
  -- The stops are read in one of two ways, and then checked alike.
  split at h
  · obtain ⟨ss', hread, h⟩ := bind_eq_ok.mp h
    split at h
    · cases h
    · split at h
      · cases h
      · rename_i htwo _ hfind
        cases h
        exact areStops_of_find? (isColor_namedStops hread) htwo hfind
  · obtain ⟨ss', hread, h⟩ := bind_eq_ok.mp h
    split at h
    · cases h
    · split at h
      · cases h
      · rename_i htwo _ hfind
        cases h
        have hcolor := forall_mem_of_mapM_eq_ok (fun _ _ _ => isColor_stop) hread
        exact areStops_of_find? hcolor htwo hfind

lemma wellFormed_gradient {a : Fill Float} (h : gradient t n = .ok a) : a.WellFormed := by
  obtain ⟨ss, hstops, h⟩ := bind_eq_ok.mp h
  have hss := areStops_stops hstops
  split at h
  · obtain ⟨start, -, h⟩ := bind_eq_ok.mp h
    obtain ⟨finish, -, h⟩ := bind_eq_ok.mp h
    cases h
    exact hss
  · obtain ⟨r, -, h⟩ := bind_eq_ok.mp h
    obtain ⟨center, -, h⟩ := bind_eq_ok.mp h
    cases h
    exact hss
  · contradiction
  · contradiction

lemma wellFormed_fill? {a : Fill Float} (h : fill? t n = .ok (some a)) : a.WellFormed := by
  unfold fill? at h
  split at h
  · obtain ⟨a', ha', h⟩ := bind_eq_ok.mp h
    cases h
    exact wellFormed_gradient ha'
  · split at h
    · obtain ⟨color, hcolor, h⟩ := bind_eq_ok.mp h
      cases h
      exact isColor_color hcolor
    · cases h

lemma isColor_strokeColor? {color : String} (h : strokeColor? t n = .ok (some color)) :
    IsColor color := by
  unfold strokeColor? at h
  split at h
  · contradiction
  · split at h
    · obtain ⟨color', hcolor, h⟩ := bind_eq_ok.mp h
      cases h
      exact isColor_color hcolor
    · cases h

lemma wellFormed_path {p : Path Float} (h : path t n = .ok p) : p.WellFormed := by
  have hreads := pathReads_of_path h
  constructor
  case fill =>
    intro a ha
    exact wellFormed_fill? (hreads.fill.trans (congrArg _ ha))
  case fillAlpha => exact isOpacity_opacity hreads.fillAlpha
  case strokeColor =>
    intro c hc
    exact isColor_strokeColor? (hreads.strokeColor.trans (congrArg _ hc))
  case strokeAlpha => exact isOpacity_opacity hreads.strokeAlpha
  case strokeWidth =>
    obtain ⟨width, -, hwidth⟩ := hreads.strokeWidth
    intro w hw
    rw [hwidth] at hw
    obtain ⟨x, -, rfl⟩ := Option.mem_map.mp hw
    rfl

end Styles

/-! ### Trees -/

section Trees

variable {t : Color.Table}

/-- All paths below the elements of a list are well formed. -/
lemma wellFormed_nodes {ns : List Xml.Node} {ms : List (Node Float)}
    (h : (nodes t ns).result = .ok ms) : ∀ p ∈ Node.pathsOf ms, p.WellFormed := by
  have hpaths := (forall₂_path_nodes h).flip.imp fun p e hp => And.intro (wellFormed_path hp) hp
  exact ((List.forall₂_and_left _ _).mp hpaths).1

lemma viewport_pos {n : Xml.Node} {width height : Option (Length Float)} {size : Point Float}
    (h : viewport n width height = .ok size) : 0 < size.x ∧ 0 < size.y := by
  obtain ⟨_, -, h⟩ := bind_eq_ok.mp h
  obtain ⟨w, -, h⟩ := bind_eq_ok.mp h
  obtain ⟨_, -, h⟩ := bind_eq_ok.mp h
  obtain ⟨ht, -, h⟩ := bind_eq_ok.mp h
  split at h
  · rename_i hpos
    cases h
    simpa using hpos
  · contradiction

/-- Every graphic that is read is well formed. -/
theorem wellFormed_of_read {text : String} {g : Graphic Float} (h : (read t text).result = .ok g) :
    g.WellFormed := by
  obtain ⟨root, -, h⟩ := Reading.bind_result_eq_ok.mp h
  obtain ⟨width, -, h⟩ := Reading.bind_result_eq_ok.mp h
  obtain ⟨height, -, h⟩ := Reading.bind_result_eq_ok.mp h
  obtain ⟨size, hsize, h⟩ := Reading.bind_result_eq_ok.mp h
  obtain ⟨ms, hms, h⟩ := Reading.bind_result_eq_ok.mp h
  have hpos := viewport_pos hsize
  cases h
  exact ⟨hpos, ⟨Double.isNaN_of_pos hpos.1, Double.isNaN_of_pos hpos.2⟩, wellFormed_nodes hms⟩

end Trees

/-- Colors of which one is a reference to another. -/
def linkedColors : Color.Table :=
  .ofList [("base", "#f00"), ("accent", "@color/base")]

/-- A document with a gradient inside a group, whose colors are a reference and a short literal. -/
def linkedText : String :=
  "<vector xmlns:a='http://schemas.android.com/apk/res/android' " ++
  "xmlns:b='http://schemas.android.com/aapt' a:viewportWidth='8' a:viewportHeight='8'>" ++
  "<group><path a:pathData='M0,0h8'><b:attr name='android:fillColor'>" ++
  "<gradient a:startColor='@color/accent' a:endColor='#fff'/>" ++
  "</b:attr></path></group></vector>"

/-- The characters of a text in two parts are those of the parts. -/
lemma toList_append_of_eq {s t : String} {cs ds : List Char} (hs : s.toList = cs)
    (ht : t.toList = ds) : (s ++ t).toList = cs ++ ds := by
  rw [String.toList_append, hs, ht]

/-- Such a document is read, and what is read has its path. -/
theorem wellFormed_linked :
    ∃ g, (read linkedColors linkedText).result = .ok g ∧ g.pathCount = 1 ∧ g.WellFormed := by
  have hcount : (read linkedColors linkedText).result.toOption.map Graphic.pathCount = some 1 := by
    -- the characters of a long text are taken from its literals, where they need not be computed
    have htext : linkedText.toList = _ :=
      toList_append_of_eq (toList_append_of_eq (toList_append_of_eq (toList_append_of_eq
        String.toList_ofList String.toList_ofList) String.toList_ofList) String.toList_ofList)
        String.toList_ofList
    rw [read, Xml.Document.readRoot, Xml.Document.read?, Xml.Document.tokens?, htext]
    decide +kernel
  cases hread : (read linkedColors linkedText).result with
  | error e =>
    rw [hread] at hcount
    contradiction
  | ok g =>
    rw [hread] at hcount
    exact ⟨g, rfl, Option.some.inj hcount, wellFormed_of_read hread⟩

end Drawable

end Iconsmith
