import Iconsmith.Proofs.Graphic.Contexts
import Iconsmith.Proofs.Shape.Finite
import Iconsmith.Proofs.Source.Assets

/-!
# Fills of previews

A preview is filled just if all paths of the graphic, at any depth, are filled with the same color at the
same opacity. The search compares each path with the first one only. That is enough, since opacities
that are equal as numbers cannot be told apart, not even by what is written for them.
-/

namespace Iconsmith.Shape

open Double (unsigned)
open Source (block indent linesOf)

/-! ### Paths that agree -/

/-- Two paths are filled with the same color at the same opacity. -/
def AgreeOnFill (p q : Path Float) : Prop :=
  ∃ color, p.fill = some (.solid color) ∧ q.fill = some (.solid color)
    ∧ (p.fillAlpha == q.fillAlpha) = true

/-- There are paths, and all of them agree on their fill, whatever groups they are in. -/
structure SharesFill (g : Graphic Float) : Prop where
  exists_path : ∃ p, .path p ∈ g.allNodes
  agree : ∀ p q, .path p ∈ g.allNodes → .path q ∈ g.allNodes → AgreeOnFill p q

section Shared

variable {ps qs : List (Path Float)} {p : Path Float} {color : String} {alpha : Float}

lemma solidFill?_eq_some :
    solidFill? p = some (color, alpha) ↔ p.fill = some (.solid color) ∧ p.fillAlpha = alpha := by
  unfold solidFill?
  split
  · rename_i c hc
    simp [hc]
  · rename_i hnone
    constructor
    · intro h
      contradiction
    · rintro ⟨hfill, -⟩
      exact absurd hfill (hnone color)

lemma isFilledWith_iff :
    isFilledWith color alpha p = true
      ↔ p.fill = some (.solid color) ∧ (p.fillAlpha == alpha) = true := by
  unfold isFilledWith
  cases hsolid : solidFill? p with
  | none =>
    constructor
    · intro h
      contradiction
    · rintro ⟨hfill, -⟩
      rw [solidFill?_eq_some.mpr ⟨hfill, rfl⟩] at hsolid
      contradiction
  | some fill =>
    obtain ⟨hfill, halpha⟩ := solidFill?_eq_some.mp hsolid
    simp [hfill, halpha]

lemma sharedFill?_cons (p : Path Float) (ps : List (Path Float)) :
    sharedFill? (p :: ps) = some (color, alpha)
      ↔ p.fill = some (.solid color) ∧ p.fillAlpha = alpha
        ∧ ∀ q ∈ ps, q.fill = some (.solid color) ∧ (q.fillAlpha == alpha) = true := by
  have hall (c : String) (a : Float) : ps.all (isFilledWith c a) = true
      ↔ ∀ q ∈ ps, q.fill = some (.solid c) ∧ (q.fillAlpha == a) = true := by
    rw [List.all_eq_true]
    exact forall₂_congr fun q _ => isFilledWith_iff
  rw [← and_assoc, ← solidFill?_eq_some, ← hall]
  cases hsolid : solidFill? p with
  | none => simp [sharedFill?, hsolid]
  | some fill =>
    obtain ⟨c, a⟩ := fill
    have hshared : sharedFill? (p :: ps)
        = if ps.all (isFilledWith c a) then some (c, a) else none := by
      rw [sharedFill?, hsolid]
      rfl
    rw [hshared, Option.ite_none_right_eq_some]
    constructor
    · rintro ⟨h, ⟨⟩⟩
      exact ⟨rfl, h⟩
    · rintro ⟨⟨⟩, h⟩
      exact ⟨h, rfl⟩

/-- What is compared with the first path only holds of all of them, since no opacity is undefined. -/
lemma fills_of_sharedFill? (hps : ∀ p ∈ ps, p.fillAlpha.isFinite = true)
    (h : sharedFill? ps = some (color, alpha)) :
    ∀ p ∈ ps, p.fill = some (.solid color) ∧ unsigned p.fillAlpha = unsigned alpha := by
  cases ps with
  | nil => contradiction
  | cons p ps =>
    obtain ⟨hfill, rfl, hrest⟩ := (sharedFill?_cons p ps).mp h
    have hp := hps p List.mem_cons_self
    intro q hq
    rcases List.mem_cons.mp hq with rfl | hq
    · exact ⟨hfill, rfl⟩
    · obtain ⟨hfill, halpha⟩ := hrest q hq
      exact ⟨hfill, Double.unsigned_eq_of_beq hp halpha⟩

lemma exists_alpha_of_sharedFill? (h : sharedFill? ps = some (color, alpha)) :
    ∃ p ∈ ps, p.fillAlpha = alpha := by
  cases ps with
  | nil => contradiction
  | cons p ps => exact ⟨p, List.mem_cons_self, ((sharedFill?_cons p ps).mp h).2.1⟩

/-- Paths that agree two by two share a fill. -/
lemma exists_sharedFill? (hne : ps ≠ []) (hagree : ∀ p ∈ ps, ∀ q ∈ ps, AgreeOnFill p q) :
    ∃ color alpha, sharedFill? ps = some (color, alpha) := by
  cases ps with
  | nil => contradiction
  | cons p ps =>
    have hp := List.mem_cons_self (a := p) (l := ps)
    obtain ⟨color, hfill, -, -⟩ := hagree p hp p hp
    refine ⟨color, p.fillAlpha, (sharedFill?_cons p ps).mpr ⟨hfill, rfl, ?_⟩⟩
    intro q hq
    obtain ⟨c, hq, hpc, halpha⟩ := hagree q (List.mem_cons_of_mem p hq) p hp
    obtain rfl : c = color := by simpa [hfill, eq_comm] using hpc
    exact ⟨hq, halpha⟩

lemma agree_of_sharedFill? (hps : ∀ p ∈ ps, p.fillAlpha.isFinite = true)
    (h : sharedFill? ps = some (color, alpha)) : ∀ p ∈ ps, ∀ q ∈ ps, AgreeOnFill p q := by
  have hfills := fills_of_sharedFill? hps h
  intro p hp q hq
  obtain ⟨hp', halpha⟩ := hfills p hp
  obtain ⟨hq', halpha'⟩ := hfills q hq
  have hequal := Double.beq_iff_unsigned_eq (hps p hp) (hps q hq)
  exact ⟨color, hp', hq', hequal.mpr (halpha.trans halpha'.symm)⟩

end Shared

/-! ### Graphics whose paths agree -/

section Graphics

variable {g : Graphic Float} {p : Path Float}

lemma sharesFill_iff :
    SharesFill g ↔ g.paths ≠ [] ∧ ∀ p ∈ g.paths, ∀ q ∈ g.paths, AgreeOnFill p q := by
  constructor
  · rintro ⟨⟨p, hp⟩, hagree⟩
    refine ⟨List.ne_nil_of_mem (Graphic.mem_paths_iff.mpr hp), fun p hp q hq => ?_⟩
    exact hagree p q (Graphic.mem_paths_iff.mp hp) (Graphic.mem_paths_iff.mp hq)
  · rintro ⟨hne, hagree⟩
    obtain ⟨p, hp⟩ := List.exists_mem_of_ne_nil _ hne
    refine ⟨⟨p, Graphic.mem_paths_iff.mp hp⟩, fun p q hp hq => ?_⟩
    exact hagree p (Graphic.mem_paths_iff.mpr hp) q (Graphic.mem_paths_iff.mpr hq)

lemma sharesFill_congr {g' : Graphic Float} (h : g'.paths.Perm g.paths) :
    SharesFill g' ↔ SharesFill g := by
  rw [sharesFill_iff, sharesFill_iff]
  simp only [ne_eq, ← List.length_eq_zero_iff, h.length_eq, h.mem_iff]

end Graphics

/-! ### Lines that fill -/

/-- Whether a line fills what stands before it. -/
def isFill (line : String) : Bool :=
  (Text.dropLeading? ".fill(".toList (Text.trimStart line.toList)).isSome

/-- The lines of a text that fill something. -/
def fillLines (text : String) : List String :=
  (linesOf text).filter isFill

/-- The line of a preview that fills it. -/
def fillLine (color : String) (alpha : Float) : String :=
  "            .fill(" ++ colorCall color alpha ++ ")"

section Lines

variable {line : String} {xs : List String}

lemma isFill_append {lead : String} {c : Char} (rest : String) (hc : c ≠ '.')
    (h : (Text.trimStart lead.toList).head? = some c) : isFill (lead ++ rest) = false := by
  have hhead := Source.head?_trimStart_append rest h
  obtain ⟨s, hs⟩ : ∃ s, Text.trimStart (lead ++ rest).toList = c :: s :=
    List.head?_eq_some_iff.mp hhead
  rw [isFill, hs, Option.isSome_eq_false_iff, Option.isNone_iff_eq_none]
  exact if_neg hc.symm

/-- What begins with a name is no modifier. -/
lemma isFill_word {name : String} (h : Naming.IsWord name) (rest : String) :
    isFill (name ++ rest) = false := by
  obtain ⟨c, s, hname⟩ := List.exists_cons_of_ne_nil h.1
  have hc : Naming.isSegmentChar c = true := h.2 c (by simp [hname])
  refine isFill_append rest (c := c) ?_ ?_
  · rintro rfl
    contradiction
  · rw [hname, Source.trimStart_cons (Naming.isBlank_eq_false hc)]
    rfl

lemma isFill_indented (line : String) : isFill ("    " ++ line) = isFill line := by
  have htrim : Text.trimStart ("    " ++ line).toList = Text.trimStart line.toList := by
    have hblank : Text.isBlank ' ' = true := by decide
    simp [Text.trimStart, hblank]
  rw [isFill, htrim, isFill]

lemma filter_isFill_indent (xs : List String) :
    (indent xs).filter isFill = indent (xs.filter isFill) := by
  rw [indent, indent, List.filter_map]
  congr 1
  refine List.filter_congr fun x _ => ?_
  dsimp only [Function.comp]
  split_ifs
  · rfl
  · exact isFill_indented x

lemma filter_isFill_block {head : String} (hhead : isFill (head ++ " \x7b") = false)
    (xs : List String) : (block head xs).filter isFill = indent (xs.filter isFill) := by
  have hend : ["\x7d"].filter isFill = [] := by decide
  rw [block, List.cons_append, List.filter_cons_of_neg (by simp [hhead]), List.filter_append, hend,
    List.append_nil, filter_isFill_indent]

end Lines

/-! ### The lines of an icon that fill -/

section Icons

variable {settings : Source.Settings} {group : Group} {symbol : String} {g : Graphic Float}
  {f : Source.File}

lemma filter_isFill_declaration (symbol : String) (g : Graphic Float) :
    (declaration symbol g).filter isFill = [] := by
  have hhead : isFill ("struct " ++ symbol ++ ": Shape" ++ " \x7b") = false := by
    rw [String.append_assoc, String.append_assoc]
    exact isFill_append _ (c := 's') (by decide) (by decide)
  have hfirst : ["var path = Path()", "let width = rect.size.width",
      "let height = rect.size.height"].filter isFill = [] := by decide
  have hlast : ["return path"].filter isFill = [] := by decide
  have hstatements : (statements g).filter isFill = [] := by
    refine List.filter_eq_nil_iff.mpr (List.forall_mem_map.mpr fun s _ => ?_)
    rw [statement, String.append_assoc, String.append_assoc, String.append_assoc,
      isFill_append _ (c := 'p') (by decide) (by decide)]
    decide
  rw [declaration, filter_isFill_block hhead, filter_isFill_block (by decide), List.filter_append,
    List.filter_append, hfirst, hstatements, hlast]
  rfl

/-- A modifier is told from others behind its dot. -/
lemma isFill_modifier (name : String) :
    isFill ("." ++ name) = (Text.dropLeading? "fill(".toList name.toList).isSome := by
  have htrim : Text.trimStart ("." ++ name).toList = '.' :: name.toList := by
    rw [String.toList_append]
    exact Source.trimStart_cons (by decide)
  rw [isFill, htrim]
  rfl

lemma filter_isFill_modifiers (g : Graphic Float) :
    (modifiers g).filter isFill = fillModifier g := by
  have hframe : isFill (".frame(width: " ++ numberLiteral g.width.toDp
      ++ ", height: " ++ numberLiteral g.height.toDp ++ ")") = false := by
    have hdot : ".frame(width: " = "." ++ "frame(width: " := by decide
    rw [hdot, String.append_assoc, String.append_assoc, String.append_assoc, String.append_assoc,
      isFill_modifier, String.toList_append]
    rfl
  have hpadding : isFill ".padding(12)" = false := by decide
  have hfill : (fillModifier g).filter isFill = fillModifier g := by
    unfold fillModifier
    cases sharedFill? g.paths with
    | none => rfl
    | some fill =>
      have hdot : ".fill(" = "." ++ "fill(" := by decide
      refine List.filter_cons_of_pos ?_
      rw [hdot, String.append_assoc, String.append_assoc, isFill_modifier, String.toList_append,
        Text.dropLeading?_append]
      rfl
  rw [modifiers, List.filter_append, hfill, List.filter_cons_of_neg (by simp [hframe]),
    List.filter_cons_of_neg (by simp [hpadding]), List.filter_nil, List.append_nil]

lemma filter_isFill_preview (hsymbol : Naming.isIdentifier symbol = true) (g : Graphic Float) :
    (preview symbol g).filter isFill = indent (indent (indent (fillModifier g))) := by
  have hhead : isFill ("struct " ++ symbol ++ "_Previews: PreviewProvider" ++ " \x7b") = false := by
    rw [String.append_assoc, String.append_assoc]
    exact isFill_append _ (c := 's') (by decide) (by decide)
  have hif : ["#if DEBUG"].filter isFill = [] := by decide
  have hend : ["#endif"].filter isFill = [] := by decide
  have hcall : isFill (symbol ++ "()") = false := isFill_word (Naming.isWord_of_isIdentifier hsymbol) "()"
  rw [preview, List.filter_append, List.filter_append, hif, hend, filter_isFill_block hhead,
    filter_isFill_block (by decide), List.filter_cons_of_neg (by simp [hcall]),
    filter_isFill_indent, filter_isFill_modifiers, List.nil_append, List.append_nil]

lemma fillLines_eq (h : icon settings group symbol g = .ok f) :
    fillLines f.text
      = if settings.preview then indent (indent (indent (fillModifier g))) else [] := by
  obtain ⟨⟨⟩, hsymbol, -⟩ := bind_eq_ok.mp h
  have hsymbol := Source.Backend.checkSymbol_eq_ok.mp hsymbol
  have hline := Source.isLine_of_isWord (Naming.isWord_of_isIdentifier hsymbol)
  have himports : ["import SwiftUI", ""].filter isFill = [] := by decide
  have hempty : isFill "" = false := by decide
  rw [text_of_icon h, fillLines,
    Source.linesOf_textOf (isLine_iconLines hline settings g) (List.cons_ne_nil _ _), iconLines,
    List.filter_append, List.filter_append, List.filter_append, himports,
    filter_isFill_declaration]
  split_ifs
  · simp [hempty, filter_isFill_preview hsymbol]
  · simp [hempty]

lemma numberLiteral_congr {x y : Float} (h : unsigned x = unsigned y) :
    numberLiteral x = numberLiteral y :=
  congrArg Decimal.Style.literal.text h

/-- Opacities that are equal as numbers make the same color. -/
lemma colorCall_congr (color : String) {a b : Float} (ha : a.isFinite = true)
    (hb : b.isFinite = true) (h : unsigned a = unsigned b) : colorCall color a = colorCall color b := by
  unfold colorCall
  rw [numberLiteral_congr (Double.unsigned_mul_congr (channel color 0) ha hb h)]

lemma isFinite_fillAlpha (h : icon settings group symbol g = .ok f) :
    ∀ p ∈ g.paths, p.fillAlpha.isFinite = true := by
  obtain ⟨⟨⟩, -, h⟩ := bind_eq_ok.mp h
  obtain ⟨⟨⟩, hfinite, -⟩ := bind_eq_ok.mp h
  have hnumbers := Source.checkFinite_eq_ok.mp hfinite
  intro p hp
  have hpath : ∀ x ∈ p.numbers, x.isFinite = true :=
    fun x hx => hnumbers x (Graphic.mem_numbers hp hx)
  exact (Path.forall_numbers.mp hpath).2.1

/-- The modifier stands in a block in a block, behind what it modifies. -/
lemma indent_fill (color : String) (alpha : Float) :
    indent (indent (indent [".fill(" ++ colorCall color alpha ++ ")"])) = [fillLine color alpha] := by
  have hblanks : "            .fill(" = "    " ++ ("    " ++ ("    " ++ ".fill(")) := by decide
  unfold fillLine
  generalize colorCall color alpha = call
  have hfill : ".fill(" ++ call ++ ")" ≠ "" := by simp
  have hindented (line : String) : "    " ++ line ≠ "" := by simp
  rw [Source.indent_cons hfill, Source.indent_cons (hindented _), Source.indent_cons (hindented _),
    hblanks]
  simp only [String.append_assoc]
  rfl

/-- The line is written with the opacity of the first path, but it is the same for that of any other. -/
lemma fillLines_of_sharesFill (h : icon settings group symbol g = .ok f)
    (hpreview : settings.preview = true) (hshares : SharesFill g) {p : Path Float}
    (hp : .path p ∈ g.allNodes) {color : String} (hcolor : p.fill = some (.solid color)) :
    fillLines f.text = [fillLine color p.fillAlpha] := by
  obtain ⟨hne, hagree⟩ := sharesFill_iff.mp hshares
  obtain ⟨c, alpha, hshared⟩ := exists_sharedFill? hne hagree
  have hfinite := isFinite_fillAlpha h
  have hp := Graphic.mem_paths_iff.mpr hp
  obtain ⟨hc, halpha⟩ := fills_of_sharedFill? hfinite hshared p hp
  obtain rfl : c = color := by simpa [hcolor, eq_comm] using hc
  obtain ⟨q, hq, rfl⟩ := exists_alpha_of_sharedFill? hshared
  have hmodifier : fillModifier g = [".fill(" ++ colorCall c q.fillAlpha ++ ")"] := by
    rw [fillModifier, hshared]
  have hcall := colorCall_congr c (hfinite p hp) (hfinite q hq) halpha
  rw [fillLines_eq h, if_pos hpreview, hmodifier, ← hcall, indent_fill]

/-- A text is filled just if it has a preview and all paths of the graphic agree on their fill. -/
lemma fillLines_ne_nil_iff (h : icon settings group symbol g = .ok f) :
    fillLines f.text ≠ [] ↔ settings.preview = true ∧ SharesFill g := by
  constructor
  · intro hne
    rw [fillLines_eq h] at hne
    split_ifs at hne with hpreview
    · refine ⟨hpreview, ?_⟩
      cases hshared : sharedFill? g.paths with
      | none => simp [fillModifier, hshared, indent] at hne
      | some fill =>
        refine sharesFill_iff.mpr ⟨?_, agree_of_sharedFill? (isFinite_fillAlpha h) hshared⟩
        rintro hnil
        simp [hnil, sharedFill?] at hshared
    · contradiction
  · rintro ⟨hpreview, hshares⟩
    obtain ⟨p, hp⟩ := hshares.exists_path
    obtain ⟨color, hcolor, -, -⟩ := hshares.agree p p hp hp
    rw [fillLines_of_sharesFill h hpreview hshares hp hcolor]
    exact List.cons_ne_nil _ _

/-- The text of an icon has a line that fills its preview just if there is a preview and all paths, at any
depth of groups, are filled with the same color at the same opacity. It is then the only such line, it can
be told from any of the paths, and no order and no grouping of the paths makes a difference to it. -/
theorem fillLines_of_icon (h : icon settings group symbol g = .ok f) :
    (fillLines f.text ≠ [] ↔ settings.preview = true ∧ SharesFill g)
      ∧ (settings.preview = true → SharesFill g → ∀ p color, .path p ∈ g.allNodes →
          p.fill = some (.solid color) → fillLines f.text = [fillLine color p.fillAlpha])
      ∧ ∀ (settings' : Source.Settings) (group' : Group) (symbol' : String) (g' : Graphic Float)
          (f' : Source.File), settings'.preview = settings.preview →
          icon settings' group' symbol' g' = .ok f' → g'.paths.Perm g.paths →
          fillLines f'.text = fillLines f.text := by
  refine ⟨fillLines_ne_nil_iff h, fun hpreview hshares p color hp hcolor =>
    fillLines_of_sharesFill h hpreview hshares hp hcolor, ?_⟩
  intro settings' group' symbol' g' f' hpreview h' hperm
  have hshares := sharesFill_congr hperm
  by_cases hfilled : settings.preview = true ∧ SharesFill g
  · obtain ⟨p, hp⟩ := hfilled.2.exists_path
    obtain ⟨color, hcolor, -, -⟩ := hfilled.2.agree p p hp hp
    have hp' : .path p ∈ g'.allNodes :=
      Graphic.mem_paths_iff.mp (hperm.mem_iff.mpr (Graphic.mem_paths_iff.mpr hp))
    rw [fillLines_of_sharesFill h hfilled.1 hfilled.2 hp hcolor,
      fillLines_of_sharesFill h' (hpreview.trans hfilled.1) (hshares.mpr hfilled.2) hp' hcolor]
  · have hempty : fillLines f.text = [] := by
      by_contra hne
      exact hfilled ((fillLines_ne_nil_iff h).mp hne)
    have hempty' : fillLines f'.text = [] := by
      by_contra hne
      rw [← ne_eq, fillLines_ne_nil_iff h', hpreview, hshares] at hne
      exact hfilled hne
    rw [hempty, hempty']

end Icons

/-! ### Petals of one color -/

/-- A triangle that is filled with a color at an opacity. -/
def petal (color : String) (alpha : Float) : Path Float :=
  { Path.ofCommands [.moveTo false ⟨4, 4⟩, .lineTo true ⟨8, 0⟩, .lineTo true ⟨-4, 8⟩, .close] with
    fill := some (.solid color)
    fillAlpha := alpha }

/-- A drawing with some content. -/
def petalsGraphic (nodes : List (Node Float)) : Graphic Float where
  width := ⟨24, some .dp⟩
  height := ⟨24, some .dp⟩
  viewport := ⟨24, 24⟩
  nodes := nodes

/-- Two petals, the second one in a group. -/
def petalsApart (color : String) (a b : Float) : Graphic Float :=
  petalsGraphic [.path (petal color a), .group none Transform.identity [.path (petal color b)]]

/-- The same petals the other way round and all in a group. -/
def petalsTogether (color : String) (a b : Float) : Graphic Float :=
  petalsGraphic
    [.group (some "all") Transform.identity [.path (petal color b), .path (petal color a)]]

lemma sharesFill_petalsApart (color : String) {a b : Float} (haa : (a == a) = true)
    (hab : (a == b) = true) (hba : (b == a) = true) (hbb : (b == b) = true) :
    SharesFill (petalsApart color a b) := by
  have hagree {x y : Float} (h : (x == y) = true) : AgreeOnFill (petal color x) (petal color y) :=
    ⟨color, rfl, rfl, h⟩
  have hpaths : (petalsApart color a b).paths = [petal color a, petal color b] := rfl
  rw [sharesFill_iff, hpaths]
  simp only [List.forall_mem_cons, List.not_mem_nil, false_implies, implies_true, and_true]
  exact ⟨List.cons_ne_nil _ _, ⟨hagree haa, hagree hab⟩, hagree hba, hagree hbb⟩

lemma exists_icon_petals {g : Graphic Float} (hfinite : ∀ x ∈ g.numbers, x.isFinite = true) :
    ∃ f, icon ⟨true, "AllAssets"⟩ ⟨"com.app", "Icons", []⟩ "Petals" g = .ok f :=
  exists_icon _ _ (by decide) hfinite

/-- Zero is the same opacity under either sign. -/
theorem fillLines_of_petals :
    ∃ f f', icon ⟨true, "AllAssets"⟩ ⟨"com.app", "Icons", []⟩ "Petals" (petalsApart "80FF0000" 0 (-0))
        = .ok f
      ∧ icon ⟨true, "AllAssets"⟩ ⟨"com.app", "Icons", []⟩ "Petals" (petalsTogether "80FF0000" 0 (-0))
        = .ok f'
      ∧ fillLines f.text = ["            .fill(Color(red: 1.0, green: 0.0, blue: 0.0, opacity: 0.0))"]
      ∧ fillLines f'.text = fillLines f.text := by
  obtain ⟨f, hf⟩ := exists_icon_petals (g := petalsApart "80FF0000" 0 (-0)) (by decide +kernel)
  obtain ⟨f', hf'⟩ := exists_icon_petals (g := petalsTogether "80FF0000" 0 (-0)) (by decide +kernel)
  obtain ⟨-, hlines, hsame⟩ := fillLines_of_icon hf
  have hshares : SharesFill (petalsApart "80FF0000" 0 (-0)) := by
    apply sharesFill_petalsApart <;> decide +kernel
  have hline : fillLine "80FF0000" 0
      = "            .fill(Color(red: 1.0, green: 0.0, blue: 0.0, opacity: 0.0))" := by
    decide +kernel
  have hfirst : .path (petal "80FF0000" 0) ∈ (petalsApart "80FF0000" 0 (-0)).allNodes :=
    List.mem_cons_self
  refine ⟨f, f', hf, hf', ?_, hsame _ _ _ _ f' rfl hf' (List.Perm.swap _ _ _)⟩
  rw [hlines rfl hshares (petal "80FF0000" 0) "80FF0000" hfirst rfl]
  exact congrArg (fun line => [line]) hline

end Iconsmith.Shape
