import Iconsmith.Proofs.ImageVector.Finite
import Iconsmith.Proofs.Outline.Bounds
import Iconsmith.Proofs.Shape.Types

/-!
# Finite coordinates

The statements of a shape hold the points of its outline as fractions of the viewport. The numbers of the
graphic are checked before the outline is drawn, mapped and divided, each of which can lead out of the
range of finite numbers. The coordinates stay finite where the numbers leave them room.
-/

namespace Iconsmith.Shape

open ImageVector (Piece IsFiniteLiteral)

namespace Pieces

open ImageVector.Pieces (block commaList line lines line_nil line_number line_text numbers numbersOf
  numbersOf_append numbersOf_commaList numbersOf_nil numbersOf_text plain)

/-! ### Statements in pieces -/

/-- A point of the viewport as a point of the rectangle. -/
def point (viewport p : Point Float) : List Piece :=
  [.text "CGPoint(x: rect.minX + ", .number (p.x / viewport.x),
    .text " * width, y: rect.minY + ", .number (p.y / viewport.y), .text " * height)"]

lemma numberLiteral_eq (x : Float) : numberLiteral x = ImageVector.doubleLiteral x := rfl

lemma line_point (viewport p : Point Float) : line (point viewport p) = pointCall viewport p := by
  unfold point pointCall
  simp only [line_text, line_number, line_nil, numberLiteral_eq]
  simp only [String.append_empty, String.append_assoc]

/-- A labelled argument. -/
def argument (viewport : Point Float) (a : String × Point Float) : List Piece :=
  .text (a.1 ++ ": ") :: point viewport a.2

lemma line_argument (viewport : Point Float) (a : String × Point Float) :
    line (argument viewport a) = pointArgument viewport a.1 a.2 := by
  rw [argument, line_text, line_point, pointArgument]

/-- The statement that draws a segment. -/
def statement (viewport : Point Float) (s : Segment Float) : List Piece :=
  .text "path." :: .text (methodName s) :: .text "("
    :: commaList ((labelledPoints s).map (argument viewport)) ++ [.text ")"]

lemma line_statement (viewport : Point Float) (s : Segment Float) :
    line (statement viewport s) = Shape.statement viewport s := by
  have harguments : lines ((labelledPoints s).map (argument viewport))
      = (labelledPoints s).map fun a => pointArgument viewport a.1 a.2 := by
    rw [lines, List.map_map]
    exact List.map_congr_left fun a _ => line_argument viewport a
  simp [statement, Shape.statement, harguments, String.append_assoc]

/-- The fractions of the width and the height at which a point of the viewport lies. -/
def fractions (viewport p : Point Float) : List Float :=
  [p.x / viewport.x, p.y / viewport.y]

lemma numbersOf_statement (viewport : Point Float) (s : Segment Float) :
    numbersOf (statement viewport s)
      = (labelledPoints s).flatMap fun a => fractions viewport a.2 := by
  simp only [statement, List.cons_append, numbersOf_text, numbersOf_append, numbersOf_commaList,
    numbersOf_nil, List.append_nil]
  rw [numbers, List.flatMap_map]
  rfl

/-- The statements that draw a graphic. -/
def statements (g : Graphic Float) : List (List Piece) :=
  g.outline.map (statement g.viewport)

lemma lines_statements (g : Graphic Float) : lines (statements g) = Shape.statements g := by
  rw [lines, statements, List.map_map]
  exact List.map_congr_left fun s _ => line_statement g.viewport s

lemma numbers_statements (g : Graphic Float) : numbers (statements g)
    = g.outline.flatMap fun s => (labelledPoints s).flatMap fun a => fractions g.viewport a.2 := by
  rw [numbers, statements, List.flatMap_map]
  exact List.flatMap_congr fun s _ => numbersOf_statement g.viewport s

/-! ### Files in pieces -/

/-- The structure of an icon. -/
def declaration (symbol : String) (g : Graphic Float) : List (List Piece) :=
  block [.text ("struct " ++ symbol ++ ": Shape")]
    (block [.text "func path(in rect: CGRect) -> Path"]
      (plain ["var path = Path()", "let width = rect.size.width", "let height = rect.size.height"]
        ++ statements g ++ plain ["return path"]))

/-- The file of an icon, with the coordinates of its statements as the only numbers. -/
def icon (settings : Source.Settings) (symbol : String) (g : Graphic Float) : List (List Piece) :=
  plain ["import SwiftUI", ""] ++ declaration symbol g
    ++ plain (if settings.preview then "" :: preview symbol g else []) ++ plain [""]

lemma lines_icon (settings : Source.Settings) (symbol : String) (g : Graphic Float) :
    lines (icon settings symbol g) = iconLines settings symbol g := by
  simp [icon, iconLines, declaration, Shape.declaration, lines_statements]

lemma numbers_icon (settings : Source.Settings) (symbol : String) (g : Graphic Float) :
    numbers (icon settings symbol g) = numbers (statements g) := by
  simp [icon, declaration]

end Pieces

/-! ### Icons -/

open ImageVector.Pieces (lines literals)

section

variable {settings : Source.Settings} {group : Group} {symbol : String} {g : Graphic Float}
  {f : Source.File}

lemma text_of_icon (h : icon settings group symbol g = .ok f) :
    f.text = Source.textOf (iconLines settings symbol g) := by
  obtain ⟨⟨⟩, -, h⟩ := bind_eq_ok.mp h
  obtain ⟨⟨⟩, -, h⟩ := bind_eq_ok.mp h
  rw [← pure_eq_ok.mp h]

/-- Under an identifier there is a source for finite numbers. -/
lemma exists_icon (settings : Source.Settings) (group : Group)
    (hsymbol : Naming.isIdentifier symbol = true) (hfinite : ∀ x ∈ g.numbers, x.isFinite = true) :
    ∃ f, icon settings group symbol g = .ok f :=
  (Source.Backend.nativeShape.exists_icon_iff settings group hsymbol g).mpr hfinite

/-- Each statement stands on a line of its own. -/
lemma statement_mem_linesOf (h : icon settings group symbol g = .ok f) {s : Segment Float}
    (hs : s ∈ g.outline) :
    "    " ++ ("    " ++ statement g.viewport s) ∈ Source.linesOf f.text := by
  have hstatement : statement g.viewport s ∈ statements g := List.mem_map_of_mem hs
  have hne : statement g.viewport s ≠ "" := by simp [statement]
  have hdeclaration : "    " ++ ("    " ++ statement g.viewport s) ∈ declaration symbol g := by
    refine Source.mem_block _ (Source.mem_block _ ?_ hne) (by simp)
    exact List.mem_append_left _ (List.mem_append_right _ hstatement)
  have hblanks : Source.IsLine "    " := by decide
  rw [text_of_icon h]
  refine Source.mem_linesOf_textOf ?_ ?_
  · exact List.mem_append_left _ (List.mem_append_left _ (List.mem_append_right _ hdeclaration))
  · rw [Source.isLine_append, Source.isLine_append]
    exact ⟨hblanks, hblanks, isLine_statement g.viewport s⟩

/-- The labels do not matter for what is finite. -/
lemma forall_labelledPoints {P : Point Float → Prop} (s : Segment Float) :
    (∀ a ∈ labelledPoints s, P a.2) ↔ ∀ p ∈ s.points, P p := by
  cases s <;> simp [labelledPoints, Segment.points] <;> tauto

/-- The literals are finite just if all points have finite coordinates in the rectangle. -/
lemma forall_literals :
    (∀ s ∈ literals (Pieces.icon settings symbol g), IsFiniteLiteral s)
      ↔ ∀ s ∈ g.outline, ∀ p ∈ s.points,
        (p.x / g.viewport.x).isFinite = true ∧ (p.y / g.viewport.y).isFinite = true := by
  rw [ImageVector.Pieces.forall_literals, Pieces.numbers_icon, Pieces.numbers_statements,
    List.forall_mem_flatMap]
  refine forall₂_congr fun s _ => ?_
  rw [List.forall_mem_flatMap, ← forall_labelledPoints s]
  refine forall₂_congr fun a _ => ?_
  rw [Pieces.fractions, List.forall_mem_cons, List.forall_mem_singleton]

/-- The file of an icon is fixed text with literals in its drawing statements, one for each coordinate of
the points of its outline, as a fraction of the viewport. All of them denote finite numbers just if the
fractions are finite, and these are if the numbers of the paths, the maps around them and the viewport
leave the range of finite numbers enough room. -/
theorem isFinite_coordinates (h : icon settings group symbol g = .ok f) :
    f.text = Source.textOf (lines (Pieces.icon settings symbol g))
      ∧ literals (Pieces.icon settings symbol g)
        = g.outline.flatMap (fun s => (labelledPoints s).flatMap fun a =>
            [numberLiteral (a.2.x / g.viewport.x), numberLiteral (a.2.y / g.viewport.y)])
      ∧ ((∀ s ∈ literals (Pieces.icon settings symbol g), IsFiniteLiteral s)
          ↔ ∀ s ∈ g.outline, ∀ p ∈ s.points,
            (p.x / g.viewport.x).isFinite = true ∧ (p.y / g.viewport.y).isFinite = true)
      ∧ (∀ a b c : Nat, a + b + c ≤ 971 → Double.Beyond c g.viewport.x → Double.Beyond c g.viewport.y →
          (∀ q ∈ g.placedPaths, q.1.Within a b ∧ q.2.Within a) →
          ∀ s ∈ literals (Pieces.icon settings symbol g), IsFiniteLiteral s) := by
  refine ⟨?_, ?_, forall_literals, ?_⟩
  · rw [text_of_icon h, Pieces.lines_icon]
  · rw [literals, Pieces.numbers_icon, Pieces.numbers_statements]
    simp only [List.map_flatMap, Pieces.fractions, List.map_cons, List.map_nil,
      Pieces.numberLiteral_eq]
  · intro a b c hroom hx hy hpaths
    have houtline := Graphic.within_outline (by omega) hpaths
    refine forall_literals.mpr fun s hs p hp => ?_
    obtain ⟨hpx, hpy⟩ := houtline s hs p hp
    exact ⟨(hpx.div hx (by norm_num) hroom).isFinite, (hpy.div hy (by norm_num) hroom).isFinite⟩

end

/-! ### Large coordinates -/

/-- A curve that is gone on with a smooth one, a flat arc and a relative line, in a viewport of a side. -/
def waveGraphic (a side : Float) : Graphic Float where
  width := ⟨24, some .dp⟩
  height := ⟨24, some .dp⟩
  viewport := ⟨side, side⟩
  nodes :=
    [.path (Path.ofCommands [.moveTo false ⟨a, 12⟩, .cubicTo true ⟨2, -8⟩ ⟨6, -8⟩ ⟨8, 0⟩,
      .smoothCubicTo true ⟨6, 8⟩ ⟨8, 0⟩, .arcTo true ⟨⟨0, 4⟩, 0, true, false⟩ ⟨2, 2⟩,
      .lineTo true ⟨a, 0⟩, .close])]

lemma exists_icon_wave (a side : Float)
    (hfinite : ∀ x ∈ (waveGraphic a side).numbers, x.isFinite = true) :
    ∃ f, icon ⟨true, "AllAssets"⟩ ⟨"com.app", "Icons", ["Shapes"]⟩ "Wave" (waveGraphic a side)
      = .ok f :=
  exists_icon _ _ (by decide) hfinite

theorem isFinite_coordinates_wave :
    ∃ f, icon ⟨true, "AllAssets"⟩ ⟨"com.app", "Icons", ["Shapes"]⟩ "Wave" (waveGraphic 1e280 0.5) = .ok f
      ∧ ∀ s ∈ literals (Pieces.icon ⟨true, "AllAssets"⟩ "Wave" (waveGraphic 1e280 0.5)),
        IsFiniteLiteral s := by
  obtain ⟨f, hf⟩ := exists_icon_wave 1e280 0.5 (by decide +kernel)
  refine ⟨f, hf, (isFinite_coordinates hf).2.2.2 940 0 1 (by norm_num) ?_ ?_ ?_⟩ <;> decide +kernel

/-- A relative line can lead out of the range of finite numbers after the check. The map of the outline
then makes the other coordinate undefined, and neither is a number of the language. -/
theorem infinite_coordinate_relative :
    ∃ f, icon ⟨true, "AllAssets"⟩ ⟨"com.app", "Icons", ["Shapes"]⟩ "Wave" (waveGraphic 1e308 24) = .ok f
      ∧ "        path.addLine(to: CGPoint(x: rect.minX + inf * width, y: rect.minY + NaN * height))"
        ∈ Source.linesOf f.text
      ∧ ∀ s ∈ ["inf", "NaN"], s ∈ literals (Pieces.icon ⟨true, "AllAssets"⟩ "Wave" (waveGraphic 1e308 24))
        ∧ ¬ IsFiniteLiteral s := by
  have hline : ∃ s ∈ (waveGraphic 1e308 24).outline.drop 4, "    " ++ ("    " ++ statement ⟨24, 24⟩ s)
      = "        path.addLine(to: CGPoint(x: rect.minX + inf * width, y: rect.minY + NaN * height))" := by
    decide +kernel
  have hliterals : ∀ s ∈ ["inf", "NaN"], s ∈ ((ImageVector.Pieces.numbers
      (Pieces.statements (waveGraphic 1e308 24))).filter (!·.isFinite)).map ImageVector.doubleLiteral := by
    decide +kernel
  obtain ⟨f, hf⟩ := exists_icon_wave 1e308 24 (by decide +kernel)
  refine ⟨f, hf, ?_, ?_⟩
  · obtain ⟨s, hs, hstatement⟩ := hline
    rw [← hstatement]
    exact statement_mem_linesOf hf (List.mem_of_mem_drop hs)
  · intro s hs
    obtain ⟨x, hx, rfl⟩ := List.mem_map.mp (hliterals s hs)
    obtain ⟨hmem, hinfinite⟩ := List.mem_filter.mp hx
    rw [← Pieces.numbers_icon ⟨true, "AllAssets"⟩ "Wave"] at hmem
    refine ⟨List.mem_map_of_mem hmem, ?_⟩
    rw [ImageVector.isFiniteLiteral_doubleLiteral]
    simpa using hinfinite

end Iconsmith.Shape
