import Iconsmith.Proofs.ImageVector.Pieces
import Iconsmith.Proofs.Source.Acceptance

/-!
# Finite literals

A graphic is checked before its source is generated, and the numbers written into the source are those
that were checked, but for the default sizes. These are taken to density-independent pixels after the
check, where a size in another unit can become too large for a double.
-/

namespace Iconsmith.ImageVector

/-- A literal that is read as a finite double. -/
def IsFiniteLiteral (s : String) : Prop :=
  ∃ x, Numeral.floatOf? s.toList = some x ∧ x.isFinite = true

/-- The literals of the numbers in several lines. -/
def Pieces.literals (ls : List (List Piece)) : List String :=
  (numbers ls).map doubleLiteral

lemma isFinite_unsigned {x : Float} : (Double.unsigned x).isFinite = x.isFinite := by
  cases hx : x.isFinite with
  | false => exact Decimal.not_isFinite_unsigned hx
  | true =>
    rcases Double.unsigned_eq x with hzero | hsame
    · rw [hzero]
      decide
    · rw [hsame, hx]

lemma isFiniteLiteral_doubleLiteral {x : Float} :
    IsFiniteLiteral (doubleLiteral x) ↔ x.isFinite = true := by
  have hread : Numeral.floatOf? (doubleLiteral x).toList = some (Double.unsigned x) :=
    Decimal.floatOf?_text .literal x
  constructor
  · rintro ⟨y, hy, hfinite⟩
    obtain rfl := Option.some.inj (hread.symm.trans hy)
    rwa [isFinite_unsigned] at hfinite
  · intro hx
    exact ⟨_, hread, by rwa [isFinite_unsigned]⟩

lemma Pieces.forall_literals {ls : List (List Piece)} :
    (∀ s ∈ literals ls, IsFiniteLiteral s) ↔ ∀ x ∈ numbers ls, x.isFinite = true := by
  simp only [literals, List.forall_mem_map, isFiniteLiteral_doubleLiteral]

/-- A size that needs no conversion is as finite as its value. -/
lemma isFinite_toDp {l : Length Float} (hunit : l.unit ∈ [none, some .dp, some .px])
    (hvalue : l.value.isFinite = true) : l.toDp.isFinite = true := by
  have htoDp : l.toDp = l.value := by
    simp only [List.mem_cons, List.not_mem_nil, or_false] at hunit
    rcases hunit with hunit | hunit | hunit <;> rw [Length.toDp, hunit]
  rwa [htoDp]

section

variable {settings : Source.Settings} {group : Group} {symbol : String} {g : Graphic Float}
  {f : Source.File}

lemma checkFinite_of_icon (h : icon settings group symbol g = .ok f) :
    ∀ x ∈ g.numbers, x.isFinite = true := by
  have hsymbol := (icon_eq_ok h).1
  exact (Source.Backend.declarativeUi.exists_icon_iff settings group hsymbol g).mp ⟨f, h⟩

/-- Under an identifier there is a source for finite numbers. -/
lemma exists_icon (hsymbol : Naming.isIdentifier symbol = true)
    (hfinite : ∀ x ∈ g.numbers, x.isFinite = true) : ∃ f, icon settings group symbol g = .ok f :=
  (Source.Backend.declarativeUi.exists_icon_iff settings group hsymbol g).mpr hfinite

/-- All numbers of a source but the default sizes were checked. -/
lemma isFinite_of_icon (h : icon settings group symbol g = .ok f) :
    ∀ x ∈ g.viewport.x :: g.viewport.y :: Pieces.numbers (Pieces.nodes g.nodes),
      x.isFinite = true := by
  intro x hx
  refine checkFinite_of_icon h x ?_
  rcases List.mem_cons.mp hx with rfl | hx
  · simp [Graphic.numbers]
  · rcases List.mem_cons.mp hx with rfl | hx
    · simp [Graphic.numbers]
    · exact List.mem_append_right _ (Pieces.numbers_nodes g.nodes hx)

lemma text_of_icon (h : icon settings group symbol g = .ok f) :
    f.text = Source.textOf (Pieces.lines (Pieces.icon settings group symbol g)) := by
  rw [(icon_eq_ok h).2.2, Pieces.lines_icon]
  rfl

/-- The default width stands on a line of its own. -/
lemma widthLine_mem_linesOf (h : icon settings group symbol g = .ok f) :
    "    " ++ ("    " ++ ("    " ++ ("defaultWidth = " ++ doubleLiteral g.width.toDp ++ ".dp,")))
      ∈ Source.linesOf f.text := by
  have hline : Source.IsLine ("defaultWidth = " ++ doubleLiteral g.width.toDp ++ ".dp,") :=
    Source.isLine_append.mpr ⟨Source.isLine_append.mpr ⟨by decide, isLine_doubleLiteral _⟩, by decide⟩
  have hblanks : Source.IsLine "    " := by decide
  have hassignment : "    " ++ ("defaultWidth = " ++ doubleLiteral g.width.toDp ++ ".dp,")
      ∈ assignment symbol g (nodesDraft g.nodes).lines := by
    refine List.mem_append_left _ (List.mem_append_left _ (List.mem_append_left _ ?_))
    exact List.mem_cons_of_mem _ (Source.mem_indent (by simp [builderArguments]) (by simp))
  have hgetter {l : String} {ls : List String} (hl : l ∈ ls) (hne : l ≠ "") :
      "    " ++ l ∈ cachedGetter (backingName symbol) ls :=
    Source.mem_block "get()" (List.mem_append_left _ (List.mem_append_right _ hl)) hne
  have hproperty : "    " ++ ("    " ++ ("    " ++ ("defaultWidth = " ++ doubleLiteral g.width.toDp
      ++ ".dp,"))) ∈ property group.name symbol g (nodesDraft g.nodes).lines :=
    List.mem_append_left _ (List.mem_cons_of_mem _
      (Source.mem_indent (hgetter hassignment (by simp)) (by simp)))
  rw [(icon_eq_ok h).2.2]
  refine CodeFile.mem_linesOf_text (List.mem_append_left _ (List.mem_append_left _ hproperty)) ?_
  rw [Source.isLine_append, Source.isLine_append, Source.isLine_append]
  exact ⟨hblanks, hblanks, hblanks, hline⟩

/-- A source is fixed text with literals in it. All of them denote finite numbers but for those of the
default sizes, which do just if the sizes are finite in density-independent pixels, as they are if they
need no conversion. -/
theorem isFinite_literals (h : icon settings group symbol g = .ok f) :
    f.text = Source.textOf (Pieces.lines (Pieces.icon settings group symbol g))
      ∧ (∃ rest, Pieces.literals (Pieces.icon settings group symbol g)
            = doubleLiteral g.width.toDp :: doubleLiteral g.height.toDp :: rest
          ∧ ∀ s ∈ rest, IsFiniteLiteral s)
      ∧ ((∀ s ∈ Pieces.literals (Pieces.icon settings group symbol g), IsFiniteLiteral s)
          ↔ g.width.toDp.isFinite = true ∧ g.height.toDp.isFinite = true)
      ∧ ((∀ l ∈ [g.width, g.height], l.unit ∈ [none, some .dp, some .px]) →
          g.width.toDp.isFinite = true ∧ g.height.toDp.isFinite = true) := by
  have hrest := isFinite_of_icon h
  refine ⟨text_of_icon h, ⟨_, by rw [Pieces.literals, Pieces.numbers_icon]; rfl, ?_⟩, ?_, ?_⟩
  · exact List.forall_mem_map.mpr fun x hx => isFiniteLiteral_doubleLiteral.mpr (hrest x hx)
  · rw [Pieces.forall_literals, Pieces.numbers_icon, List.forall_mem_cons, List.forall_mem_cons]
    exact and_congr_right fun _ => and_iff_left hrest
  · intro hunits
    have hnumbers := checkFinite_of_icon h
    exact ⟨isFinite_toDp (hunits g.width (by simp)) (hnumbers _ (by simp [Graphic.numbers])),
      isFinite_toDp (hunits g.height (by simp)) (hnumbers _ (by simp [Graphic.numbers]))⟩

end

/-! ### Sizes in inches -/

/-- A disc under a gradient, turned about its center, of a size in inches. -/
def discGraphic (size : Float) : Graphic Float where
  width := ⟨size, some .inch⟩
  height := ⟨24, some .dp⟩
  viewport := ⟨24, 24⟩
  nodes :=
    [.group (some "disc") { Transform.identity with rotation := 45, pivot := ⟨12, 12⟩ }
      [.path { Path.ofCommands [.moveTo false ⟨2, 12⟩,
          .arcTo true ⟨⟨10, 10⟩, 0, true, false⟩ ⟨20, 0⟩, .close] with
        fill := some (.radial [⟨0, "FF204060"⟩, ⟨1, "00204060"⟩] ⟨12, 12⟩ 10) }]]

lemma exists_icon_disc (size : Float) (hfinite : ∀ x ∈ (discGraphic size).numbers, x.isFinite = true) :
    ∃ f, icon ⟨true, "AllAssets"⟩ ⟨"com.app", "Icons", ["Shapes"]⟩ "Disc" (discGraphic size) = .ok f :=
  exists_icon (by decide) hfinite

theorem isFinite_literals_disc :
    ∃ f, icon ⟨true, "AllAssets"⟩ ⟨"com.app", "Icons", ["Shapes"]⟩ "Disc" (discGraphic 1e300) = .ok f
      ∧ ∀ s ∈ Pieces.literals (Pieces.icon ⟨true, "AllAssets"⟩ ⟨"com.app", "Icons", ["Shapes"]⟩ "Disc"
        (discGraphic 1e300)), IsFiniteLiteral s := by
  obtain ⟨f, hf⟩ := exists_icon_disc 1e300 (by decide +kernel)
  exact ⟨f, hf, (isFinite_literals hf).2.2.1.mpr (by decide +kernel)⟩

/-- The conversion to density-independent pixels can leave the range of finite numbers after the
check, and infinity is no number of the language. -/
theorem infinite_literal_inches :
    ∃ f, icon ⟨true, "AllAssets"⟩ ⟨"com.app", "Icons", ["Shapes"]⟩ "Disc" (discGraphic 1e308) = .ok f
      ∧ "            defaultWidth = inf.dp," ∈ Source.linesOf f.text
      ∧ "inf" ∈ Pieces.literals (Pieces.icon ⟨true, "AllAssets"⟩ ⟨"com.app", "Icons", ["Shapes"]⟩ "Disc"
        (discGraphic 1e308))
      ∧ ¬ IsFiniteLiteral "inf" := by
  have hwidth : doubleLiteral (discGraphic 1e308).width.toDp = "inf" := by decide +kernel
  obtain ⟨f, hf⟩ := exists_icon_disc 1e308 (by decide +kernel)
  refine ⟨f, hf, ?_, ?_, ?_⟩
  · have hline := widthLine_mem_linesOf hf
    simpa [hwidth] using hline
  · rw [Pieces.literals, Pieces.numbers_icon, List.map_cons, hwidth]
    exact List.mem_cons_self
  · rw [← hwidth, isFiniteLiteral_doubleLiteral]
    decide +kernel

end Iconsmith.ImageVector
