import Iconsmith.Proofs.ImageVector.Links
import Iconsmith.Proofs.ImageVector.Arguments

/-!
# Code in pieces

The code of an icon is fixed text with numbers in it. Here it is made once more with the numbers as they
are, each a piece between texts, so that every number of the code is known together with the place where
it is written. With the numbers as literals, the pieces are the code.
-/

namespace Iconsmith.ImageVector

/-- A piece of a line of code. -/
inductive Piece where
  | text (s : String)
  /-- A number, which is written as a literal of double precision. -/
  | number (x : Float)

namespace Piece

/-- The code of a piece. -/
def code : Piece → String
  | text s => s
  | number x => doubleLiteral x

/-- The number in a piece. -/
def number? : Piece → Option Float
  | text _ => none
  | number x => some x

end Piece

namespace Pieces

/-! ### Lines -/

/-- The code of a line. -/
def line (l : List Piece) : String :=
  (l.map Piece.code).foldr (· ++ ·) ""

/-- The numbers in a line. -/
def numbersOf (l : List Piece) : List Float :=
  l.filterMap Piece.number?

@[simp] lemma line_nil : line [] = "" := rfl

@[simp] lemma line_text (s : String) (l : List Piece) : line (.text s :: l) = s ++ line l := rfl

@[simp] lemma line_number (x : Float) (l : List Piece) :
    line (.number x :: l) = doubleLiteral x ++ line l := rfl

@[simp] lemma line_append (l m : List Piece) : line (l ++ m) = line l ++ line m := by
  induction l with
  | nil => simp
  | cons p l ih => cases p <;> simp [ih, String.append_assoc]

@[simp] lemma numbersOf_nil : numbersOf [] = [] := rfl

@[simp] lemma numbersOf_text (s : String) (l : List Piece) :
    numbersOf (.text s :: l) = numbersOf l := rfl

@[simp] lemma numbersOf_number (x : Float) (l : List Piece) :
    numbersOf (.number x :: l) = x :: numbersOf l := rfl

@[simp] lemma numbersOf_append (l m : List Piece) :
    numbersOf (l ++ m) = numbersOf l ++ numbersOf m :=
  List.filterMap_append

/-- The code of several lines. -/
def lines (ls : List (List Piece)) : List String :=
  ls.map line

/-- The numbers in several lines. -/
def numbers (ls : List (List Piece)) : List Float :=
  ls.flatMap numbersOf

@[simp] lemma lines_nil : lines [] = [] := rfl

@[simp] lemma lines_cons (l : List Piece) (ls : List (List Piece)) :
    lines (l :: ls) = line l :: lines ls := rfl

@[simp] lemma lines_append (ls ms : List (List Piece)) : lines (ls ++ ms) = lines ls ++ lines ms :=
  List.map_append

@[simp] lemma numbers_nil : numbers [] = [] := rfl

@[simp] lemma numbers_cons (l : List Piece) (ls : List (List Piece)) :
    numbers (l :: ls) = numbersOf l ++ numbers ls := rfl

@[simp] lemma numbers_append (ls ms : List (List Piece)) :
    numbers (ls ++ ms) = numbers ls ++ numbers ms :=
  List.flatMap_append

/-- Lines without numbers. -/
def plain (ls : List String) : List (List Piece) :=
  ls.map fun l => [.text l]

@[simp] lemma lines_plain (ls : List String) : lines (plain ls) = ls := by
  induction ls with
  | nil => rfl
  | cons l ls ih => simpa [plain] using ih

@[simp] lemma numbers_plain (ls : List String) : numbers (plain ls) = [] := by
  induction ls with
  | nil => rfl
  | cons l ls ih => simpa [plain] using ih

/-! ### Layout -/

/-- Pieces with commas between them. -/
def commaList (parts : List (List Piece)) : List Piece :=
  [.text ", "].intercalate parts

lemma commaList_cons {part : List Piece} {parts : List (List Piece)} (hne : parts ≠ []) :
    commaList (part :: parts) = part ++ .text ", " :: commaList parts := by
  rw [commaList, List.intercalate_cons_of_ne_nil hne]
  simp [commaList]

@[simp] lemma line_commaList (parts : List (List Piece)) :
    line (commaList parts) = Source.commaList (lines parts) := by
  induction parts with
  | nil => rfl
  | cons part parts ih =>
    rcases eq_or_ne parts [] with rfl | hne
    · simp [commaList, Source.commaList_singleton]
    · have hlines : lines parts ≠ [] := by simpa [lines] using hne
      simp [commaList_cons hne, ih, Source.commaList_cons hlines, String.append_assoc]

@[simp] lemma numbersOf_commaList (parts : List (List Piece)) :
    numbersOf (commaList parts) = numbers parts := by
  induction parts with
  | nil => rfl
  | cons part parts ih =>
    rcases eq_or_ne parts [] with rfl | hne
    · simp [commaList]
    · simp [commaList_cons hne, ih]

/-- Indents all lines that are not empty. -/
def indent (ls : List (List Piece)) : List (List Piece) :=
  ls.map fun l => if (line l).isEmpty then l else .text "    " :: l

@[simp] lemma lines_indent (ls : List (List Piece)) : lines (indent ls) = Source.indent (lines ls) := by
  simp only [lines, indent, Source.indent, List.map_map]
  refine List.map_congr_left fun l _ => ?_
  simp only [Function.comp_apply]
  split_ifs <;> rfl

@[simp] lemma numbers_indent (ls : List (List Piece)) : numbers (indent ls) = numbers ls := by
  rw [numbers, indent, List.flatMap_map]
  refine List.flatMap_congr fun l _ => ?_
  split_ifs <;> rfl

/-- Lines between braces, the first of which follows a head. -/
def block (head : List Piece) (inside : List (List Piece)) : List (List Piece) :=
  (head ++ [.text " \x7b"]) :: indent inside ++ [[.text "\x7d"]]

@[simp] lemma lines_block (head : List Piece) (inside : List (List Piece)) :
    lines (block head inside) = Source.block (line head) (lines inside) := by
  simp [block, Source.block]

@[simp] lemma numbers_block (head : List Piece) (inside : List (List Piece)) :
    numbers (block head inside) = numbersOf head ++ numbers inside := by
  simp [block]

/-! ### Commands and brushes -/

/-- A number as a literal of single precision. -/
def float (x : Float) : List Piece :=
  [.number x, .text "f"]

@[simp] lemma line_float (x : Float) : line (float x) = floatLiteral x := by
  simp [float, floatLiteral]

@[simp] lemma numbersOf_float (x : Float) : numbersOf (float x) = [x] := rfl

/-- The literal of an operand. -/
def operand : Operand Float → List Piece
  | .number x => float x
  | .flag on => [.text (operandLiteral (.flag on))]

lemma line_operand (a : Operand Float) : line (operand a) = operandLiteral a := by
  cases a with
  | number x => exact line_float x
  | flag on => simp [operand]

/-- The call for a drawing command. -/
def command (c : Command Float) : List Piece :=
  .text (callWord c.verb c.isRelative ++ "(") :: commaList (c.operands.map operand) ++ [.text ")"]

lemma line_command (c : Command Float) : line (command c) = commandCall c := by
  have hoperands : lines (c.operands.map operand) = c.operands.map operandLiteral := by
    rw [lines, List.map_map]
    exact List.map_congr_left fun a _ => line_operand a
  simp [command, hoperands, commandCall_eq, String.append_assoc]

lemma numbersOf_command (c : Command Float) : numbersOf (command c) = c.numbers := by
  cases c <;> rfl

/-- A point. -/
def offset (p : Point Float) : List Piece :=
  .text "Offset(" :: float p.x ++ .text ", " :: float p.y ++ [.text ")"]

@[simp] lemma line_offset (p : Point Float) : line (offset p) = offsetCall p := by
  simp [offset, offsetCall, String.append_assoc]

@[simp] lemma numbersOf_offset (p : Point Float) : numbersOf (offset p) = [p.x, p.y] := by
  simp [offset]

/-- A color stop. -/
def stop (s : ColorStop Float) : List Piece :=
  float s.offset ++ [.text (" to " ++ colorCall s.color)]

lemma lines_stops (stops : List (ColorStop Float)) : lines (stops.map stop) = stops.map stopPair := by
  rw [lines, List.map_map]
  refine List.map_congr_left fun s _ => ?_
  simp [stop, stopPair, String.append_assoc]

lemma numbers_stops (stops : List (ColorStop Float)) :
    numbers (stops.map stop) = stops.map (·.offset) := by
  induction stops with
  | nil => rfl
  | cons s stops ih => simp [stop, ih]

/-- The brush of a fill. -/
def brush : Fill Float → List Piece
  | .solid color => [.text (solidBrush color).text]
  | .linear stops start finish =>
    .text "Brush." :: .text "linearGradient(" :: commaList (stops.map stop)
      ++ .text ", start = " :: offset start ++ .text ", end = " :: offset finish ++ [.text ")"]
  | .radial stops center radius =>
    .text "Brush." :: .text "radialGradient(" :: commaList (stops.map stop)
      ++ .text ", center = " :: offset center ++ .text ", radius = " :: float radius ++ [.text ")"]

lemma line_brush (f : Fill Float) : line (brush f) = (ImageVector.brush f).text := by
  cases f with
  | solid color => simp [brush, ImageVector.brush]
  | linear stops start finish =>
    simp [brush, ImageVector.brush, gradientBrush, stopPairs, lines_stops, String.append_assoc]
  | radial stops center radius =>
    simp [brush, ImageVector.brush, gradientBrush, stopPairs, lines_stops, String.append_assoc]

lemma numbersOf_brush (f : Fill Float) : numbersOf (brush f) = f.numbers := by
  cases f <;> simp [brush, Fill.numbers, numbers_stops]

/-! ### Arguments -/

/-- A named argument. -/
def argument (name : String) (value : List Piece) : List Piece :=
  .text (name ++ " = ") :: value

lemma line_argument (name : String) (value : List Piece) (imports : List String) :
    line (argument name value) = (ImageVector.argument name ⟨line value, imports⟩).text := by
  simp [argument, ImageVector.argument]

@[simp] lemma numbersOf_argument (name : String) (value : List Piece) :
    numbersOf (argument name value) = numbersOf value := rfl

/-- The argument of a number, unless it has its default value. -/
def numberArgument (name : String) (x default : Float) : List (List Piece) :=
  if x == default then [] else [argument name (float x)]

@[simp] lemma lines_numberArgument (name : String) (x default : Float) :
    lines (numberArgument name x default) = texts (ImageVector.numberArgument name x default) := by
  unfold numberArgument ImageVector.numberArgument
  split_ifs
  · rfl
  · simp [texts, line_argument name (float x) []]

lemma numbers_numberArgument (name : String) (x default : Float) :
    numbers (numberArgument name x default) ⊆ [x] := by
  unfold numberArgument
  split_ifs <;> simp

/-- The argument for a value that may be missing. -/
def optionArgument {α : Type} (name : String) (value : α → List Piece) (x : Option α) :
    List (List Piece) :=
  (x.map fun a => argument name (value a)).toList

lemma lines_optionArgument {α : Type} {name : String} {value : α → List Piece} {phrase : α → Phrase}
    (h : ∀ a, line (value a) = (phrase a).text) (x : Option α) :
    lines (optionArgument name value x) = texts (ImageVector.optionArgument name phrase x) := by
  cases x with
  | none => rfl
  | some a => simp [optionArgument, ImageVector.optionArgument, texts, argument,
      ImageVector.argument, h]

lemma numbers_optionArgument {α : Type} (name : String) (value : α → List Piece) (x : Option α) :
    numbers (optionArgument name value x) = x.toList.flatMap fun a => numbersOf (value a) := by
  cases x <;> simp [optionArgument]

/-- The arguments of the call for a path. -/
def pathArguments (p : Path Float) : List (List Piece) :=
  plain (texts (nameArgument p.name))
    ++ optionArgument "fill" brush p.fill
    ++ numberArgument "fillAlpha" p.fillAlpha 1
    ++ plain (texts (ImageVector.optionArgument "stroke" solidBrush p.strokeColor))
    ++ numberArgument "strokeAlpha" p.strokeAlpha 1
    ++ optionArgument "strokeLineWidth" (fun w => float w.value) p.strokeWidth
    ++ plain (texts (choiceArgument "strokeLineCap" "StrokeCap" capName p.cap .butt))
    ++ plain (texts (choiceArgument "strokeLineJoin" "StrokeJoin" joinName p.join .miter))
    ++ numberArgument "strokeLineMiter" p.miter Path.defaultMiter
    ++ plain (texts (choiceArgument "pathFillType" "PathFillType" fillRuleName p.fillRule .nonZero))

lemma lines_pathArguments (p : Path Float) :
    lines (pathArguments p) = texts (ImageVector.pathArguments p) := by
  have hwidth (w : Length Float) : line (float w.value) = (⟨floatLiteral w.value, []⟩ : Phrase).text :=
    line_float w.value
  simp only [pathArguments, texts_pathArguments, pathFields, lines_append, lines_plain,
    lines_optionArgument line_brush, lines_optionArgument hwidth, lines_numberArgument, nameArgument,
    List.map_cons, List.map_nil, List.flatten_cons, List.flatten_nil, List.append_assoc,
    List.append_nil]
  rfl

lemma numbers_pathArguments (p : Path Float) : numbers (pathArguments p) ⊆ p.numbers := by
  have hnumber (name : String) {x : Float} (default : Float) (hx : x ∈ p.numbers) :
      numbers (numberArgument name x default) ⊆ p.numbers :=
    List.Subset.trans (numbers_numberArgument name x default) (by simpa using hx)
  have hfill : numbers (optionArgument "fill" brush p.fill) ⊆ p.numbers := by
    intro x hx
    simp only [numbers_optionArgument, numbersOf_brush] at hx
    exact List.mem_append_right _ hx
  have hwidth : numbers (optionArgument "strokeLineWidth" (fun w => float w.value) p.strokeWidth)
      ⊆ p.numbers := by
    intro x hx
    obtain ⟨w, hw, hx⟩ : ∃ w, p.strokeWidth = some w ∧ x = w.value := by
      simpa [numbers_optionArgument] using hx
    simp [Path.numbers, hw, hx]
  simp only [pathArguments, numbers_append, numbers_plain, List.append_nil, List.nil_append,
    List.append_subset]
  exact ⟨⟨⟨⟨hfill, hnumber _ _ (by simp [Path.numbers])⟩, hnumber _ _ (by simp [Path.numbers])⟩, hwidth⟩,
    hnumber _ _ (by simp [Path.numbers])⟩

/-- The arguments of the call for a group. -/
def groupArguments (name : Option String) (t : Transform Float) : List (List Piece) :=
  plain (texts (nameArgument name))
    ++ numberArgument "rotate" t.rotation 0
    ++ numberArgument "pivotX" t.pivot.x 0 ++ numberArgument "pivotY" t.pivot.y 0
    ++ numberArgument "scaleX" t.scale.x 1 ++ numberArgument "scaleY" t.scale.y 1
    ++ numberArgument "translationX" t.shift.x 0 ++ numberArgument "translationY" t.shift.y 0

lemma lines_groupArguments (name : Option String) (t : Transform Float) :
    lines (groupArguments name t) = texts (ImageVector.groupArguments name t) := by
  simp [groupArguments, ImageVector.groupArguments, texts]

lemma numbers_groupArguments (name : Option String) (t : Transform Float) :
    numbers (groupArguments name t) ⊆ t.numbers := by
  have hnumber (argument : String) {x : Float} (default : Float) (hx : x ∈ t.numbers) :
      numbers (numberArgument argument x default) ⊆ t.numbers :=
    List.Subset.trans (numbers_numberArgument argument x default) (by simpa using hx)
  simp only [groupArguments, numbers_append, numbers_plain, List.nil_append, List.append_subset]
  refine ⟨⟨⟨⟨⟨⟨?_, ?_⟩, ?_⟩, ?_⟩, ?_⟩, ?_⟩, ?_⟩ <;> exact hnumber _ _ (by simp [Transform.numbers])

/-! ### Calls -/

/-- Lines that end with a comma. -/
def withCommas (ls : List (List Piece)) : List (List Piece) :=
  ls.map (· ++ [.text ","])

@[simp] lemma lines_withCommas (ls : List (List Piece)) :
    lines (withCommas ls) = (lines ls).map (· ++ ",") := by
  simp [lines, withCommas, Function.comp_def]

@[simp] lemma numbers_withCommas (ls : List (List Piece)) : numbers (withCommas ls) = numbers ls := by
  simp [numbers, withCommas, List.flatMap_map]

@[simp] lemma isEmpty_lines (ls : List (List Piece)) : (lines ls).isEmpty = ls.isEmpty :=
  List.isEmpty_map

/-- The first lines of the call for a path, up to the opening brace. -/
def pathHead (arguments : List (List Piece)) : List (List Piece) :=
  if arguments.isEmpty then plain ["path \x7b"]
  else [.text "path("] :: indent (withCommas arguments) ++ plain [") \x7b"]

lemma lines_pathHead {arguments : List (List Piece)} {phrases : List Phrase}
    (h : lines arguments = texts phrases) :
    lines (pathHead arguments) = ImageVector.pathHead phrases := by
  have hempty : arguments.isEmpty = phrases.isEmpty := by
    rw [← isEmpty_lines, h, texts, List.isEmpty_map]
  have hcommas : (lines arguments).map (· ++ ",") = phrases.map (·.text ++ ",") := by
    rw [h, texts, List.map_map]
    rfl
  unfold pathHead ImageVector.pathHead
  rw [hempty]
  split_ifs
  · rfl
  · simp [hcommas]

lemma numbers_pathHead (arguments : List (List Piece)) :
    numbers (pathHead arguments) = numbers arguments := by
  unfold pathHead
  split_ifs with hempty
  · rw [List.isEmpty_iff.mp hempty]
    rfl
  · simp

/-- The call for a path. -/
def path (p : Path Float) : List (List Piece) :=
  pathHead (pathArguments p) ++ indent (p.commands.map command) ++ plain ["\x7d"]

lemma lines_path (p : Path Float) : lines (path p) = (pathDraft p).lines := by
  have hcommands : lines (p.commands.map command) = p.commands.map commandCall := by
    rw [lines, List.map_map]
    exact List.map_congr_left fun c _ => line_command c
  simp [path, pathDraft, lines_pathHead (lines_pathArguments p), hcommands]

lemma numbers_path (p : Path Float) : numbers (path p) ⊆ p.numbers := by
  have hcommands : numbers (p.commands.map command) = p.commands.flatMap Command.numbers := by
    rw [numbers, List.flatMap_map]
    exact List.flatMap_congr fun c _ => numbersOf_command c
  have hmem : p.commands.flatMap Command.numbers ⊆ p.numbers := by
    intro x hx
    exact List.mem_append_left _ (List.mem_append_left _ (List.mem_append_left _ hx))
  simp only [path, numbers_append, numbers_pathHead, numbers_indent, numbers_plain, List.append_nil,
    hcommands]
  exact List.append_subset.mpr ⟨numbers_pathArguments p, hmem⟩

/-- The call for a group around its content. A group without arguments is its content alone. -/
def group (arguments inside : List (List Piece)) : List (List Piece) :=
  if arguments.isEmpty then inside
  else block (.text "group(" :: commaList arguments ++ [.text ")"]) inside

lemma lines_group {arguments inside : List (List Piece)} {phrases : List Phrase} {draft : Draft}
    (harguments : lines arguments = texts phrases) (hinside : lines inside = draft.lines) :
    lines (group arguments inside) = (groupDraft phrases draft).lines := by
  have hempty : arguments.isEmpty = phrases.isEmpty := by
    rw [← isEmpty_lines, harguments, texts, List.isEmpty_map]
  unfold group groupDraft
  rw [hempty]
  split_ifs
  · exact hinside
  · simp [harguments, hinside, texts, Draft.block, String.append_assoc]

lemma numbers_group (arguments inside : List (List Piece)) :
    numbers (group arguments inside) = numbers arguments ++ numbers inside := by
  unfold group
  split_ifs with hempty
  · rw [List.isEmpty_iff.mp hempty]
    rfl
  · simp

mutual

/-- The calls for a node. -/
def node : Node Float → List (List Piece)
  | .group name transform children => group (groupArguments name transform) (nodes children)
  | .path p => path p

/-- The calls for a list of nodes. -/
def nodes : List (Node Float) → List (List Piece)
  | [] => []
  | n :: ns => node n ++ nodes ns

end

mutual

lemma lines_node : ∀ n : Node Float, lines (node n) = (nodeDraft n).lines
  | .group name t children => by
    rw [node, nodeDraft]
    exact lines_group (lines_groupArguments name t) (lines_nodes children)
  | .path p => by rw [node, nodeDraft, lines_path]

/-- The pieces of a tree of nodes are its calls. -/
lemma lines_nodes : ∀ ns : List (Node Float), lines (nodes ns) = (nodesDraft ns).lines
  | [] => rfl
  | n :: ns => by
    rw [nodes, nodesDraft, lines_append, ImageVector.lines_append, lines_node n, lines_nodes ns]

end

mutual

lemma numbers_node : ∀ n : Node Float, numbers (node n) ⊆ n.numbers
  | .group name t children => by
    rw [node, numbers_group, Node.numbers]
    exact List.append_subset.mpr
      ⟨List.subset_append_of_subset_left _ (numbers_groupArguments name t),
        List.subset_append_of_subset_right _ (numbers_nodes children)⟩
  | .path p => by
    rw [node, Node.numbers]
    exact numbers_path p

/-- Every number in the calls for a tree of nodes is one of the tree. -/
lemma numbers_nodes : ∀ ns : List (Node Float), numbers (nodes ns) ⊆ Node.numbersOf ns
  | [] => List.nil_subset _
  | n :: ns => by
    rw [nodes, numbers_append, Node.numbersOf]
    exact List.append_subset.mpr
      ⟨List.subset_append_of_subset_left _ (numbers_node n),
        List.subset_append_of_subset_right _ (numbers_nodes ns)⟩

end

/-! ### Files -/

/-- The arguments of the builder of an icon. -/
def builderArguments (symbol : String) (g : Graphic Float) : List (List Piece) :=
  withCommas
    [argument "name" [.text (stringLiteral symbol)],
     argument "defaultWidth" [.number g.width.toDp, .text ".dp"],
     argument "defaultHeight" [.number g.height.toDp, .text ".dp"],
     argument "viewportWidth" (float g.viewport.x),
     argument "viewportHeight" (float g.viewport.y)]

lemma lines_builderArguments (symbol : String) (g : Graphic Float) :
    lines (builderArguments symbol g) = ImageVector.builderArguments symbol g := by
  simp [builderArguments, ImageVector.builderArguments, argument, String.append_assoc]

lemma numbers_builderArguments (symbol : String) (g : Graphic Float) :
    numbers (builderArguments symbol g)
      = [g.width.toDp, g.height.toDp, g.viewport.x, g.viewport.y] := by
  simp [builderArguments]

/-- The statement that builds an icon. -/
def assignment (symbol : String) (g : Graphic Float) : List (List Piece) :=
  plain [backingName symbol ++ " = ImageVector.Builder("] ++ indent (builderArguments symbol g)
    ++ plain [").apply \x7b"] ++ indent (nodes g.nodes) ++ plain ["\x7d.build()"]

lemma lines_assignment (symbol : String) (g : Graphic Float) : lines (assignment symbol g)
    = ImageVector.assignment symbol g (nodesDraft g.nodes).lines := by
  simp [assignment, ImageVector.assignment, lines_builderArguments, lines_nodes]

lemma numbers_assignment (symbol : String) (g : Graphic Float) : numbers (assignment symbol g)
    = [g.width.toDp, g.height.toDp, g.viewport.x, g.viewport.y] ++ numbers (nodes g.nodes) := by
  simp [assignment, numbers_builderArguments]

/-- A getter that gives the value of a variable and first sets it if it has none. -/
def cachedGetter (backing : String) (assignment : List (List Piece)) : List (List Piece) :=
  block [.text "get()"]
    (plain (Source.block ("if (" ++ backing ++ " != null)") ["return " ++ backing ++ "!!"])
      ++ assignment ++ plain ["return " ++ backing ++ "!!"])

/-- The property of an icon of an object, and the variable behind it. -/
def property (receiver symbol : String) (g : Graphic Float) : List (List Piece) :=
  plain ["public val " ++ receiver ++ "." ++ symbol ++ ": ImageVector"]
    ++ indent (cachedGetter (backingName symbol) (assignment symbol g))
    ++ plain ["", "private var " ++ backingName symbol ++ ": ImageVector? = null"]

lemma lines_property (receiver symbol : String) (g : Graphic Float) :
    lines (property receiver symbol g)
      = ImageVector.property receiver symbol g (nodesDraft g.nodes).lines := by
  simp [property, ImageVector.property, cachedGetter, ImageVector.cachedGetter, lines_assignment]

lemma numbers_property (receiver symbol : String) (g : Graphic Float) :
    numbers (property receiver symbol g) = numbers (assignment symbol g) := by
  simp [property, cachedGetter]

/-- The file of an icon. -/
def icon (settings : Source.Settings) (group : Group) (symbol : String) (g : Graphic Float) :
    List (List Piece) :=
  plain (iconFile settings group symbol g).header
    ++ (property group.name symbol g
      ++ plain (if settings.preview then previewDraft group.name symbol else .empty).lines
      ++ plain [""])

lemma lines_icon (settings : Source.Settings) (group : Group) (symbol : String) (g : Graphic Float) :
    lines (icon settings group symbol g) = (iconFile settings group symbol g).lines := by
  simp only [icon, lines_append, lines_plain, lines_property]
  rfl

lemma numbers_icon (settings : Source.Settings) (group : Group) (symbol : String)
    (g : Graphic Float) : numbers (icon settings group symbol g)
      = g.width.toDp :: g.height.toDp :: g.viewport.x :: g.viewport.y :: numbers (nodes g.nodes) := by
  simp [icon, numbers_property, numbers_assignment]

end Pieces

end Iconsmith.ImageVector
