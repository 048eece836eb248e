import Iconsmith.Svg.Placement
import Iconsmith.Xml.Document

/-!
# Elements

How the attributes of an SVG document are looked up. A style attribute that an element lacks is that
of the nearest element around it, so an element comes with a `Chain` of those that hold it.
-/

namespace Iconsmith.Svg

/-- The namespace of SVG. -/
def svgSpace : String := "http://www.w3.org/2000/svg"

/-- The namespace of links. -/
def linkSpace : String := "http://www.w3.org/1999/xlink"

/-- The elements that have a meaning. Others are passed over, with all that is inside them. -/
def elementNames : List String :=
  ["a", "circle", "clipPath", "defs", "ellipse", "feBlend", "feColorMatrix", "feComponentTransfer",
   "feComposite", "feConvolveMatrix", "feDiffuseLighting", "feDisplacementMap", "feDistantLight",
   "feDropShadow", "feFlood", "feFuncA", "feFuncB", "feFuncG", "feFuncR", "feGaussianBlur",
   "feImage", "feMerge", "feMergeNode", "feMorphology", "feOffset", "fePointLight",
   "feSpecularLighting", "feSpotLight", "feTile", "feTurbulence", "filter", "g", "image", "line",
   "linearGradient", "marker", "mask", "path", "pattern", "polygon", "polyline", "radialGradient",
   "rect", "stop", "svg", "switch", "symbol", "text", "textPath", "tref", "tspan", "use"]

/-- Whether a node is an element of SVG. -/
def isSvgElement (n : Xml.Node) : Bool :=
  n.isElement && (n.space == none || n.space == some svgSpace) && elementNames.contains n.localName

/-- The elements of SVG directly inside an element. -/
def elements (n : Xml.Node) : List Xml.Node :=
  n.children.filter isSvgElement

/-- The namespaces in which attributes have a meaning. -/
def attributeSpaces : List (Option String) :=
  [none, some svgSpace, some linkSpace, some Xml.xmlSpace]

/-- The text of an attribute. -/
def attribute? (n : Xml.Node) (name : String) : Option String :=
  (n.attributes.find? fun a => a.name.name = name && attributeSpaces.contains a.name.space).map
    (·.value)

/-! ### Elements and what is around them -/

/-- An element and the elements that hold it, from the inside out. -/
abbrev Chain := List Xml.Node

/-- Whether an element is a part of the text that holds it. A path that text follows is one only
right inside of that text. -/
def isPartOfText (around : Chain) (n : Xml.Node) : Bool :=
  isSvgElement n && (["a", "tref", "tspan"].contains n.localName
    || (n.localName = "textPath" && around.head?.any (·.localName = "text")))

mutual

/-- The parts of a text in a part of it, each with what is around it. -/
def allParts (around : Chain) : Xml.Node → List (Xml.Node × Chain)
  | n@(.element _ _ children) =>
    if isPartOfText around n then
      (n, around) :: if n.localName = "tref" then [] else allPartsOf (n :: around) children
    else []
  | _ => []

/-- The parts of a text among some nodes and inside them. -/
def allPartsOf (around : Chain) : List Xml.Node → List (Xml.Node × Chain)
  | [] => []
  | n :: ns => allParts around n ++ allPartsOf around ns

end

mutual

/-- An element and those inside it at any depth, in the order of the document and each with what is
around it. -/
def allElements (around : Chain) : Xml.Node → List (Xml.Node × Chain)
  | n@(.element _ _ children) =>
    if isSvgElement n then
      (n, around) ::
        if n.localName = "text" then allPartsOf (n :: around) children
        else allElementsOf (n :: around) children
    else []
  | _ => []

/-- The elements among some nodes and inside them. -/
def allElementsOf (around : Chain) : List Xml.Node → List (Xml.Node × Chain)
  | [] => []
  | n :: ns => allElements around n ++ allElementsOf around ns

end

/-- The element with an identifier, and what is around it. Of several the last one counts. -/
def withId? (root : Xml.Node) (id : String) : Option (Xml.Node × Chain) :=
  (allElements [] root).reverse.find? fun e => attribute? e.1 "id" == some id

/-- The depth of the deepest node that is looked at. Those inside of text or of elements without a
meaning are not. -/
def depth : Xml.Node → Nat
  | n@(.element _ _ children) =>
    if isSvgElement n && n.localName ≠ "text" then depthOf children else 0
  | _ => 0
where
  /-- One more than the depth of the deepest of some nodes, or zero without any. -/
  depthOf : List Xml.Node → Nat
    | [] => 0
    | n :: ns => max (depth n + 1) (depthOf ns)

/-! ### Inheritance -/

/-- The text of an attribute. The word `inherit` stands for that of the element around. -/
def own? (name : String) : Chain → Option String
  | [] => none
  | n :: c =>
    match attribute? n name with
    | some "inherit" => own? name c
    | text => text

/-- The text of an attribute, or that of the nearest element around that has it. -/
def inherited? (c : Chain) (name : String) : Option String :=
  c.findSome? fun n => (attribute? n name).filter (· ≠ "inherit")

/-- What an inherited attribute is read as, or what stands for an attribute that is not there or
cannot be read. -/
def inherited {α : Type} (c : Chain) (name : String) (read : String → Option α) (default : α) : α :=
  ((inherited? c name).bind read).getD default

/-- The chain from the nearest element that has an attribute. -/
def holder (c : Chain) (name : String) : Chain :=
  c.dropWhile fun n => (attribute? n name).isNone

/-! ### Measures and placements -/

/-- The length to which percentages refer that are neither across nor down. -/
def diagonal (view : Point Float32) : Float32 :=
  Float32.sqrt ((view.x * view.x + view.y * view.y) / 2)

/-- A measure in an attribute, where `whole` is what a hundred percent are. -/
def measure (n : Xml.Node) (name : String) (whole : Float32) (default : Measure) : Float32 :=
  (((attribute? n name).bind Measure.ofText?).getD default).resolve whole

/-- The map in an attribute, which counts only if it is usable. -/
def placement (n : Xml.Node) (name : String) : Affine Float32 :=
  (((attribute? n name).bind Placement.ofText?).filter Placement.isUsable).getD Affine.identity

/-- Whether an element and what is inside it takes part in the drawing. -/
def isShown (n : Xml.Node) : Bool :=
  attribute? n "display" != some "none"
    && (((attribute? n "transform").bind Placement.ofText?).all Placement.isUsable)

end Iconsmith.Svg
