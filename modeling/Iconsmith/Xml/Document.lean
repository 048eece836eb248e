import Iconsmith.Xml.Entity

/-!
# Documents

A document is a tree of elements with text and remarks between them. Elements and attributes are
known by their namespace and their local name; `Document.read?` gives the root element of a text,
or nothing if the text is not well formed.
-/

namespace Iconsmith.Xml

/-- A name with the namespace that its qualifier stands for. -/
structure Name where
  space : Option String
  name : String
  deriving DecidableEq, Repr

/-- A named value of an element. -/
structure Attribute where
  name : Name
  value : String
  deriving DecidableEq, Repr

/-- A node of a document. -/
inductive Node where
  | element (name : Name) (attributes : List Attribute) (children : List Node)
  | text (content : String)
  /-- A comment or a processing instruction. -/
  | remark
  deriving Repr

namespace Node

/-- Whether a node is an element. -/
def isElement : Node → Bool
  | element .. => true
  | _ => false

/-- The local name of an element. -/
def localName : Node → String
  | element n _ _ => n.name
  | _ => ""

/-- The namespace of an element. -/
def space : Node → Option String
  | element n _ _ => n.space
  | _ => none

/-- The nodes directly inside an element. -/
def children : Node → List Node
  | element _ _ children => children
  | _ => []

/-- The attributes of an element, in the order in which they are written. -/
def attributes : Node → List Attribute
  | element _ attributes _ => attributes
  | _ => []

/-- The elements directly inside an element. -/
def elements (n : Node) : List Node :=
  n.children.filter isElement

/-- The value of an attribute of an element. -/
def attribute? (n : Node) (space : Option String) (name : String) : Option String :=
  (n.attributes.find? (·.name == ⟨space, name⟩)).map (·.value)

/-- The text at the very start of an element. -/
def leadingText? (n : Node) : Option String :=
  match n.children with
  | text content :: _ => some content
  | _ => none

end Node

/-! ### Namespaces -/

/-- The namespaces in scope, by qualifier; the innermost declaration comes first. -/
abbrev Scope := List (Option String × String)

/-- The namespace to which the qualifier `xml` is bound. -/
def xmlSpace : String := "http://www.w3.org/XML/1998/namespace"

/-- The namespace of declarations, to which nothing can be bound. -/
def declarationSpace : String := "http://www.w3.org/2000/xmlns/"

/-- The namespace of a qualifier. Without a qualifier it is the default one, if there is one. -/
def Scope.resolve? (scope : Scope) (qualifier : String) : Option (Option String) :=
  if qualifier = "" then some (scope.lookup none)
  else (scope.lookup (some qualifier)).map some

/-- Adds the declaration of a qualifier to those of the same tag. -/
def Scope.declare? (own : Scope) (qualifier uri : String) : Option Scope :=
  if uri = declarationSpace || (qualifier == "xml") != (uri == xmlSpace)
    || (own.lookup (some qualifier)).isSome then none
  else some (if uri = xmlSpace then own else own ++ [(some qualifier, uri)])

/-- Adds the declaration of the default namespace to those of the same tag. -/
def Scope.declareDefault? (own : Scope) (uri : String) : Option Scope :=
  if uri = declarationSpace || uri = xmlSpace then none else some (own ++ [(none, uri)])

/-- Sorts the settings of a tag into declarations, which follow those given, and attributes. -/
def splitSettings? (own : Scope) :
    List (QName × String) → Option (Scope × List (QName × String))
  | [] => some (own, [])
  | (n, value) :: rest =>
    if n.qualifier = "xmlns" then do
      splitSettings? (← own.declare? n.name value) rest
    else if n.name = "xmlns" then do
      splitSettings? (← own.declareDefault? value) rest
    else do
      let (own, plain) ← splitSettings? own rest
      return (own, (n, value) :: plain)

/-- Gives an attribute its namespace. Without a qualifier an attribute has none. -/
def resolveAttribute? (scope : Scope) (n : QName) (value : String) : Option Attribute :=
  if n.qualifier = "" then some ⟨⟨none, n.name⟩, value⟩
  else if n.qualifier = "xml" then some ⟨⟨some xmlSpace, n.name⟩, value⟩
  else (scope.lookup (some n.qualifier)).map fun uri => ⟨⟨some uri, n.name⟩, value⟩

/-- An element that has begun, with the nodes inside it so far, the last one first. -/
structure Frame where
  tag : QName
  name : Name
  attributes : List Attribute
  scope : Scope
  inside : List Node

/-- The element of a frame. -/
def Frame.close (f : Frame) : Node :=
  .element f.name f.attributes f.inside.reverse

/-- The value for which some text between quotes stands. -/
def valueOf? (raw : List Char) : Option String :=
  (expand? (normalizeValue raw)).map String.ofList

/-- Begins an element inside a scope. No two attributes of an element have the same name. -/
def Frame.begin? (outer : Scope) (tag : QName) (settings : List (QName × List Char)) :
    Option Frame := do
  if tag.qualifier = "xmlns" then none
  let settings ← settings.mapM fun (n, raw) => return (n, ← valueOf? raw)
  let (own, plain) ← splitSettings? [] settings
  let scope := own ++ outer
  let attributes ← plain.mapM fun (n, value) => resolveAttribute? scope n value
  if !decide (attributes.map (·.name)).Nodup then none
  let space ← scope.resolve? tag.qualifier
  return ⟨tag, ⟨space, tag.name⟩, attributes, scope, []⟩

/-- Adds text to the nodes of an element. Text that follows text belongs to the same node. -/
def addText (content : String) : List Node → List Node
  | .text before :: nodes => .text (before ++ content) :: nodes
  | nodes => .text content :: nodes

/-! ### Trees -/

/-- The elements that have begun, innermost first, and the root once it has ended. -/
structure Document where
  frames : List Frame
  root : Option Node

namespace Document

/-- Adds nodes to the innermost element. -/
def add? (d : Document) (f : List Node → List Node) : Option Document :=
  match d.frames with
  | [] => none
  | top :: frames => some { d with frames := { top with inside := f top.inside } :: frames }

/-- Puts a finished element where it belongs: into the innermost element, or at the root, of which
there is only one. -/
def place? (d : Document) (n : Node) : Option Document :=
  match d.frames with
  | [] => if d.root.isSome then none else some { d with root := some n }
  | _ => d.add? (n :: ·)

/-- Takes the next token into a document. -/
def step? (d : Document) : Token → Option Document
  | .startTag tag settings empty => do
    let outer := (d.frames.head?.map (·.scope)).getD []
    let f ← Frame.begin? outer tag settings
    if empty then d.place? f.close
    else if d.frames.isEmpty && d.root.isSome then none
    else some { d with frames := f :: d.frames }
  | .endTag tag =>
    match d.frames with
    | [] => none
    | top :: frames => if top.tag = tag then place? { d with frames := frames } top.close else none
  | .text raw =>
    if d.frames.isEmpty then if raw.all Text.isLayout then some d else none
    else do
      let content ← expand? (normalizeText raw)
      d.add? (addText (String.ofList content))
  | .verbatim raw => d.add? (addText (String.ofList (normalizeVerbatim raw)))
  | .remark => if d.frames.isEmpty then some d else d.add? (.remark :: ·)
  | .typeDeclaration _ => none

/-- The root element that some tokens make. -/
def ofTokens? (tokens : List Token) : Option Node := do
  let d ← tokens.foldlM step? ⟨[], none⟩
  if d.frames.isEmpty then d.root else none

/-- The tokens of a text, without a mark of its encoding and a declaration of its version. -/
def tokens? (s : String) : Option (List Token) :=
  let s := s.toList
  let s := (Text.dropLeading? ['\uFEFF'] s).getD s
  Token.skipDeclaration? s >>= Token.readAll?

/-- The root element of a document without a declaration of its type. -/
def read? (s : String) : Option Node :=
  tokens? s >>= ofTokens?

/-- The entities that are declared before the root element, and the tokens from there on. -/
def entitiesOf : List Token → Entities × List Token
  | [] => ([], [])
  | .typeDeclaration es :: ts => (es, ts.dropWhile Token.isOutside)
  | t :: ts => if t.isOutside then entitiesOf ts else ([], t :: ts)

/-- The tokens of the root element, and those behind it. -/
def splitRoot : List Token → List Token × List Token
  | t@(.startTag _ _ false) :: ts =>
    let (inside, behind) := Token.splitAtEnd 0 ts
    (t :: inside, behind)
  | ts => (ts.take 1, ts.drop 1)

/-- The root element of a document that may declare its type before it. -/
def readTyped? (s : String) : Option Node := do
  let (es, ts) := entitiesOf (← tokens? s)
  let (root, behind) := splitRoot ts
  if behind.all Token.isOutside then es.replaceAll? root >>= ofTokens? else none

end Document

end Iconsmith.Xml
