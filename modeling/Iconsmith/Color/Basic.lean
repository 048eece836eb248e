import Iconsmith.Text.Blank

/-!
# Colors

A color is eight upper case hex digits, alpha first. It is written as a literal after a hash sign,
in full or shortened, or as a reference to a named color. References are resolved in a
`Color.Table`, along chains of a bounded length.
-/

namespace Iconsmith

/-- A reference that cannot be resolved. -/
inductive ReferenceError where
  /-- No color has this name. -/
  | undefinedColor (reference : String)
  /-- An attribute of a theme, which only an application has. -/
  | themeAttribute (reference : String)
  /-- A reference to something else than a color, or a chain that is too long. -/
  | unsupported (reference : String)
  deriving DecidableEq, Repr

/-- The message of a reference error. -/
def ReferenceError.message : ReferenceError → String
  | undefinedColor r => s!"undefined color resource '{r}'"
  | themeAttribute r => s!"theme attribute '{r}' cannot be resolved outside an app"
  | unsupported r => s!"unsupported resource reference '{r}'"

namespace Color

/-- Why a text gives no color. -/
inductive Error where
  /-- Neither a literal nor a reference. -/
  | malformed (value : String)
  | reference (e : ReferenceError)
  deriving DecidableEq, Repr

/-- The message of a color error. -/
def Error.message : Error → String
  | malformed value => s!"invalid color '{value}'"
  | reference e => e.message

/-! ### Literals -/

/-- A hexadecimal digit in either case. -/
def isHexDigit (c : Char) : Bool :=
  c.isDigit || ('a' ≤ c && c ≤ 'f') || ('A' ≤ c && c ≤ 'F')

/-- Fills up a shortened literal: single digits are doubled, and a missing alpha is opaque. -/
def expand? (digits : List Char) : Option (List Char) :=
  match digits with
  | [r, g, b] => some ['F', 'F', r, r, g, g, b, b]
  | [a, r, g, b] => some [a, a, r, r, g, g, b, b]
  | [_, _, _, _, _, _] => some ('F' :: 'F' :: digits)
  | [_, _, _, _, _, _, _, _] => some digits
  | _ => none

/-- The color of a literal, which may have blanks around it. -/
def ofLiteral (value : String) : Except Error String :=
  match Text.trim value.toList with
  | '#' :: digits =>
    match if digits.all isHexDigit then expand? (digits.map Char.toUpper) else none with
    | some color => .ok (String.ofList color)
    | none => .error (.malformed value)
  | _ => .error (.malformed value)

/-! ### Tables of named colors -/

/-- Named colors in the order in which the names came up. The values are kept as they are written,
be it a literal or a reference to another color. -/
structure Table where
  entries : List (String × String)
  deriving DecidableEq, Repr

namespace Table

/-- The table without colors. -/
def empty : Table := ⟨[]⟩

/-- The value of a name. -/
def get? (t : Table) (name : String) : Option String :=
  t.entries.lookup name

/-- The names, in the order in which they came up. -/
def names (t : Table) : List String :=
  t.entries.map (·.1)

/-- The number of names. -/
def size (t : Table) : Nat :=
  t.entries.length

/-- Gives a name a value. A new name goes to the end, and a known one stays where it is. -/
def insert (t : Table) (name value : String) : Table :=
  if name ∈ t.names then
    ⟨t.entries.map fun e => if e.1 = name then (name, value) else e⟩
  else ⟨t.entries ++ [(name, value)]⟩

/-- The table of a list of names and values, of which later ones win. -/
def ofList (entries : List (String × String)) : Table :=
  entries.foldl (fun t e => t.insert e.1 e.2) empty

end Table

/-! ### References -/

/-- The colors that every application has. -/
def framework? : String → Option String
  | "black" => some "FF000000"
  | "white" => some "FFFFFFFF"
  | "transparent" => some "00000000"
  | _ => none

/-- What a value stands for. -/
inductive Meaning where
  | settled (result : Except Error String)
  /-- The same color as another value. -/
  | alias (target : String)

/-- What a value stands for in a table of named colors. -/
def meaning (t : Table) (value : String) : Meaning :=
  let refuse (e : ReferenceError) : Meaning := .settled (.error (.reference e))
  match value.toList with
  | '#' :: _ => .settled (ofLiteral value)
  | '?' :: _ => refuse (.themeAttribute value)
  | '@' :: reference =>
    match Text.dropLeading? "android:color/".toList reference with
    | some name =>
      match framework? (String.ofList name) with
      | some color => .settled (.ok color)
      | none => refuse (.undefinedColor value)
    | none =>
      match Text.dropLeading? "color/".toList reference with
      | some name =>
        match t.get? (String.ofList name) with
        | some target => .alias target
        | none => refuse (.undefinedColor value)
      | none => refuse (.unsupported value)
  | _ => .settled (.error (.malformed value))

/-- The color of a value, at the end of a chain with at most `n` further links. -/
def follow (t : Table) (n : Nat) (value : String) : Except Error String :=
  match meaning t value with
  | .settled result => result
  | .alias target =>
    match n with
    | 0 => .error (.reference (.unsupported value))
    | n + 1 => follow t n target

/-- The number of links that a chain of references may have. -/
def maxLinks : Nat := 8

/-- The color that a value stands for: a literal, a framework color, or a named color. -/
def resolve (t : Table) (value : String) : Except Error String :=
  follow t maxLinks (Text.trimString value)

end Color

end Iconsmith
