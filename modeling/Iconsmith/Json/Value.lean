import Iconsmith.Json.Token

/-!
# JSON values

A value is a word, a number, a string, a list of values, or an object of named values. The names of
an object are kept in order, also those that occur twice.
-/

namespace Iconsmith.Json

/-- A value. -/
inductive Value where
  | null
  | bool (b : Bool)
  | number
  /-- A string, without content if its escapes stand for no text. -/
  | string (content : Option String)
  | array (values : List Value)
  | object (entries : List (Option String × Value))
  deriving Repr

namespace Value

/-- The tokens after those that were read. -/
abbrev Rest (ts : List Token) := { r : List Token // r.length < ts.length }

variable {t u : Token} {ts r r' : List Token}

theorem lt_tail (h : (t :: r).length < ts.length) : r.length < ts.length :=
  Nat.lt_of_succ_lt h

theorem lt_tail_trans (h : (t :: r).length < ts.length) (h' : r'.length < r.length) :
    r'.length < ts.length :=
  Nat.lt_trans h' (lt_tail h)

theorem lt_cons (h : r.length < ts.length) : r.length < (t :: ts).length :=
  Nat.lt_succ_of_lt h

theorem self_lt_cons : r.length < (t :: r).length :=
  Nat.lt_succ_self r.length

mutual

/-- Reads a value. -/
def read? (ts : List Token) : Option (Value × Rest ts) :=
  match ts with
  | .null :: r => some (.null, ⟨r, self_lt_cons⟩)
  | .bool b :: r => some (.bool b, ⟨r, self_lt_cons⟩)
  | .number :: r => some (.number, ⟨r, self_lt_cons⟩)
  | .string content :: r => some (.string content, ⟨r, self_lt_cons⟩)
  | .openBracket :: .closeBracket :: r => some (.array [], ⟨r, lt_cons self_lt_cons⟩)
  | .openBracket :: r =>
    match readElements? r with
    | some (vs, ⟨r', h⟩) => some (.array vs, ⟨r', lt_cons h⟩)
    | none => none
  | .openBrace :: .closeBrace :: r => some (.object [], ⟨r, lt_cons self_lt_cons⟩)
  | .openBrace :: r =>
    match readEntries? r with
    | some (es, ⟨r', h⟩) => some (.object es, ⟨r', lt_cons h⟩)
    | none => none
  | _ => none
termination_by (ts.length, 0)

/-- Reads values with commas between them, up to the closing bracket. -/
def readElements? (ts : List Token) : Option (List Value × Rest ts) :=
  match read? ts with
  | some (v, ⟨.closeBracket :: r, h⟩) => some ([v], ⟨r, lt_tail h⟩)
  | some (v, ⟨.comma :: r, h⟩) =>
    match readElements? r with
    | some (vs, ⟨r', h'⟩) => some (v :: vs, ⟨r', lt_tail_trans h h'⟩)
    | none => none
  | _ => none
termination_by (ts.length, 1)
decreasing_by
  · exact Prod.Lex.right _ Nat.zero_lt_one
  · exact Prod.Lex.left _ _ (lt_tail h)

/-- Reads names and values with commas between them, up to the closing brace. -/
def readEntries? (ts : List Token) : Option (List (Option String × Value) × Rest ts) :=
  match ts with
  | .string name :: .colon :: ts =>
    match read? ts with
    | some (v, ⟨.closeBrace :: r, h⟩) => some ([(name, v)], ⟨r, lt_cons (lt_cons (lt_tail h))⟩)
    | some (v, ⟨.comma :: r, h⟩) =>
      match readEntries? r with
      | some (es, ⟨r', h'⟩) =>
        some ((name, v) :: es, ⟨r', lt_cons (lt_cons (lt_tail_trans h h'))⟩)
      | none => none
    | _ => none
  | _ => none
termination_by (ts.length, 1)
decreasing_by
  · exact Prod.Lex.left _ _ (lt_cons self_lt_cons)
  · exact Prod.Lex.left _ _ (lt_cons (lt_cons (lt_tail h)))

end

/-- The value of a whole text. -/
def ofText? (text : String) : Option Value := do
  match ← read? (← Token.readAll? text.toList) with
  | (v, ⟨[], _⟩) => return v
  | _ => none

/-- The content of a string. -/
def string? : Value → Option String
  | string content => content
  | _ => none

/-- A truth value. -/
def bool? : Value → Option Bool
  | bool b => some b
  | _ => none

end Value

end Iconsmith.Json
