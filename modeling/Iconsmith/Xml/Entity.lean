import Iconsmith.Xml.Token

/-!
# Entities

A reference to an entity stands for the text that is declared for it: in a value for its characters,
and between tags for what is marked up in it. References in that text are followed in turn, down to
`maxDepth` levels, and no more than `maxReferences` of them.
-/

namespace Iconsmith.Xml

/-! ### Pieces -/

/-- A piece of a text in which references stand. -/
inductive Piece where
  | plain (s : List Char)
  /-- A reference, by what is inside it. -/
  | reference (inside : List Char)
  deriving Repr

namespace Piece

/-- Puts a character before some pieces. -/
def cons (c : Char) : List Piece → List Piece
  | plain s :: ps => plain (c :: s) :: ps
  | ps => plain [c] :: ps

/-- The pieces of a text, or nothing if a reference in it has no end. -/
def ofText? : List Char → Option (List Piece)
  | [] => some []
  | c :: s =>
    if c = '&' then
      match _h : s.dropWhile (· ≠ ';') with
      | [] => none
      | _ :: r => do
        let ps ← ofText? r
        return reference (s.takeWhile (· ≠ ';')) :: ps
    else do
      let ps ← ofText? s
      return cons c ps
termination_by s => s.length
decreasing_by
  · have h := (List.dropWhile_sublist (· ≠ ';') (l := s)).length_le
    rw [_h] at h
    simp only [List.length_cons] at h ⊢
    omega
  · simp

end Piece

/-- A reference as it is written. -/
def written (inside : List Char) : List Char :=
  '&' :: inside ++ [';']

/-- A reference as it is written, or a space if it is to a line end or a tab. -/
def writtenSpaced (inside : List Char) : List Char :=
  if (referenced? inside).any Text.isLayout then [' '] else written inside

namespace Entities

/-! ### Limits -/

/-- How deep texts of entities are followed. -/
def maxDepth : Nat := 10

/-- How many references are followed in the text of one entity and in those that it leads to. -/
def maxReferences : Nat := 255

/-- A computation that counts the references it follows. -/
abbrev Counting := StateT Nat Option

/-- Follows one more reference. -/
def follow : Counting Unit := fun count =>
  if count < maxReferences then some ((), count + 1) else none

/-- What a computation gives that has a count of its own. -/
def alone {α : Type} (x : Counting α) : Counting α := fun count =>
  (x.run 0).map fun r => (r.1, count)

/-! ### Values -/

/-- Replaces the references to entities in a value by `entity`. -/
def valueWith (entity : String → Counting (List Char)) (plain : List Char → List Char)
    (other : List Char → List Char) (raw : List Char) : Counting (List Char) := do
  let ps ← Piece.ofText? raw
  let parts ← ps.mapM fun
    | .plain s => pure (plain s)
    | .reference inside =>
      match entityName? inside with
      | some name => entity name
      | none => pure (other inside)
  return parts.flatten

/-- Replaces the references to entities in a value that is part of an entity itself. Line ends and
tabs become spaces in it, also those that are written as references. -/
def valueInside (es : Entities) : Nat → List Char → Counting (List Char)
  | 0 => valueWith (fun _ => failure) normalizeValue writtenSpaced
  | depth + 1 =>
    valueWith (fun name => do
      follow
      valueInside es depth (← es.lookup name)) normalizeValue writtenSpaced

/-- Replaces the references to entities in a value of the document. -/
def value (es : Entities) : List Char → Counting (List Char) :=
  valueWith (fun name => do
    alone (valueInside es (maxDepth - 1) (← es.lookup name))) id written

/-! ### Tokens -/

/-- Replaces the references to entities in a token, by `value` in values and by `entity` between
tags. -/
def tokenWith (value : List Char → Counting (List Char))
    (entity : String → Counting (List Token)) : Token → Counting (List Token)
  | .startTag name attributes empty => do
    let attributes ← attributes.mapM fun (n, raw) => return (n, ← value raw)
    return [.startTag name attributes empty]
  | .text raw => do
    let ps ← Piece.ofText? raw
    let parts ← ps.mapM fun
      | .plain s => pure [Token.text s]
      | .reference inside =>
        match entityName? inside with
        | some name => entity name
        | none => pure [Token.text (written inside)]
    return parts.flatten
  | t => return [t]

/-- The tokens in the text of an entity, as far as they count. An end tag without a start tag ends
it, but there must be some start tag before. -/
def ownTokens? (text : List Char) : Option (List Token) := do
  let (own, _) := Token.splitAtEnd 0 (← Token.readAll? text)
  if own.any Token.isEndTag && !own.any Token.isStartTag then none else return own

/-- The tokens in the text of an entity, with references to entities replaced. -/
def tokensInside (es : Entities) : Nat → List Char → Counting (List Token)
  | 0, text => do
    let parts ← (← ownTokens? text).mapM (tokenWith (valueInside es 0) fun _ => failure)
    return parts.flatten
  | depth + 1, text => do
    let parts ← (← ownTokens? text).mapM
      (tokenWith (valueInside es (depth + 1)) fun name => do
        follow
        tokensInside es depth (← es.lookup name))
    return parts.flatten

/-- Replaces the references to entities in a token of the document. -/
def token (es : Entities) : Token → Counting (List Token) :=
  tokenWith es.value fun name => do
    alone (tokensInside es (maxDepth - 1) (← es.lookup name))

/-- Replaces the references to entities in the tokens of an element. -/
def replaceAll? (es : Entities) (tokens : List Token) : Option (List Token) :=
  (do
    let parts ← tokens.mapM es.token
    return parts.flatten : Counting (List Token)).run' 0

end Entities

end Iconsmith.Xml
