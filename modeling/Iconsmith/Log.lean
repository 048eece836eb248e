/-!
# Log records

While sources are generated, records are kept of what happens. Each has a level and a source, the
part of the program that made it.
-/

namespace Iconsmith.Log

/-- How much a record matters. -/
inductive Level where
  | error
  | warning
  | info
  | debug
  deriving DecidableEq, Repr

namespace Level

/-- The rank of a level; what matters most comes first. -/
def rank : Level → Nat
  | error => 0
  | warning => 1
  | info => 2
  | debug => 3

/-- The word for a level. -/
def name : Level → String
  | error => "Error"
  | warning => "Warning"
  | info => "Info"
  | debug => "Debug"

end Level

/-- A part of the program. -/
inductive Source where
  | program
  | batch
  | normalizer
  | names
  | shapes
  | drawables
  | resources
  deriving DecidableEq, Repr

/-- What a part is called in the log. -/
def Source.name : Source → String
  | program => "vecgen"
  | batch => "vecgen_batch::batch"
  | normalizer => "vecgen_batch::normalize"
  | names => "vecgen_codegen::naming"
  | shapes => "vecgen_codegen::emitters::swiftui"
  | drawables => "vecgen_parser::drawable"
  | resources => "vecgen_parser::resources"

/-- A record. -/
structure Record where
  level : Level
  source : Source
  text : String
  deriving DecidableEq, Repr

/-- The line of a record. -/
def Record.line (r : Record) : String :=
  r.level.name ++ " (in " ++ r.source.name ++ "): " ++ r.text

/-- The records that matter at least as much as a level. -/
def upTo (level : Level) (records : List Record) : List Record :=
  records.filter fun r => r.level.rank ≤ level.rank

end Iconsmith.Log
