/-!
# Locations

A location is a text whose parts are kept apart by slashes. It is shown as it was written, but two
locations are the same when they name the same parts: repeated slashes and points that stand for
the current directory do not count, except at the very start.
-/

namespace Iconsmith

/-- A part of a location. -/
inductive LocationPart where
  /-- The slash at the start of a location. -/
  | root
  /-- The point at the start of a location. -/
  | here
  /-- Two points, for the directory above. -/
  | above
  | named (name : String)
  deriving DecidableEq, Repr

namespace Location

/-- The texts between the slashes. -/
def pieces (location : String) : List String :=
  (location.toList.splitOn '/').map String.ofList

/-- The part for a text between slashes; some mean nothing. -/
def part? (piece : String) : Option LocationPart :=
  if piece = "" || piece = "." then none
  else if piece = ".." then some .above
  else some (.named piece)

/-- The parts of a location. -/
def parts (location : String) : List LocationPart :=
  match pieces location with
  | [] => []
  | first :: rest =>
    let lead : List LocationPart :=
      if first = "" && !rest.isEmpty then [.root]
      else if first = "." then [.here]
      else (part? first).toList
    lead ++ rest.filterMap part?

/-- Whether two locations name the same parts. -/
def same (a b : String) : Bool :=
  parts a == parts b

/-- The name of the file or directory at a location, if its last part is a name. -/
def fileName? (location : String) : Option String :=
  match (parts location).getLast? with
  | some (.named name) => some name
  | _ => none

/-- What follows the last point of a name, unless that is the first character. -/
def extensionOf? (name : String) : Option String :=
  match name.toList.reverse.dropWhile (· ≠ '.') with
  | _ :: _ :: _ => some (String.ofList (name.toList.reverse.takeWhile (· ≠ '.')).reverse)
  | _ => none

/-- The extension of the file at a location. -/
def extension? (location : String) : Option String :=
  (fileName? location).bind extensionOf?

/-- A name without its extension and the point before that. -/
def stemOf (name : String) : String :=
  match name.toList.reverse.dropWhile (· ≠ '.') with
  | _ :: c :: cs => String.ofList (c :: cs).reverse
  | _ => name

/-- The name of the file at a location, without the extension. -/
def stem? (location : String) : Option String :=
  (fileName? location).map stemOf

/-- The location of something inside a directory. A location from the root replaces the
directory. -/
def join (directory location : String) : String :=
  if location.startsWith "/" then location
  else if directory = "" || directory.endsWith "/" then directory ++ location
  else directory ++ "/" ++ location

/-- Drops the pieces at the end that mean nothing, where the last piece comes first in the list. The
first piece of a location always means something. -/
def dropIdle : List String → List String
  | [] => []
  | [first] => [first]
  | piece :: pieces => if (part? piece).isNone then dropIdle pieces else piece :: pieces

/-- The location of the directory that holds what is at a location. -/
def parent (location : String) : String :=
  match dropIdle (pieces location).reverse with
  | [] | [_] => ""
  | _ :: above =>
    match dropIdle above with
    | [""] => "/"
    | kept => "/".intercalate kept.reverse

/-- The location that a list of names leads to. -/
def ofNames (names : List String) : String :=
  names.foldl join ""

end Location

end Iconsmith
