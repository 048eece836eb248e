import Iconsmith.Drawable.Error
import Iconsmith.Files.View

/-!
# Failures

Why a file gives no source, or why a run cannot begin. Failures fall into classes, one of which is
that nothing could be done at all.
-/

namespace Iconsmith

/-- The classes of failures. -/
inductive FailureClass where
  | inputFormat
  | malformedVector
  | unresolvedReference
  | filesystem
  /-- The input or the options of the whole run are of no use. -/
  | fatal
  deriving DecidableEq, Repr

namespace FailureClass

/-- All classes, in the order in which they are counted. -/
def all : List FailureClass :=
  [inputFormat, malformedVector, unresolvedReference, filesystem, fatal]

end FailureClass

/-- What went wrong, with the location of the file that it is about. -/
inductive Failure where
  | inputFormat (location extension : String)
  /-- The file is no drawable. -/
  | malformed (location : String) (e : Drawable.Error)
  | unresolvedReference (location : String) (e : ReferenceError)
  | filesystem (location : String) (fault : FileFault)
  /-- The file cannot be made a drawable. -/
  | normalize (location message : String)
  /-- No source can express what is in the file. -/
  | emit (location message : String)
  | invalidInput (location reason : String)
  | configuration (reason : String)
  /-- The text of an options file holds no options. -/
  | unreadableOptions (location : String)

namespace Failure

/-- The failure of a file that is not accepted as a drawable. -/
def ofDrawable (location : String) : Drawable.Error → Failure
  | .reference e => unresolvedReference location e
  | e => malformed location e

/-- The class of a failure. -/
def kind : Failure → FailureClass
  | inputFormat .. => .inputFormat
  | malformed .. | normalize .. | emit .. => .malformedVector
  | unresolvedReference .. => .unresolvedReference
  | filesystem .. => .filesystem
  | invalidInput .. | configuration _ | unreadableOptions _ => .fatal

/-- The location of the file that a failure is about. -/
def location? : Failure → Option String
  | inputFormat location _ | malformed location _ | unresolvedReference location _
  | filesystem location _ | normalize location _ | emit location _ | invalidInput location _ =>
    some location
  | configuration _ | unreadableOptions _ => none

/-- The message of a failure. -/
def message : Failure → String
  | inputFormat location extension => s!"unsupported input format '{extension}' for {location}"
  | malformed location e => s!"malformed vector drawable {location}: " ++ e.message
  | unresolvedReference location e => s!"unresolved reference in {location}: " ++ e.message
  | filesystem location fault =>
    match fault with
    | .other text => s!"filesystem error on {location}: {text}"
    | _ => s!"filesystem error on {location}"
  | normalize location message => s!"failed to normalize {location}: {message}"
  | emit location message => s!"failed to generate source for {location}: {message}"
  | invalidInput location reason => s!"invalid input {location}: {reason}"
  | configuration reason => s!"invalid configuration: {reason}"
  | unreadableOptions _ => "invalid configuration"

end Failure

end Iconsmith
