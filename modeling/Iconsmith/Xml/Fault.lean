import Iconsmith.Xml.Document

/-!
# Faults of documents

What can be wrong with a document before the values in it are looked at: it is not well formed, its
root is another element than expected, or an element lacks an attribute.
-/

namespace Iconsmith.Xml

/-- What is wrong with a document or one of its elements. -/
inductive Fault where
  | malformed
  | unexpectedRoot (expected found : String)
  | missingAttribute (element name : String)
  deriving DecidableEq, Repr

/-- The message of a fault. -/
def Fault.message : Fault → String
  | malformed => "XML error"
  | unexpectedRoot expected found => s!"expected <{expected}> root element, found <{found}>"
  | missingAttribute element name => s!"missing required attribute '{name}' on <{element}>"

/-- The root element of a text, which must have the given local name. -/
def Document.readRoot (expected : String) (text : String) : Except Fault Node :=
  match Document.read? text with
  | none => .error .malformed
  | some root =>
    if root.localName = expected then .ok root
    else .error (.unexpectedRoot expected root.localName)

end Iconsmith.Xml
