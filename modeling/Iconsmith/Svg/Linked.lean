import Iconsmith.Deflate.Gzip
import Iconsmith.Files.View
import Iconsmith.Raster.Header
import Iconsmith.Raster.Link
import Iconsmith.Svg.Document
import Iconsmith.Svg.Normalizer

/-!
# Linked pictures

A picture is made of pixels, or it is an SVG document of its own. It is held by the link to it or
kept in a file. Pictures in the document that is itself a picture are not shown. With the pictures at
hand a document can be read, which is how the program makes drawables of SVG files.
-/

namespace Iconsmith.Svg

/-! ### Sizes -/

/-- The size of a picture made of pixels. No side of it is empty. -/
def pixelSize? (format : Raster.Format) (bytes : List UInt8) : Option (Point Float32) := do
  let d ← format.size? bytes
  if d.width = 0 || d.height = 0 then none
  else some ⟨Float32.ofNat d.width, Float32.ofNat d.height⟩

/-- The bytes of the text of a document, which may be compressed. -/
def plainBytes? (bytes : List UInt8) : Option (List UInt8) :=
  if Deflate.Gzip.signature.isPrefixOf bytes then Deflate.Gzip.expand? bytes else some bytes

/-- The size of a picture that is a document. -/
def documentSize? (bytes : List UInt8) : Option (Point Float32) := do
  let text ← String.fromUTF8? ⟨(← plainBytes? bytes).toArray⟩
  let scene ← (Scene.ofText (fun _ => none) text).toOption
  return scene.size.map Single.ofDouble

/-- Whether pictures of a format are shown if nothing else tells their kind. -/
def isCommon (format : Raster.Format) : Bool :=
  [.jpeg, .png, .gif, .webp].contains format

/-- The format of a picture whose kind nothing else tells. -/
def commonFormat? (bytes : List UInt8) : Option Raster.Format :=
  (Raster.Format.ofBytes? bytes).filter isCommon

/-- The kinds of pictures made of pixels. The format of the data need not be that of the kind. -/
def pixelKinds : List String :=
  ["image/gif", "image/jpeg", "image/jpg", "image/png", "image/webp"]

/-- The size of the picture in a resource. What has no other kind may be a document. -/
def resourceSize? (r : Raster.Resource) : Option (Point Float32) :=
  let format? :=
    if pixelKinds.contains r.kind then Raster.Format.ofBytes? r.bytes
    else if r.kind = "text/plain" then commonFormat? r.bytes
    else none
  match format? with
  | some format => pixelSize? format r.bytes
  | none =>
    if ["image/svg+xml", "text/plain"].contains r.kind then documentSize? r.bytes
    else none

/-- The size of the picture in a file. Documents are known by the name of their file, which has an
extension in any case. -/
def fileSize? (files : FileView) (location : String) : Option (Point Float32) := do
  let extension ← Location.extension? location
  let bytes := (← (files.bytes location).toOption).toList
  if ["svg", "svgz"].contains extension.toLower then documentSize? bytes
  else pixelSize? (← commonFormat? bytes) bytes

/-- The size of the picture that a link leads to. -/
def pictureSize? (files : FileView) (link : String) : Option (Point Float32) :=
  match Raster.Link.ofText link with
  | .held target => target.bind resourceSize?
  | .file location => fileSize? files location

/-! ### Scenes -/

/-- The scene of a text, with pictures that may be kept in files. -/
def Scene.read (files : FileView) (text : String) : Except Fault Scene :=
  Scene.ofText (pictureSize? files) text

/-- The reader that the program is built with. It knows paths, plain rectangles and pictures with their
presentation attributes; it draws nothing for other shapes and passes over style sheets. -/
def Scene.reader : SceneReader := fun files text =>
  (Scene.read files text).mapError Fault.message

/-- Makes a drawable of the SVG file at a location, as the program does. -/
def normalize : FileView → String → Batch.Normalized :=
  Scene.reader.normalize

/-! ### Embedded files -/

/-- The file that an element embeds as a picture. -/
def linkedFile? (n : Xml.Node) : Option String :=
  match (attribute? n "href").map Raster.Link.ofText with
  | some (.file location) => if n.localName = "image" then some location else none
  | _ => none

/-- The files that the elements of a document embed. -/
def linkedFiles (text : String) : List String :=
  match Xml.Document.readTyped? text with
  | none => []
  | some root => (allElements [] root).filterMap fun e => linkedFile? e.1

end Iconsmith.Svg
