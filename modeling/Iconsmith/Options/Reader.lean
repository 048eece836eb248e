import Iconsmith.Json.Value
import Iconsmith.Options.Basic

/-!
# Reading options

Options are written as an object whose entries are the options by name, or as a list of their
values in a fixed order. What is not there keeps its default value, and unknown entries are passed
over.
-/

namespace Iconsmith.Options

/-- The names of the options, in the order of a list of their values. -/
def fields : List String :=
  ["package", "accessor_name", "all_assets_property_name", "generate_preview", "backend",
   "vector_type", "color_resources"]

/-- A choice among named values: the name, or an object with the name and nothing. -/
def choice? {α : Type} (ofName? : String → Option α) : Json.Value → Option α
  | .string (some name) => ofName? name
  | .object [(some name, .null)] => ofName? name
  | _ => none

/-- A location, or nothing. -/
def location? : Json.Value → Option (Option String)
  | .null => some none
  | .string (some location) => some (some location)
  | _ => none

/-- Sets the option with a given name. -/
def set? (o : Options) (name : String) (v : Json.Value) : Option Options :=
  match name with
  | "package" => v.string?.map fun x => { o with package := x }
  | "accessor_name" => v.string?.map fun x => { o with accessor := x }
  | "all_assets_property_name" => v.string?.map fun x => { o with allAssets := x }
  | "generate_preview" => v.bool?.map fun x => { o with preview := x }
  | "backend" => (choice? Source.Backend.ofOptionName? v).map fun x => { o with backend := x }
  | "vector_type" => (choice? InputFormat.ofName? v).map fun x => { o with inputFormat := x }
  | "color_resources" => (location? v).map fun x => { o with colorResources := x }
  | _ => some o

/-- Sets the options of a list of entries. -/
def setAll? (o : Options) (entries : List (String × Json.Value)) : Option Options :=
  entries.foldlM (fun o e => o.set? e.1 e.2) o

/-- The entry of a name with content. -/
def member? (e : Option String × Json.Value) : Option (String × Json.Value) :=
  e.1.map (·, e.2)

/-- The options that a value stands for. No option may be set twice, and no value may be left
over. -/
def ofValue? : Json.Value → Option Options
  | .object entries => do
    let entries ← entries.mapM member?
    if !decide ((entries.map (·.1)).filter (· ∈ fields)).Nodup then none
    setAll? {} entries
  | .array values =>
    if fields.length < values.length then none else setAll? {} (fields.zip values)
  | _ => none

/-- The options that a text stands for. -/
def ofText? (text : String) : Option Options :=
  Json.Value.ofText? text >>= ofValue?

/-- The options in a file. -/
def load (files : FileView) (location : String) : Except Failure Options :=
  match files.text location with
  | .error fault => .error (.filesystem location fault)
  | .ok text =>
    match ofText? text with
    | some o => .ok o
    | none => .error (.unreadableOptions location)

end Iconsmith.Options
