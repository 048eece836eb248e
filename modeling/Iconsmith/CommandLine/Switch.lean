import Iconsmith.Text.Blank

/-!
# Switches

The words of a command line are inputs and switches. A switch has a long name after two hyphens, and
may have a letter after one hyphen; letters can be run together. The value of a switch is attached
to it or is the next word. After a word of two hyphens everything is an input.
-/

namespace Iconsmith.CommandLine

/-- Something that can be switched on or given a value. -/
inductive Switch where
  | accessor
  | package
  | backend
  | inputFormat
  | noPreview
  | config
  | colors
  | output
  | verbose
  | quiet
  | help
  | version
  deriving DecidableEq, Repr

namespace Switch

/-- All switches, in the order in which they are explained. -/
def all : List Switch :=
  [accessor, package, backend, inputFormat, noPreview, config, colors, output, verbose, quiet,
   help, version]

/-- The long name of a switch. -/
def long : Switch → String
  | accessor => "accessor"
  | package => "package"
  | backend => "backend"
  | inputFormat => "type"
  | noPreview => "no-preview"
  | config => "config"
  | colors => "colors"
  | output => "output"
  | verbose => "verbose"
  | quiet => "quiet"
  | help => "help"
  | version => "version"

/-- The letter of a switch. -/
def letter? : Switch → Option Char
  | accessor => some 'a'
  | package => some 'p'
  | backend => some 'b'
  | inputFormat => some 't'
  | noPreview => none
  | config => some 'c'
  | colors => none
  | output => some 'o'
  | verbose => some 'v'
  | quiet => some 'q'
  | help => some 'h'
  | version => some 'V'

/-- What the value of a switch is called, if it has one. -/
def valueName? : Switch → Option String
  | accessor => some "NAME"
  | package => some "PKG"
  | backend => some "BACKEND"
  | inputFormat => some "TYPE"
  | config | colors => some "FILE"
  | output => some "DIR"
  | noPreview | verbose | quiet | help | version => none

/-- Whether a switch has a value. -/
def takesValue (s : Switch) : Bool :=
  s.valueName?.isSome

/-- The switch with a given long name. -/
def ofLong? (name : String) : Option Switch :=
  all.find? (·.long = name)

/-- The switch with a given letter. -/
def ofLetter? (c : Char) : Option Switch :=
  all.find? (·.letter? = some c)

end Switch

/-- What a word says. -/
inductive Given where
  | input (word : String)
  | flag (s : Switch)
  | value (s : Switch) (text : String)
  /-- A word that makes no sense. -/
  | fault
  deriving DecidableEq, Repr

/-- What a word says by itself, and the switch whose value is the next word, if there is one. -/
structure Reading where
  givens : List Given
  open? : Option Switch := none
  deriving Repr

namespace Reading

/-- The reading of a switch with the value attached to it, if there is one. -/
def ofSwitch (s : Switch) (attached? : Option String) : Reading :=
  match s.takesValue, attached? with
  | true, some text => ⟨[.value s text], none⟩
  | true, none => ⟨[], some s⟩
  | false, some _ => ⟨[.fault], none⟩
  | false, none => ⟨[.flag s], none⟩

/-- The reading of what follows two hyphens: a long name, with the value after an equals sign. -/
def ofLong (body : List Char) : Reading :=
  let name := String.ofList (body.takeWhile (· ≠ '='))
  let attached? := match body.dropWhile (· ≠ '=') with
    | _ :: text => some (String.ofList text)
    | [] => none
  match Switch.ofLong? name with
  | some s => ofSwitch s attached?
  | none => ⟨[.fault], none⟩

/-- The value that is attached to a letter. There may be an equals sign before it. -/
def attached? : List Char → Option String
  | [] => none
  | '=' :: text => some (String.ofList text)
  | text => some (String.ofList text)

/-- The reading of letters that are run together. The first one with a value ends them. -/
def ofLetters : List Char → Reading
  | [] => ⟨[], none⟩
  | c :: rest =>
    match Switch.ofLetter? c with
    | none => ⟨[.fault], none⟩
    | some s =>
      if s.takesValue then ofSwitch s (attached? rest)
      else
        let r := ofLetters rest
        { r with givens := .flag s :: r.givens }

/-- The reading of a word before the two hyphens that end all switches. -/
def ofWord (word : String) : Reading :=
  match word.toList with
  | '-' :: '-' :: body => ofLong body
  | '-' :: c :: rest => ofLetters (c :: rest)
  | _ => ⟨[.input word], none⟩

end Reading

/-- Whether a word is no value, but a switch. -/
def isSwitchLike (word : String) : Bool :=
  word.startsWith "-" && word ≠ "-"

/-- What the words of a command line say. -/
def readWords : List String → List Given
  | [] => []
  | word :: rest =>
    if word = "--" then rest.map .input
    else
      let r := Reading.ofWord word
      match r.open? with
      | none => r.givens ++ readWords rest
      | some s =>
        match rest with
        | [] => r.givens ++ [.fault]
        | text :: rest =>
          if isSwitchLike text then r.givens ++ [.fault]
          else r.givens ++ .value s text :: readWords rest

end Iconsmith.CommandLine
