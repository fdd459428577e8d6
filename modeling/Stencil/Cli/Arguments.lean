/-!
# Command-line arguments

What the words after the program's name ask for. Flags may be written together, values may follow
an equals sign, and everything after `--` names a file. The empty word names no file.
-/

namespace Stencil

/-- What a command line asks for. -/
structure Arguments where
  /-- Make artifacts anew even if they are newer than their template. -/
  force : Bool := false
  /-- Report warnings and errors only. -/
  quiet : Bool := false
  /-- The extension of artifacts, if it was given. -/
  extension : Option String := none
  /-- The extension of templates to discover, if it was given. -/
  templateExtension : Option String := none
  /-- The templates to transform. -/
  files : List String := []
  deriving Repr, BEq, DecidableEq, Inhabited

/-- The reading of a command line. -/
inductive Request where
  | transform (a : Arguments)
  | help
  | version
  /-- The command line is not one of this program. -/
  | misuse
  deriving Repr, BEq, DecidableEq, Inhabited

namespace Arguments

/-- Sets a flag that may be given once. -/
def setForce (a : Arguments) : Option Arguments :=
  if a.force then none else some { a with force := true }

/-- Sets a flag that may be given once. -/
def setQuiet (a : Arguments) : Option Arguments :=
  if a.quiet then none else some { a with quiet := true }

/-- Sets an option that may be given once, by its name. -/
def setOption (a : Arguments) (name value : String) : Option Arguments :=
  if name = "extension" then
    if a.extension.isSome then none else some { a with extension := some value }
  else if name = "template-extension" then
    if a.templateExtension.isSome then none else some { a with templateExtension := some value }
  else none

/-- Whether a word can be the value of an option: it must not look like a flag. -/
def isValue (word : String) : Bool :=
  match word.toList with
  | '-' :: _ :: _ => false
  | _ => true

/-- What a group of short flags does to the arguments. -/
def readFlags (a : Arguments) : List Char → Request
  | [] => .transform a
  | 'h' :: _ => .help
  | 'V' :: _ => .version
  | 'f' :: rest =>
    match a.setForce with
    | some a => readFlags a rest
    | none => .misuse
  | 'q' :: rest =>
    match a.setQuiet with
    | some a => readFlags a rest
    | none => .misuse
  | _ => .misuse

/-- Reads the words of a command line. -/
def read (a : Arguments) : List String → Request
  | [] => .transform a
  | "" :: _ => .misuse
  | "--" :: rest => if "" ∈ rest then .misuse else .transform { a with files := a.files ++ rest }
  | "--help" :: _ => .help
  | "--version" :: _ => .version
  | "--force" :: rest =>
    match a.setForce with
    | some a => read a rest
    | none => .misuse
  | "--quiet" :: rest =>
    match a.setQuiet with
    | some a => read a rest
    | none => .misuse
  | word :: rest =>
    match word.toList with
    | '-' :: '-' :: name =>
      let key := String.ofList (name.takeWhile (· ≠ '='))
      match name.dropWhile (· ≠ '='), rest with
      | _ :: value, rest =>
        match a.setOption key (String.ofList value) with
        | some a => read a rest
        | none => .misuse
      | [], value :: rest =>
        if isValue value then
          match a.setOption key value with
          | some a => read a rest
          | none => .misuse
        else .misuse
      | [], [] => .misuse
    | '-' :: c :: flags =>
      match readFlags a (c :: flags) with
      | .transform a => read a rest
      | request => request
    | _ => read { a with files := a.files ++ [word] } rest

end Arguments

/-- Reads a command line. -/
def Request.ofWords (words : List String) : Request :=
  Arguments.read {} words

end Stencil
