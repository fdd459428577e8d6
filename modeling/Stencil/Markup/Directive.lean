import Stencil.Markup.Segment
import Stencil.Text.Blank
import Stencil.Text.Search

/-!
# Directives

Reading a directive from the body of its region, and what a directive does.

* `Directive.parse`: the key up to the first `=`, the value after it, both trimmed, the value
  without one pair of enclosing double quotes;
* `Directive.effect`: only `import namespace` has one;
* `importsOf`: the imported namespaces in order of first occurrence, each once.
-/

namespace Stencil

open Text (trim cut)

/-- A value without the quote it starts with, and then without the quote it ends with. -/
def unquote : List Char → List Char
  | '"' :: inner => if inner.getLast? = some '"' then inner.dropLast else inner
  | value => value

/-- Reads the body of a directive region, without its `@`. A body with no `=` is all key. -/
def Directive.parseChars (body : List Char) : Directive :=
  let body := trim body
  match cut ['='] body with
  | some (key, value) => ⟨String.ofList (trim key), String.ofList (unquote (trim value))⟩
  | none => ⟨String.ofList body, ""⟩

/-- Reads the body of a directive region, without its `@`. -/
def Directive.parse (body : String) : Directive :=
  Directive.parseChars body.toList

/-- The key of the directives that import a namespace. -/
def importKey : String := "import namespace"

/-- What a single directive does. -/
inductive Effect where
  /-- Makes the names of a namespace visible to the generated program. -/
  | importing (ns : String)
  /-- Nothing. -/
  | inert
  deriving Repr, BEq, DecidableEq, Inhabited

/-- The effect of a directive, by its key. -/
def Directive.effect (d : Directive) : Effect :=
  if d.key = importKey then .importing d.value else .inert

/-- Adds a namespace to the imports, unless it is there already. -/
def addImport (imports : List String) (ns : String) : List String :=
  if ns ∈ imports then imports else imports ++ [ns]

/-- The namespaces that a list of directives imports, in order of first occurrence, each once. -/
def importsOf (directives : List Directive) : List String :=
  directives.foldl
    (fun imports d =>
      match d.effect with
      | .importing ns => addImport imports ns
      | .inert => imports)
    []

/-- The keys of the directives that do nothing, in order. -/
def inertKeys (directives : List Directive) : List String :=
  directives.filterMap fun d =>
    match d.effect with
    | .importing _ => none
    | .inert => some d.key

end Stencil
