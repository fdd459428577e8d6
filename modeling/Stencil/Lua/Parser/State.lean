import Stencil.Lua.Syntax

/-!
# The state of a parser

A parser reads tokens one after another and keeps the variables and labels in scope. It stops at
the first error.

* `Parser.advance`, `expect`, `expectClosing`: reading tokens;
* `Parser.declareVariable`, `resolve`: variables;
* `Parser.openBlock`, `closeBlock`, `declareLabel`, `requestJump`: blocks, labels and jumps.
-/

namespace Stencil.Lua

/-- Why a source is refused. -/
structure Malformed where
  message : Bytes
  /-- Whether the source is nested too deeply, which is not an error of syntax. -/
  tooDeep : Bool
  deriving Inhabited

/-- A variable in scope. -/
structure Variable where
  name : Bytes
  kind : Attribute
  /-- The value of a variable that is known when its declaration is read; it is not stored. -/
  value : Option Expr
  /-- The depth of the function that the variable belongs to. -/
  level : Nat
  deriving Inhabited

/-- A label in scope, with the line it stands on. -/
structure Label where
  name : Bytes
  line : Nat
  /-- How many variables of the function are in scope at the label. -/
  active : Nat
  deriving Inhabited

/-- A jump whose label was not seen yet. -/
structure PendingJump where
  /-- The name of the label; none for a `break`. -/
  label : Option Bytes
  line : Nat
  /-- How many variables of the function are in scope at the jump. -/
  active : Nat
  deriving Inhabited

/-- A block that is being read. -/
structure BlockScope where
  isLoop : Bool
  labels : List Label
  pending : List PendingJump
  /-- How many variables of the function were in scope where the block starts. -/
  active : Nat
  deriving Inhabited

/-- A function that is being read. -/
structure FunctionScope where
  /-- The line of the function; 0 for the main function. -/
  line : Nat
  variadic : Bool
  blocks : List BlockScope
  /-- The variables of enclosing functions that it uses, by their place from the outside. -/
  captured : List Nat
  deriving Inhabited

/-- The state of a parser. -/
structure ParserState where
  chunk : Bytes
  current : Lexeme
  rest : List Lexeme
  /-- The line of the last token that was read. -/
  line : Nat
  /-- The line of the last token that was passed. -/
  lastLine : Nat
  /-- The variables in scope, the innermost first. -/
  scope : List Variable
  /-- The functions being read, the innermost first. -/
  functions : List FunctionScope
  /-- How deeply the source is nested here. -/
  depth : Nat
  deriving Inhabited

/-- A parser of an `α`. -/
abbrev Parser (α : Type) := StateT ParserState (Except Malformed) α

namespace Parser

/-- Refuses the source for a reason. -/
def fail {α : Type} (message : Bytes) : Parser α :=
  throw ⟨message, false⟩

/-- The place of a message: a chunk and a line. -/
def placed (chunk : Bytes) (line : Nat) (message : Bytes) : Bytes :=
  chunk ++ bytesOf (":" ++ toString line ++ ": ") ++ message

/-- Refuses the source for a reason that is found after it was read. -/
def failAt {α : Type} (message : Bytes) : Parser α := do
  let s ← get
  fail (placed s.chunk s.line message)

/-- Refuses the source for a reason, near the current token. -/
def failNear {α : Type} (message : Bytes) : Parser α := do
  let s ← get
  failAt (message ++ bytesOf " near " ++ s.current.shown)

/-- The current token. -/
def token : Parser Token := do
  return (← get).current.token

/-- The line of the last token that was read. -/
def line : Parser Nat := do
  return (← get).line

/-- The line of the last token that was passed. -/
def lastLine : Parser Nat := do
  return (← get).lastLine

/-- Refuses the source if a token is a fault. -/
def checkFault (l : Lexeme) : Parser Unit := do
  match l.token with
  | .fault reason => fail (placed (← get).chunk l.line reason)
  | _ => pure ()

/-- Passes the current token. -/
def advance : Parser Unit := do
  let s ← get
  match s.rest with
  | [] => set { s with lastLine := s.line }
  | l :: rest =>
    checkFault l
    set { s with current := l, rest := rest, lastLine := s.line, line := l.line }

/-- The token after the current one, which is read but not passed. -/
def peek : Parser Token := do
  let s ← get
  match s.rest with
  | [] => return .eof
  | l :: _ =>
    checkFault l
    set { s with line := l.line }
    return l.token

/-- Whether a token is a mark. -/
def isMark (t : Token) (m : Mark) : Bool :=
  match t with
  | .mark n => n == m
  | _ => false

/-- Whether the current token is a mark. -/
def atMark (m : Mark) : Parser Bool := do
  return isMark (← token) m

/-- Passes the current token if it is a mark, and tells whether it was. -/
def accept (m : Mark) : Parser Bool := do
  if ← atMark m then
    advance
    return true
  else return false

/-- Passes a mark that must be there. -/
def expect (m : Mark) : Parser Unit := do
  unless ← accept m do
    failNear (bytesOf ("'" ++ m.spelling ++ "' expected"))

/-- Passes the mark that closes what `opening` opened on line `start`. -/
def expectClosing (closing opening : Mark) (start : Nat) : Parser Unit := do
  unless ← accept closing do
    if start == (← line) then
      failNear (bytesOf ("'" ++ closing.spelling ++ "' expected"))
    else
      failNear (bytesOf ("'" ++ closing.spelling ++ "' expected (to close '" ++
        opening.spelling ++ "' at line " ++ toString start ++ ")"))

/-- Passes a name that must be there. -/
def expectName : Parser Bytes := do
  match ← token with
  | .name n =>
    advance
    return n
  | _ => failNear (bytesOf "<name> expected")

/-- The most levels that a source may be nested. -/
def maxDepth : Nat := 199

/-- Reads something one level deeper. -/
def deeper {α : Type} (p : Parser α) : Parser α := do
  let s ← get
  if s.depth ≥ maxDepth then throw ⟨bytesOf "C stack overflow", true⟩
  set { s with depth := s.depth + 1 }
  let a ← p
  modify fun s => { s with depth := s.depth - 1 }
  return a

/-- How many functions enclose the place that is being read, itself counted. -/
def level (s : ParserState) : Nat :=
  s.functions.length

/-- How many variables of the current function are in scope. -/
def activeCount (s : ParserState) : Nat :=
  (s.scope.takeWhile fun v => v.level == level s).length

/-- Where a function is, in messages about its limits. -/
def functionPlace (f : FunctionScope) : String :=
  if f.line == 0 then "main function" else "function at line " ++ toString f.line

/-- Refuses a function that has too many of something. -/
def failLimit {α : Type} (what : String) (limit : Nat) (f : FunctionScope) : Parser α :=
  failNear (bytesOf ("too many " ++ what ++ " (limit is " ++ toString limit ++ ") in " ++
    functionPlace f))

/-- Refuses a function with more than 200 variables, of which `more` are not in scope yet. -/
def checkVariables (more : Nat) : Parser Unit := do
  let s ← get
  if activeCount s + more > 200 then
    failLimit "local variables" 200 (s.functions.headD default)

/-- Puts a variable in scope. -/
def declareVariable (name : Bytes) (kind : Attribute) (value : Option Expr) : Parser Unit :=
  modify fun s => { s with scope := ⟨name, kind, value, level s⟩ :: s.scope }

/-- What a name stands for: a variable with its place and its distance, if it is one. -/
def findVariable (name : Bytes) : List Variable → Nat → Option (Variable × Nat × Nat)
  | [], _ => none
  | v :: rest, distance =>
    if v.name == name then some (v, rest.length, distance)
    else findVariable name rest (if v.value.isSome then distance else distance + 1)

/-- Notes that functions use a variable from outside. -/
def capture (place level : Nat) : Parser Unit := do
  let s ← get
  let inner := s.functions.length - level
  let functions := s.functions.mapIdx fun i f =>
    if i < inner && !f.captured.contains place then { f with captured := place :: f.captured }
    else f
  set { s with functions }
  match functions.find? fun f => f.captured.length > 255 with
  | some f => failLimit "upvalues" 255 f
  | none => pure ()

/-- The expression of a variable in scope, and its declaration. -/
def resolveVariable (name : Bytes) : Parser (Option (Expr × Variable)) := do
  let s ← get
  match findVariable name s.scope 0 with
  | none => return none
  | some (v, place, distance) =>
    match v.value with
    | some value => return some (value, v)
    | none =>
      let outer := v.level < level s
      if outer then capture place v.level
      return some (.variable distance name outer, v)

/-- The expression of a name: a variable in scope, or a field of `_ENV`. The declaration is given
too, if there is one. -/
def resolve (name : Bytes) : Parser (Expr × Option Variable) := do
  match ← resolveVariable name with
  | some (e, v) => return (e, some v)
  | none =>
    match ← resolveVariable (bytesOf "_ENV") with
    | some (env, _) => return (.index env (.string name) 0, none)
    | none => return (.index .nil (.string name) 0, none)

/-- Changes the innermost function. -/
def modifyFunction (f : FunctionScope → FunctionScope) : Parser Unit :=
  modify fun s =>
    match s.functions with
    | [] => s
    | current :: rest => { s with functions := f current :: rest }

/-- The blocks of the innermost function, the innermost first. -/
def blocks : Parser (List BlockScope) := do
  return ((← get).functions.headD default).blocks

/-- Starts a block. -/
def openBlock (isLoop : Bool) : Parser Unit := do
  let active := activeCount (← get)
  modifyFunction fun f => { f with blocks := ⟨isLoop, [], [], active⟩ :: f.blocks }

/-- The message about a jump that leads nowhere. -/
def unresolvedJump (j : PendingJump) : Bytes :=
  match j.label with
  | none => bytesOf ("break outside loop at line " ++ toString j.line)
  | some name =>
    bytesOf "no visible label '" ++ name ++
      bytesOf ("' for <goto> at line " ++ toString j.line)

/-- Ends a block: its variables go out of scope, a loop ends its breaks, and other jumps wait for
a label in the enclosing block. -/
def closeBlock : Parser Unit := do
  match ← blocks with
  | [] => pure ()
  | b :: outer =>
    let pending := if b.isLoop then b.pending.filter fun j => j.label.isSome else b.pending
    let pending := pending.map fun j => { j with active := min j.active b.active }
    match outer with
    | [] =>
      match pending with
      | [] => modifyFunction fun f => { f with blocks := [] }
      | j :: _ => failAt (unresolvedJump j)
    | o :: outer =>
      modifyFunction fun f =>
        { f with blocks := { o with pending := o.pending ++ pending } :: outer }
    modify fun s => { s with scope := s.scope.drop (activeCount s - b.active) }

/-- Adds to the innermost block. -/
def modifyBlock (f : BlockScope → BlockScope) : Parser Unit :=
  modifyFunction fun g =>
    match g.blocks with
    | [] => g
    | b :: rest => { g with blocks := f b :: rest }

/-- A label in scope. -/
def findLabel (name : Bytes) (bs : List BlockScope) : Option Label :=
  (bs.flatMap BlockScope.labels).find? fun l => l.name == name

/-- Notes a jump to a label, or out of a loop. -/
def requestJump (label : Option Bytes) (line : Nat) : Parser Unit := do
  let bs ← blocks
  let known :=
    match label with
    | some name => (findLabel name bs).isSome
    | none => false
  unless known do
    let active := activeCount (← get)
    modifyBlock fun b => { b with pending := b.pending ++ [⟨label, line, active⟩] }

/-- Declares a label. `last` tells whether nothing but the end of the block follows: then the
variables of the block are out of scope at the label. -/
def declareLabel (name : Bytes) (line : Nat) (last : Bool) : Parser Unit := do
  let bs ← blocks
  match findLabel name bs with
  | some l =>
    failAt (bytesOf "label '" ++ name ++
      bytesOf ("' already defined on line " ++ toString l.line))
  | none =>
    let s ← get
    let b := bs.headD default
    let active := if last then b.active else activeCount s
    match b.pending.find? fun j => j.label == some name && j.active < active with
    | some j =>
      let intruded := (s.scope.drop (activeCount s - j.active - 1)).headD default
      failAt (bytesOf "<goto " ++ name ++ bytesOf ("> at line " ++ toString j.line) ++
        bytesOf " jumps into the scope of local '" ++ intruded.name ++ bytesOf "'")
    | none =>
      modifyBlock fun b =>
        { b with
          labels := b.labels ++ [⟨name, line, active⟩]
          pending := b.pending.filter fun j => j.label != some name }

end Parser

end Stencil.Lua
