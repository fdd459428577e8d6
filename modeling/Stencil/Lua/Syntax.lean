import Stencil.Lua.Token

/-!
# Syntax trees

Lua programs with their variables resolved. A local variable is addressed by its distance: how
many variables that are still visible were declared after it, through all enclosing functions. A
global `x` is the field `x` of the variable `_ENV`.

Each operation that can fail carries the line that its error names.
-/

namespace Stencil.Lua

/-- A binary operator on two values. -/
inductive BinaryOp where
  | add | sub | mul | div | idiv | mod | pow
  | band | bor | bxor | shl | shr
  | eq | ne | lt | le | gt | ge
  deriving Repr, BEq, DecidableEq, Inhabited

/-- An operator on one value. -/
inductive UnaryOp where
  | neg | not | length | bnot
  deriving Repr, BEq, DecidableEq, Inhabited

/-- How a variable was declared. -/
inductive Attribute where
  | regular
  | constant
  /-- Its value is closed when the variable goes out of scope. -/
  | closing
  deriving Repr, BEq, DecidableEq, Inhabited

mutual

/-- An expression. -/
inductive Expr where
  | nil
  | true
  | false
  | number (n : Numeral)
  | string (s : Bytes)
  | vararg
  | function (f : Proto)
  /-- A local variable, by its distance; `outer` if it belongs to an enclosing function. -/
  | variable (distance : Nat) (name : Bytes) (outer : Bool)
  | index (object key : Expr) (line : Nat)
  | call (c : Call)
  | binary (op : BinaryOp) (left right : Expr) (line : Nat)
  /-- A chain of concatenations, from the left. -/
  | concat (operands : List Expr) (line : Nat)
  | unary (op : UnaryOp) (operand : Expr) (line : Nat)
  | and (left right : Expr)
  | or (left right : Expr)
  /-- An expression in parentheses, which has one value. -/
  | paren (e : Expr)
  | table (items : List Item) (line : Nat)

/-- A call. -/
inductive Call where
  | function (callee : Expr) (args : List Expr) (line : Nat)
  /-- A call of the field `name` of an object, which becomes the first argument. -/
  | method (object : Expr) (name : Bytes) (nameLine : Nat) (args : List Expr) (line : Nat)

/-- An item of a table constructor. -/
inductive Item where
  | positional (value : Expr)
  | keyed (key value : Expr) (line : Nat)

/-- A statement. -/
inductive Stmt where
  /-- Declares variables, the first value first. A closing variable is checked on `line`. -/
  | declare (names : List (Bytes × Attribute)) (values : List Expr) (line : Nat)
  | assign (targets : List Expr) (values : List Expr) (line : Nat)
  | invoke (c : Call)
  | block (body : List Stmt)
  | loopWhile (condition : Expr) (body : List Stmt)
  | loopUntil (body : List Stmt) (condition : Expr)
  | branch (condition : Expr) (thenBody elseBody : List Stmt)
  /-- Counts from `first` to `last`; the loop is prepared on `line`. -/
  | loopCount (first last step : Expr) (body : List Stmt) (line : Nat)
  /-- Calls an iterator on `line` until its first value is nil. -/
  | loopEach (names : Nat) (values : List Expr) (body : List Stmt) (line : Nat)
  | declareFunction (f : Proto)
  | giveBack (values : List Expr) (line : Nat)
  | leave
  /-- Goes to the label of this name in the nearest enclosing block that has it. -/
  | jump (label : Bytes)
  | label (label : Bytes)

/-- A function: how many parameters it has, whether it takes more arguments, its body, and the
chunk and the line it was defined in. -/
inductive Proto where
  | mk (params : Nat) (variadic : Bool) (body : List Stmt) (chunk : Bytes) (line : Nat)

end

instance : Inhabited Expr := ⟨.nil⟩
instance : Inhabited Stmt := ⟨.leave⟩
instance : Inhabited Proto := ⟨.mk 0 false [] ByteArray.empty 0⟩

namespace Proto

/-- How many parameters a function has. -/
def params : Proto → Nat
  | .mk n .. => n

/-- Whether a function takes more arguments than it has parameters. -/
def variadic : Proto → Bool
  | .mk _ v .. => v

/-- The body of a function. -/
def body : Proto → List Stmt
  | .mk _ _ b .. => b

/-- The name of the chunk a function was defined in, as messages show it. -/
def chunk : Proto → Bytes
  | .mk _ _ _ c _ => c

end Proto

namespace Expr

/-- How a message names the value of an expression: the kind of variable and its name. -/
def description : Expr → Option (String × Bytes)
  | .variable _ name outer => some (if outer then "upvalue" else "local", name)
  | .index object (.string key) _ =>
    match object with
    | .variable _ name _ => some (if name == bytesOf "_ENV" then "global" else "field", key)
    | _ => some ("field", key)
  | .index _ (.number (.int i)) _ =>
    some ("field", bytesOf (if 0 ≤ i && i ≤ 255 then "integer index" else "?"))
  | .index _ _ _ => some ("field", bytesOf "?")
  | .string s => some ("constant", s)
  | .paren e => e.description
  | _ => none

/-- The expression with the line on which its value is fetched, if it is a field that has none
yet. Lines count from 1. -/
def fetchedOn (line : Nat) : Expr → Expr
  | .index object key 0 => .index object key line
  | e => e

end Expr

end Stencil.Lua
