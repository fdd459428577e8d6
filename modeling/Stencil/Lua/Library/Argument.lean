import Stencil.Lua.Operation

/-!
# Arguments of library functions

Reading the arguments of a library function: as integers, numbers, strings and tables. An argument
that cannot be read is an error that names its place and the function.

Arguments count from 1. Strings that spell numbers count as numbers, and numbers as strings.
-/

namespace Stencil.Lua.Argument

/-- An argument; nil if it is missing. -/
def value (n : Nat) (vs : List Value) : Value :=
  vs.getD (n - 1) .nil

/-- Whether an argument is missing or nil. -/
def isAbsent (n : Nat) (vs : List Value) : Bool :=
  (value n vs).isNil

/-- The name under which a library function is known by itself. -/
def ownName : Value → Bytes
  | .builtin b => bytesOf (b.fullName.getD "?")
  | _ => bytesOf "?"

/-- Raises that an argument is bad. The object of a method call does not count. -/
def refuse {α : Type} (n : Nat) (reason : Bytes) : Run α := do
  let i ← Run.inspect 0 0
  let (name, n) :=
    match i.name with
    | some ("method", name) => (name, n - 1)
    | some (_, name) => (name, n)
    | none => (ownName i.callee, n)
  match i.name, n with
  | some ("method", _), 0 =>
    Run.complain (bytesOf "calling '" ++ name ++ bytesOf "' on bad self (" ++ reason ++
      bytesOf ")")
  | _, n =>
    Run.complain (bytesOf ("bad argument #" ++ toString n ++ " to '") ++ name ++ bytesOf "' (" ++
      reason ++ bytesOf ")")

/-- Raises that an argument is bad, if a condition does not hold. -/
def require (condition : Bool) (n : Nat) (reason : String) : Run Unit :=
  if condition then pure () else refuse n (bytesOf reason)

/-- Raises that an argument is not of the type that was expected. -/
def refuseType {α : Type} (n : Nat) (expected : String) (vs : List Value) : Run α := do
  let s ← Run.store
  let v := value n vs
  let actual :=
    if vs.length < n then bytesOf "no value"
    else
      match s.metamethod v "__name" with
      | .string name => name
      | _ => bytesOf v.typeName
  refuse n (bytesOf (expected ++ " expected, got ") ++ actual)

/-- An argument that must be there, nil or not. -/
def any (n : Nat) (vs : List Value) : Run Value :=
  if vs.length < n then refuse n (bytesOf "value expected") else pure (value n vs)

/-- An argument that is a number. -/
def number (n : Nat) (vs : List Value) : Run Numeral :=
  match (value n vs).toNumber with
  | some x => pure x
  | none => refuseType n "number" vs

/-- An argument that is a number, as a float. -/
def float (n : Nat) (vs : List Value) : Run Float := do
  return (← number n vs).toFloat

/-- An argument that is an integer. -/
def integer (n : Nat) (vs : List Value) : Run Int64 :=
  match (value n vs).toNumber with
  | some x =>
    match x.toInt with
    | some i => pure i
    | none => refuse n (bytesOf "number has no integer representation")
  | none => refuseType n "number" vs

/-- An argument that is an integer, or else a given one if it is absent. -/
def integerOr (n : Nat) (vs : List Value) (otherwise : Int64) : Run Int64 :=
  if isAbsent n vs then pure otherwise else integer n vs

/-- An argument that is a string. -/
def string (n : Nat) (vs : List Value) : Run Bytes :=
  match (value n vs).toBytes with
  | some b => pure b
  | none => refuseType n "string" vs

/-- An argument that is a string, or else a given one if it is absent. -/
def stringOr (n : Nat) (vs : List Value) (otherwise : Bytes) : Run Bytes :=
  if isAbsent n vs then pure otherwise else string n vs

/-- An argument that is one of some options. -/
def option (n : Nat) (options : List String) (name : Bytes) : Run Bytes :=
  if options.any fun o => bytesOf o == name then pure name
  else refuse n (bytesOf "invalid option '" ++ name ++ bytesOf "'")

/-- Checks that so many arguments from one on are strings. -/
def strings (vs : List Value) : Nat → Nat → Run Unit
  | 0, _ => pure ()
  | count + 1, n => do
    let _ ← string n vs
    strings vs count (n + 1)

/-- An argument that is a table. -/
def table (n : Nat) (vs : List Value) : Run Nat :=
  match value n vs with
  | .table p => pure p
  | _ => refuseType n "table" vs

/-- An argument that is a function. -/
def function (n : Nat) (vs : List Value) : Run Value :=
  let v := value n vs
  if v.isFunction then pure v else refuseType n "function" vs

end Stencil.Lua.Argument
