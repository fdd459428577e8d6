import Stencil.Lua.Action

/-!
# Operations on values

Indexing, arithmetic, comparison, concatenation and length of any values, with metamethods. An
operation that a value does not support is an error about the line that it stands on.

* `index`, `setIndex`: the fields of a value;
* `operate`, `complement`, `concatAll`, `length`: operators with a result;
* `equals`, `lessThan`, `lessEqual`: comparisons.
-/

namespace Stencil.Lua

/-- How a message names a value: the kind of variable and its name, if there is one. -/
abbrev Description := Option (String × Bytes)

/-- A description in parentheses. -/
def descriptionText : Description → Bytes
  | some (kind, name) => bytesOf (" (" ++ kind ++ " '") ++ name ++ bytesOf "')"
  | none => ByteArray.empty

/-- Raises that a value of its type does not support an operation. -/
def Run.unsupported {α : Type} (line : Nat) (operation : String) (v : Value) (d : Description) :
    Run α := do
  let s ← Run.store
  fault line (bytesOf ("attempt to " ++ operation ++ " a ") ++ s.typeName v ++ bytesOf " value" ++
    descriptionText d)

/-- The site of a call of a metamethod. -/
def Site.ofEvent (line : Nat) (event : String) : Site :=
  ⟨line, some ("metamethod", bytesOf event)⟩

namespace Run

/-! ## Fields -/

/-- The value of a field, through at most `fuel` values that stand in for each other. -/
def indexThrough (line : Nat) : Nat → Description → Value → Value → Run Value
  | 0, _, _, _ => fault line (bytesOf "'__index' chain too long; possibly a loop")
  | fuel + 1, d, object, key => do
    let s ← store
    let found :=
      match object, Key.ofValue key with
      | .table p, some k => s.rawGet p k
      | _, _ => .nil
    if !found.isNil then return found
    else
      let handler := s.metamethod object "__index"
      match object, handler with
      | .table _, .nil => return .nil
      | _, .nil => unsupported line "index" object d
      | _, handler =>
        if handler.isFunction then callOne handler [object, key] (.ofEvent line "index")
        else indexThrough line fuel none handler key

/-- The value of a field. -/
def index (line : Nat) (d : Description) (object key : Value) : Run Value :=
  indexThrough line 2000 d object key

/-- Sets the value of a field of a table, without metamethods. -/
def rawSetAt (line : Nat) (place : Nat) (key value : Value) : Run Unit :=
  match Key.ofValue key with
  | some k => modify fun s => s.rawSet place k value
  | none =>
    fault line (bytesOf (if key.isNil then "table index is nil" else "table index is NaN"))

/-- Sets the value of a field, through at most `fuel` values that stand in for each other. -/
def setIndexThrough (line : Nat) :
    Nat → Description → Value → Value → Value → Run Unit
  | 0, _, _, _, _ => fault line (bytesOf "'__newindex' chain too long; possibly a loop")
  | fuel + 1, d, object, key, value => do
    let s ← store
    let found :=
      match object, Key.ofValue key with
      | .table p, some k => s.rawGet p k
      | _, _ => .nil
    let handler := if found.isNil then s.metamethod object "__newindex" else .nil
    match object, handler with
    | .table p, .nil => rawSetAt line p key value
    | _, .nil => unsupported line "index" object d
    | _, handler =>
      if handler.isFunction then do
        let _ ← call handler [object, key, value] (.ofEvent line "newindex")
      else setIndexThrough line fuel none handler key value

/-- Sets the value of a field. -/
def setIndex (line : Nat) (d : Description) (object key value : Value) : Run Unit :=
  setIndexThrough line 2000 d object key value

/-! ## Arithmetic -/

end Run

/-- The event of an operator. -/
def BinaryOp.event : BinaryOp → String
  | .add => "add"
  | .sub => "sub"
  | .mul => "mul"
  | .div => "div"
  | .idiv => "idiv"
  | .mod => "mod"
  | .pow => "pow"
  | .band => "band"
  | .bor => "bor"
  | .bxor => "bxor"
  | .shl => "shl"
  | .shr => "shr"
  | .eq | .ne => "eq"
  | .lt | .gt => "lt"
  | .le | .ge => "le"

namespace Run

/-- The metamethod for two values: of the first, or else of the second. -/
def binaryHandler (s : Store) (a b : Value) (event : String) : Value :=
  match s.metamethod a event with
  | .nil => s.metamethod b event
  | handler => handler

/-- The result of the metamethod of an operator, or an error that names the value to blame. -/
def operateSpecially (line : Nat) (op : BinaryOp) (a b : Value) (da db : Description) :
    Run Value := do
  let s ← store
  match binaryHandler s a b ("__" ++ op.event) with
  | .nil =>
    match op.isBitwise, a.number?, b.number? with
    | true, some x, some _ =>
      let d := if x.toInt.isNone then da else db
      fault line (bytesOf "number" ++ descriptionText d ++
        bytesOf " has no integer representation")
    | bitwise, x, _ =>
      let what := if bitwise then "perform bitwise operation on" else "perform arithmetic on"
      if x.isNone then unsupported line what a da else unsupported line what b db
  | handler => callOne handler [a, b] (.ofEvent line op.event)

/-- The message about an operator on numbers that has no result. -/
def arithFaultText : ArithFault → String
  | .divideByZero => "attempt to divide by zero"
  | .moduloByZero => "attempt to perform 'n%%0'"
  | .noInteger => "number has no integer representation"

/-- The result of an arithmetic or bitwise operator. Values that are not numbers are left to their
metamethods, strings too. -/
def operate (line : Nat) (op : BinaryOp) (a b : Value) (da db : Description) : Run Value :=
  match a.number?, b.number? with
  | some x, some y =>
    match arithmetic op x y with
    | .ok n => pure (.ofNumeral n)
    | .error .noInteger => operateSpecially line op a b da db
    | .error e => fault line (bytesOf (arithFaultText e))
  | _, _ => operateSpecially line op a b da db

/-- The negative of a value. -/
def negate (line : Nat) (a : Value) (d : Description) : Run Value := do
  match a with
  | .int i => return .int (-i)
  | .float f => return .float (-f)
  | a =>
    match (← store).metamethod a "__unm" with
    | .nil => unsupported line "perform arithmetic on" a d
    | handler => callOne handler [a, a] (.ofEvent line "unm")

/-- The bitwise complement of a value. -/
def complement (line : Nat) (a : Value) (d : Description) : Run Value := do
  match a.number?.bind Numeral.toInt with
  | some i => return .int (~~~i)
  | none =>
    match (← store).metamethod a "__bnot" with
    | .nil =>
      if a.number?.isSome then
        fault line (bytesOf "number" ++ descriptionText d ++
          bytesOf " has no integer representation")
      else unsupported line "perform bitwise operation on" a d
    | handler => callOne handler [a, a] (.ofEvent line "bnot")

/-- The length of a value. -/
def length (line : Nat) (a : Value) (d : Description) : Run Value := do
  match a with
  | .string b => return .int (Int64.ofNat b.size)
  | a =>
    let s ← store
    match s.metamethod a "__len" with
    | .nil =>
      match a with
      | .table p => return .int (Int64.ofNat (s.table p).border)
      | a => unsupported line "get length of" a d
    | handler => callOne handler [a, a] (.ofEvent line "len")

/-! ## Concatenation -/

/-- Two values one after the other. -/
def concatPair (line : Nat) (a b : Value) (da db : Description) : Run Value := do
  match a.toBytes, b.toBytes with
  | some x, some y => return .string (x ++ y)
  | x, _ =>
    match binaryHandler (← store) a b "__concat" with
    | .nil =>
      if x.isNone then unsupported line "concatenate" a da
      else unsupported line "concatenate" b db
    | handler => callOne handler [a, b] (.ofEvent line "concat")

/-- The values of a list, the last first, put before a value one after the other. -/
def concatBefore (line : Nat) (b : Value) (db : Description) :
    List (Value × Description) → Run Value
  | [] => pure b
  | (a, da) :: rest => do
    let v ← concatPair line a b da db
    concatBefore line v none rest

/-- The values of a list one after the other. The last two are joined first. -/
def concatAll (line : Nat) (operands : List (Value × Description)) : Run Value :=
  match operands.reverse with
  | [] => pure (.string ByteArray.empty)
  | (b, db) :: rest => concatBefore line b db rest

/-! ## Comparisons -/

/-- Whether two values are equal. Tables and host objects may have a metamethod to tell. -/
def equals (line : Nat) (a b : Value) : Run Bool := do
  if a.rawEqual b then return true
  else
    match a, b with
    | .table _, .table _ | .object _, .object _ =>
      match binaryHandler (← store) a b "__eq" with
      | .nil => return false
      | handler => return (← callOne handler [a, b] (.ofEvent line "eq")).truth
    | _, _ => return false

/-- Whether a string comes before another, byte by byte. -/
def bytesBelow (a b : Bytes) : Bool :=
  a.data.toList < b.data.toList

/-- The outcome of the metamethod of a comparison, or an error that names the types. -/
def compareSpecially (line : Nat) (event : String) (a b : Value) : Run Bool := do
  let s ← store
  match binaryHandler s a b ("__" ++ event) with
  | .nil =>
    let x := s.typeName a
    let y := s.typeName b
    if x == y then fault line (bytesOf "attempt to compare two " ++ x ++ bytesOf " values")
    else fault line (bytesOf "attempt to compare " ++ x ++ bytesOf " with " ++ y)
  | handler => return (← callOne handler [a, b] (.ofEvent line event)).truth

/-- Whether a value is below another. -/
def lessThan (line : Nat) (a b : Value) : Run Bool :=
  match a.number?, b.number?, a, b with
  | some x, some y, _, _ => pure (x.below y)
  | _, _, .string x, .string y => pure (bytesBelow x y)
  | _, _, a, b => compareSpecially line "lt" a b

/-- Whether a value is below another, or equal to it. -/
def lessEqual (line : Nat) (a b : Value) : Run Bool :=
  match a.number?, b.number?, a, b with
  | some x, some y, _, _ => pure (x.atMost y)
  | _, _, .string x, .string y => pure (!bytesBelow y x)
  | _, _, a, b => compareSpecially line "le" a b

/-- The result of a binary operator. -/
def binary (line : Nat) (op : BinaryOp) (a b : Value) (da db : Description) : Run Value :=
  match op with
  | .eq => return .bool (← equals line a b)
  | .ne => return .bool (!(← equals line a b))
  | .lt => return .bool (← lessThan line a b)
  | .le => return .bool (← lessEqual line a b)
  | .gt => return .bool (← lessThan line b a)
  | .ge => return .bool (← lessEqual line b a)
  | op => operate line op a b da db

/-- The result of an operator on one value. -/
def unary (line : Nat) (op : UnaryOp) (a : Value) (d : Description) : Run Value :=
  match op with
  | .not => pure (.bool !a.truth)
  | .neg => negate line a d
  | .length => length line a d
  | .bnot => complement line a d

/-! ## Texts -/

/-- The text of a value without metamethods. -/
def plainText (s : Store) : Value → Bytes
  | .nil => bytesOf "nil"
  | .bool b => bytesOf (toString b)
  | v =>
    match v.toBytes with
    | some b => b
    | none => s.address v

/-- The text of a value. A metamethod for it must give a string. -/
def textOf (v : Value) : Run Bytes := do
  let s ← store
  match s.metamethod v "__tostring" with
  | .nil => return plainText s v
  | handler =>
    let r ← callOne handler [v] ⟨0, none⟩
    match r.toBytes with
    | some b => return b
    | none => complain (bytesOf "'__tostring' must return a string")

end Run

end Stencil.Lua
