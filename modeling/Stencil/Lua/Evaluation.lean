import Stencil.Lua.Operation

/-!
# Evaluation

Expressions and statements as parts of a running function. The function sees its variables through
an environment: their places in the store, the innermost first.

A local variable that stands left in an operation is read when the operation takes place, after
what stands right of it; every other operand is read where it stands.

* `Expr.eval`, `Call.eval`, `Expr.evalList`: the value of an expression, all results of a call, all
  values of a list;
* `Stmt.exec`, `execBlock`: the effect of a statement, of the statements of a block;
* `Closure.apply`: the results of a function for arguments.
-/

namespace Stencil.Lua

/-- What a function sees: the places of its variables, the innermost first, and the arguments that
it has no parameters for. -/
structure Env where
  cells : List Nat
  extra : List Value
  /-- Whether a value is closed before the function ends: then no call can end it. -/
  guarded : Bool
  deriving Inhabited

namespace Env

/-- The place of a variable, by its distance. -/
def place (env : Env) (distance : Nat) : Nat :=
  env.cells.getD distance 0

/-- The environment with one more variable. -/
def push (env : Env) (cell : Nat) : Env :=
  { env with cells := cell :: env.cells }

/-- The environment with more variables; the last is the innermost. -/
def pushAll (env : Env) (cells : List Nat) : Env :=
  { env with cells := cells.reverse ++ env.cells }

end Env

/-! ## Operands and targets -/

/-- An operand of an operation: a variable that is still to be read, or a value. -/
inductive Operand where
  | place (cell : Nat)
  | value (v : Value)

namespace Operand

/-- The value of an operand now. -/
def read : Operand → Run Value
  | .place c => fun s k => k (s.cell c) s
  | .value v => pure v

/-- The operand of an expression whose value can be found with `now`. -/
def ofExpr (env : Env) (e : Expr) (now : Run Value) : Run Operand :=
  match e with
  | .variable d _ false | .paren (.variable d _ false) => pure (.place (env.place d))
  | _ => do return .value (← now)

end Operand

/-- A list of values, cut or filled with nil to a length. -/
def adjust : Nat → List Value → List Value
  | 0, _ => []
  | n + 1, [] => .nil :: adjust n []
  | n + 1, v :: vs => v :: adjust n vs

/-- Where the value of an assignment goes. -/
inductive Target where
  | cell (place : Nat)
  | field (object key : Operand) (d : Description)

/-- Sets the value of a target; that of a field on a line. -/
def Target.assign (line : Nat) (v : Value) : Target → Run Unit
  | .cell c => Run.modify fun s => s.setCell c v
  | .field object key d => do
    let o ← object.read
    let k ← key.read
    Run.setIndex line d o k v

/-- Sets the values of targets, the last first. -/
def assignAll (line : Nat) : List Target → List Value → Run Unit
  | [], _ => pure ()
  | t :: ts, vs => do
    assignAll line ts (vs.drop 1)
    t.assign line (Value.first vs)

/-- The store with values put into a table, from an index on. -/
def storeItems (place : Nat) : Nat → List Value → Store → Store
  | _, [], s => s
  | i, v :: vs, s => storeItems place (i + 1) vs (s.rawSet place (.int (Int64.ofNat i)) v)

/-- The store with the last items of a constructor put into its table, which has places for all
of them. -/
def storeLast (place next : Nat) (vs : List Value) (s : Store) : Store :=
  storeItems place next vs (s.modifyTable place fun t => t.reserve (next + vs.length - 1))

/-- How many items of a constructor have a place in a sequence, and how many have keys. -/
def countItems : List Item → Nat × Nat
  | [] => (0, 0)
  | [.positional .vararg] | [.positional (.call _)] => (0, 0)
  | .positional _ :: items => ((countItems items).1 + 1, (countItems items).2)
  | .keyed .. :: items => ((countItems items).1, (countItems items).2 + 1)

/-- Makes new variables with values. -/
def newCells : List Value → Run (List Nat)
  | [] => pure []
  | v :: vs => do
    let c ← Run.newCell v
    let cs ← newCells vs
    return c :: cs

/-! ## Expressions -/

mutual

/-- The value of an expression. -/
def Expr.eval (env : Env) : Expr → Run Value
  | .nil => pure .nil
  | .true => pure (.bool Bool.true)
  | .false => pure (.bool Bool.false)
  | .number n => pure (.ofNumeral n)
  | .string s => pure (.string s)
  | .vararg => pure (Value.first env.extra)
  | .function f => Run.modifyGet fun s =>
      let (p, s) := s.newClosure ⟨f, env.cells⟩
      (.closure p, s)
  | .variable d _ _ => fun s k => k (s.cell (env.place d)) s
  | .index object key line => do
    let o ← Operand.ofExpr env object (Expr.eval env object)
    let k ← Expr.eval env key
    Run.index line object.description (← o.read) k
  | .call c => do return Value.first (← Call.eval env c)
  | .binary op left right line => do
    let a ← Operand.ofExpr env left (Expr.eval env left)
    let b ← Expr.eval env right
    Run.binary line op (← a.read) b left.description right.description
  | .concat operands line => do
    let vs ← Expr.evalEach env operands
    Run.concatAll line (vs.zip (operands.map Expr.description))
  | .unary op e line => do
    let v ← Expr.eval env e
    Run.unary line op v e.description
  | .and left right => do
    let v ← Expr.eval env left
    if v.truth then Expr.eval env right else pure v
  | .or left right => do
    let v ← Expr.eval env left
    if v.truth then pure v else Expr.eval env right
  | .paren e => Expr.eval env e
  | .table items _ => do
    let (places, room) := countItems items
    let place ← Run.modifyGet fun s => s.newTable (Table.empty places room)
    Item.store env place 1 [] items
    return .table place

/-- All results of a call. -/
def Call.eval (env : Env) : Call → Run (List Value)
  | .function callee args line => do
    let f ← Expr.eval env callee
    let vs ← Expr.evalList env args
    Run.call f vs ⟨line, callee.description⟩
  | .method object name nameLine args line => do
    let o ← Expr.eval env object
    let f ← Run.index nameLine object.description o (.string name)
    let vs ← Expr.evalList env args
    Run.call f (o :: vs) ⟨line, some ("method", name)⟩

/-- The values of expressions, one of each. -/
def Expr.evalEach (env : Env) : List Expr → Run (List Value)
  | [] => pure []
  | e :: es => do
    let v ← Expr.eval env e
    let vs ← Expr.evalEach env es
    return v :: vs

/-- The values of expressions: one of each, and all of the last. -/
def Expr.evalList (env : Env) : List Expr → Run (List Value)
  | [] => pure []
  | [.vararg] => pure env.extra
  | [.call c] => Call.eval env c
  | e :: es => do
    let v ← Expr.eval env e
    let vs ← Expr.evalList env es
    return v :: vs

/-- Puts the items of a constructor into a table. Positional items wait, the last first, until
there are fifty of them; they go from an index on. -/
def Item.store (env : Env) (place next : Nat) (waiting : List Value) : List Item → Run Unit
  | [] => Run.modify (storeLast place next waiting.reverse)
  | [.positional .vararg] => Run.modify (storeLast place next (waiting.reverse ++ env.extra))
  | [.positional (.call c)] => do
    let vs ← Call.eval env c
    Run.modify (storeLast place next (waiting.reverse ++ vs))
  | .positional e :: items => do
    let v ← Expr.eval env e
    if waiting.length == 49 then
      Run.modify (storeLast place next (v :: waiting).reverse)
      Item.store env place (next + 50) [] items
    else Item.store env place next (v :: waiting) items
  | .keyed key value line :: items => do
    let k ← Operand.ofExpr env key (Expr.eval env key)
    let v ← Expr.eval env value
    Run.rawSetAt line place (← k.read) v
    Item.store env place next waiting items

end

/-- Ends the running function with the results of a call. -/
def Call.become (env : Env) : Call → Run Signal
  | .function callee args line => do
    let f ← callee.eval env
    let vs ← Expr.evalList env args
    Run.become f vs ⟨line, callee.description⟩
  | .method object name nameLine args line => do
    let o ← object.eval env
    let f ← Run.index nameLine object.description o (.string name)
    let vs ← Expr.evalList env args
    Run.become f (o :: vs) ⟨line, some ("method", name)⟩

/-- Whether one of the targets of an assignment is the variable at a distance. -/
def assigns (distance : Nat) (targets : List Expr) : Bool :=
  targets.any fun
    | .variable d _ _ => d == distance
    | _ => Bool.false

/-- The target of an assignment. The object of a field is read when the field is set, but before
the values if a later target is the variable that holds it. -/
def Expr.target (env : Env) (later : List Expr) : Expr → Run Target
  | .index object key _ => do
    let o ←
      match object, key with
      | .variable d _ Bool.true, .string _ => pure (.place (env.place d))
      | _, _ => Operand.ofExpr env object (object.eval env)
    let o ←
      match object with
      | .variable d _ _ => if assigns d later then (do return .value (← o.read)) else pure o
      | _ => pure o
    let k ← Operand.ofExpr env key (key.eval env)
    return .field o k object.description
  | .variable d _ _ => pure (.cell (env.place d))
  | _ => pure (.cell 0)

/-- The targets of an assignment. -/
def Expr.targets (env : Env) : List Expr → Run (List Target)
  | [] => pure []
  | e :: es => do
    let t ← e.target env es
    let ts ← Expr.targets env es
    return t :: ts

/-! ## Loops -/

/-- What a counting loop runs over: so many integers, or the floats up to a last one. -/
inductive Count where
  | ints (first step : Int64) (count : Nat)
  | floats (first last step : Float)

/-- The number of a bound of a counting loop. -/
def loopNumber (line : Nat) (what : String) (v : Value) : Run Numeral := do
  match v.toNumber with
  | some n => return n
  | none =>
    let s ← Run.store
    Run.fault line (bytesOf ("bad 'for' " ++ what ++ " (number expected, got ") ++ s.typeName v ++
      bytesOf ")")

/-- The last integer that a counting loop can reach: a bound that is a float is rounded, and one
beyond the integers is cut off. None if the loop cannot start. -/
def lastInt (step : Int64) : Numeral → Option Int64
  | .int i => some i
  | .float f =>
    match Numeral.floatToInt (if step < 0 then f.ceil else f.floor) with
    | some i => some i
    | none =>
      if 0.0 < f then (if step < 0 then none else some Int64.maxValue)
      else if 0 < step then none else some Int64.minValue

/-- How many integers a counting loop runs over. -/
def countInts (first step last : Int64) : Nat :=
  if 0 < step then
    if last < first then 0 else ((last.toInt - first.toInt) / step.toInt).toNat + 1
  else if first < last then 0
  else ((first.toInt - last.toInt) / (-step.toInt)).toNat + 1

/-- What a counting loop runs over. -/
def prepareCount (line : Nat) (first last step : Value) : Run Count := do
  match first, step with
  | .int i, .int d =>
    if d == 0 then Run.fault line (bytesOf "'for' step is zero")
    else
      let n ← loopNumber line "limit" last
      return .ints i d (((lastInt d n).map (countInts i d)).getD 0)
  | first, step =>
    let last ← loopNumber line "limit" last
    let step ← loopNumber line "step" step
    let first ← loopNumber line "initial value" first
    if step.isZero then Run.fault line (bytesOf "'for' step is zero")
    else return .floats first.toFloat last.toFloat step.toFloat

/-- How a round of a loop ends whose body ended somehow: the loop goes on with values, or it ends
where the body left it. -/
def Signal.round (vs : List Value) : Signal → Signal
  | .next => .again vs
  | .leave => .next
  | sig => sig

/-- Goes through the rounds of a counting loop. -/
def Count.run (round : Value → Run Signal) : Count → Run Signal
  | .ints first step count =>
    Run.loop [.int 0] fun
      | [.int i] => do
        if i.toInt < count then return (← round (.int (first + i * step))).round [.int (i + 1)]
        else return .next
      | _ => pure .next
  | .floats first last step =>
    Run.loop [.float first] fun
      | [.float x] => do
        if (if 0.0 < step then x ≤ last else last ≤ x) then
          return (← round (.float x)).round [.float (x + step)]
        else return .next
      | _ => pure .next

/-- Checks that a value can be closed: it is nil or false, or has a metamethod for it. -/
def checkClosable (line : Nat) (name : Bytes) (v : Value) : Run Unit := do
  if v.truth && ((← Run.store).metamethod v "__close").isNil then
    Run.fault line (bytesOf "variable '" ++ name ++ bytesOf "' got a non-closable value")

/-- Runs a part, and closes the value of a variable at its end, if it has to be closed. -/
def closing (line : Nat) (name : Bytes) (v : Value) (body : Run Signal) : Run Signal := do
  if v.truth then
    checkClosable line name v
    Run.scope body v line
  else body

/-! ## Statements -/

/-- Which of the declared variables is closed when it goes out of scope. -/
def closingVariable (names : List (Bytes × Attribute)) : Option (Nat × Bytes) :=
  (names.zipIdx.find? fun n => n.1.2 == .closing).map fun n => (n.2, n.1.1)

/-- Whether a label is among statements. -/
def hasLabel (label : Bytes) (body : List Stmt) : Bool :=
  body.any fun
    | .label l => l == label
    | _ => Bool.false

/-- The end of a block: the function goes on after it. -/
def passOn (_ : Env) : Run Signal :=
  pure .next

mutual

/-- The effect of a statement that declares nothing. -/
def Stmt.exec (env : Env) : Stmt → Run Signal
  | .assign targets values line => do
    let ts ← Expr.targets env targets
    let vs ← Expr.evalList env values
    assignAll line ts vs
    return .next
  | .invoke c => do
    let _ ← c.eval env
    return .next
  | .block body => execBlock env none passOn body
  | .loopWhile condition body =>
    Run.loop [] fun _ => do
      if (← condition.eval env).truth then return (← execBlock env none passOn body).round []
      else return .next
  | .loopUntil body condition =>
    Run.loop [] fun _ => do
      let sig ← execBlock env none
        (fun env => do return if (← condition.eval env).truth then .leave else .next) body
      return sig.round []
  | .branch condition thenBody elseBody => do
    if (← condition.eval env).truth then execBlock env none passOn thenBody
    else execBlock env none passOn elseBody
  | .loopCount first last step body line => do
    let a ← first.eval env
    let b ← last.eval env
    let d ← step.eval env
    let count ← prepareCount line a b d
    count.run fun v => do
      let c ← Run.newCell v
      execBlock (env.push c) none passOn body
  | .loopEach names values body line => do
    let vs := adjust 4 (← Expr.evalList env values)
    let env := { env with guarded := true }
    let rounds := Run.loop [vs.getD 2 .nil] fun control => do
      let results ← Run.call (vs.getD 0 .nil) [vs.getD 1 .nil, Value.first control]
        ⟨line, some ("for iterator", bytesOf "for iterator")⟩
      let results := adjust names results
      if (Value.first results).isNil then return .next
      else
        let cs ← newCells results
        return (← execBlock (env.pushAll cs) none passOn body).round [Value.first results]
    closing line (bytesOf "(for state)") (vs.getD 3 .nil) rounds
  | .giveBack values _ =>
    match env.guarded, values with
    | false, [.call c] => c.become env
    | _, values => do return .ret (← Expr.evalList env values)
  | .leave => pure .leave
  | .jump label => pure (.jump label)
  | .declare .. | .declareFunction _ | .label _ => pure .next

/-- The effect of statements, from a label on if one is given, and then of `final`, which sees
their variables. A jump to a label that follows is taken. -/
def execBlock (env : Env) (start : Option Bytes) (final : Env → Run Signal) :
    List Stmt → Run Signal
  | [] => final env
  | stmt :: rest =>
    match start, stmt with
    | some l, .label m =>
      if l == m then fromLabel m (execBlock env none final rest) else execBlock env start final rest
    | some _, _ => execBlock env start final rest
    | none, .label m => fromLabel m (execBlock env none final rest)
    | none, .declare names values line => do
      let vs := adjust names.length (← Expr.evalList env values)
      let cs ← newCells vs
      let env := env.pushAll cs
      match closingVariable names with
      | none => execBlock env none final rest
      | some (i, name) =>
        closing line name (vs.getD i .nil)
          (execBlock { env with guarded := true } none final rest)
    | none, .declareFunction f => do
      let c ← Run.newCell .nil
      let env := env.push c
      Run.modify fun s =>
        let (p, s) := s.newClosure ⟨f, env.cells⟩
        s.setCell c (.closure p)
      execBlock env none final rest
    | none, stmt => do
      match ← Stmt.exec env stmt with
      | .next => execBlock env none final rest
      | .jump l => if hasLabel l rest then execBlock env (some l) final rest else return .jump l
      | sig => return sig
where
  /-- The effect of the statements after a label, which a jump to the label starts again. -/
  fromLabel (label : Bytes) (body : Run Signal) : Run Signal :=
    Run.loop [] fun _ => do
      match ← body with
      | .jump l => return if l == label then .again [] else .jump l
      | sig => return sig

end

/-! ## Functions -/

/-- The results of a function for arguments. -/
def Closure.apply (c : Closure) (args : List Value) : Run (List Value) := do
  let cs ← newCells (adjust c.proto.params args)
  let extra := if c.proto.variadic then args.drop c.proto.params else []
  match ← execBlock ⟨cs.reverse ++ c.env, extra, false⟩ none passOn c.proto.body with
  | .ret vs => return vs
  | _ => return []

end Stencil.Lua
