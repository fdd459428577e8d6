import Stencil.Lua.Store

/-!
# Actions

What a Lua program does next, and what it does with the outcome. An expression, a statement or a
library function stands for a tree of actions; a machine carries them out.

An action needs a machine if it starts another function, if it may be cut short by an error, if it
may go on without end, or if it is about the functions that are running. All else happens within
the tree, on the store that passes through it.

* `Action`: what a program does next;
* `Run α`: a part of a program with a result in `α`, which is told what comes after it;
* `Run.call`, `raise`, `fault`, `loop`, and the like: the parts that are one action;
* `Run.ask`, `request`: the parts that ask the system.
-/

namespace Stencil.Lua

/-- How a part of a function ends. -/
inductive Signal where
  /-- The function goes on after the part. -/
  | next
  /-- The loop whose round this is starts the next one, with values. -/
  | again (vs : List Value)
  /-- The innermost loop ends. -/
  | leave
  /-- The function goes on at a label. -/
  | jump (label : Bytes)
  /-- The function ends, with results. -/
  | ret (vs : List Value)
  deriving Inhabited

/-- Where a call stands: the line, and how the caller names the function, if it does. -/
structure Site where
  line : Nat
  name : Option (String × Bytes)
  deriving Inhabited

/-- What is known about a running function. -/
structure Inspection where
  /-- The chunk and the line where the function stands, as messages start; empty for a library
  function. -/
  position : Bytes
  callee : Value
  /-- How its caller names it. -/
  name : Option (String × Bytes)
  deriving Inhabited

/-- What a coroutine is doing. -/
inductive ThreadStatus where
  | suspended
  | running
  /-- It has resumed another coroutine. -/
  | normal
  | dead
  deriving Repr, BEq, DecidableEq, Inhabited

/-- What a program does next, with the store it has. `k` is told the outcome, and says what comes
after it. -/
inductive Action where
  /-- Ends the innermost part that is going on: a function, a scope or the round of a loop. -/
  | finish (how : Signal) (s : Store)
  | raise (e : Value) (s : Store)
  | call (f : Value) (args : List Value) (site : Site) (s : Store)
      (k : List Value → Store → Action)
  /-- Ends the running function with the results of a call. -/
  | become (f : Value) (args : List Value) (site : Site) (s : Store)
  /-- Runs a part and ends its errors. A handler is called where an error is raised, and its first
  result takes the place of the error. -/
  | protect (body : Store → Action) (handler : Option Value) (s : Store)
      (k : Except Value (List Value) → Store → Action)
  /-- Goes through rounds, as long as a round asks for the next. -/
  | loop (vs : List Value) (body : List Value → Store → Action) (s : Store)
      (k : Signal → Store → Action)
  /-- Runs a part, and closes a value at its end, however it ends. -/
  | scope (body : Store → Action) (closed : Value) (line : Nat) (s : Store)
      (k : Signal → Store → Action)
  /-- Finds out about a running function: the current one, which stands on a line, is at level 0,
  its caller at level 1. -/
  | inspect (level line : Nat) (s : Store) (k : Inspection → Store → Action)
  | createThread (f : Value) (s : Store) (k : Nat → Store → Action)
  | resume (thread : Nat) (args : List Value) (s : Store)
      (k : Except Value (List Value) → Store → Action)
  | yield (vs : List Value) (s : Store) (k : List Value → Store → Action)
  /-- Closes the scopes that are still open in a coroutine that is not running. -/
  | closeThread (thread : Nat) (s : Store) (k : Except Value Unit → Store → Action)
  | threadStatus (thread : Nat) (s : Store) (k : ThreadStatus → Store → Action)
  /-- The current coroutine, whether it is the main one, and whether it can yield. -/
  | currentThread (s : Store) (k : Nat → Bool → Bool → Store → Action)

instance : Inhabited Action := ⟨.raise .nil default⟩

/-- A part of a program with a result in `α`. -/
def Run (α : Type) : Type :=
  Store → (α → Store → Action) → Action

namespace Run

variable {α β : Type}

/-- The part that does nothing. -/
@[inline] protected def pure (a : α) : Run α :=
  fun s k => k a s

/-- One part after another. -/
@[inline] protected def bind (r : Run α) (f : α → Run β) : Run β :=
  fun s k => r s fun a s => f a s k

instance : Monad Run where
  pure := Run.pure
  bind := Run.bind

instance : Inhabited (Run α) := ⟨fun s _ => .raise .nil s⟩

/-- The store. -/
@[inline] def store : Run Store :=
  fun s k => k s s

/-- Changes the store. -/
@[inline] def modify (f : Store → Store) : Run Unit :=
  fun s k => k () (f s)

/-- Changes the store, with a result. -/
@[inline] def modifyGet (f : Store → α × Store) : Run α :=
  fun s k =>
    let (a, s) := f s
    k a s

/-- Calls a function. -/
def call (f : Value) (args : List Value) (site : Site) : Run (List Value) :=
  fun s k => .call f args site s k

/-- Raises an error. -/
def raise (e : Value) : Run α :=
  fun s _ => .raise e s

/-- Finds out about a running function. -/
def inspect (level line : Nat) : Run Inspection :=
  fun s k => .inspect level line s k

/-- Raises a message about the running function on a line. -/
def fault (line : Nat) (message : Bytes) : Run α := do
  let i ← inspect 0 line
  raise (.string (i.position ++ message))

/-- Raises a message of a library function about the place where it was called. -/
def complain (message : Bytes) : Run α := do
  let i ← inspect 1 0
  raise (.string (i.position ++ message))

/-- Runs a part whose errors end here. -/
def protect (r : Run (List Value)) (handler : Option Value) : Run (Except Value (List Value)) :=
  fun s k => .protect (fun s => r s fun vs s => .finish (.ret vs) s) handler s k

/-- Ends the part that is going on. -/
def finish (how : Signal) : Run α :=
  fun s _ => .finish how s

/-- Goes through rounds, as long as a round asks for the next. -/
def loop (vs : List Value) (body : List Value → Run Signal) : Run Signal :=
  fun s k => .loop vs (fun vs s => body vs s Action.finish) s k

/-- Runs a part, and closes a value at its end. -/
def scope (body : Run Signal) (closed : Value) (line : Nat) : Run Signal :=
  fun s k => .scope (fun s => body s Action.finish) closed line s k

/-- Ends the running function with the results of a call. -/
def become (f : Value) (args : List Value) (site : Site) : Run α :=
  fun s _ => .become f args site s

/-- A part that is a whole function, as an action. -/
def toAction (r : Run (List Value)) : Store → Action :=
  fun s => r s fun vs s => .finish (.ret vs) s

/-- The first result of a call. -/
def callOne (f : Value) (args : List Value) (site : Site) : Run Value := do
  return Value.first (← call f args site)

/-- A new variable. -/
def newCell (v : Value) : Run Nat :=
  modifyGet fun s => s.newCell v

/-- A new table. -/
def newTable (t : Table) : Run Value :=
  modifyGet fun s =>
    let (p, s) := s.newTable t
    (.table p, s)

/-! ## Requests -/

/-- Calls the finalizers of tables. Their errors go nowhere. -/
def finalize : List Nat → Run Unit
  | [] => pure ()
  | place :: rest => do
    let f := (← store).metamethod (.table place) "__gc"
    if f.isFunction then
      let _ ← protect (call f [.table place] ⟨0, none⟩) none
    finalize rest

/-- Goes on for ever. -/
def stall : Run α := do
  let how ← loop [] fun vs => Pure.pure (.again vs)
  finish how

/-- Asks the system, and gives its reply. Tables that were given back to memory meanwhile are
finalized. -/
def ask (request : Request) : Run Reply := do
  let a ← modifyGet fun s => s.ask request
  finalize a.collected
  return a.reply

/-- The results of a library function that failed: nil, a message about a subject and a number. -/
def failed (subject : Bytes) (e : IoError) : List Value :=
  [.nil, .string (subject ++ bytesOf e.reason), .int (Int64.ofNat e.code)]

/-- The results of a library function that asks the system for them. -/
def request (subject : Bytes) (request : Request) : Run (List Value) := do
  match ← ask request with
  | .results vs => return vs.map Value.ofDatum
  | .opened f =>
    let place ← modifyGet fun s => s.newObject (.file f)
    return [.object place]
  | .failed e => return failed subject e
  | .refused message => complain message
  | .never => stall

end Run

end Stencil.Lua
