import Stencil.Lua.Library.Argument

/-!
# The library `coroutine`

Coroutines: functions that can be left in the middle and gone on with later.
-/

namespace Stencil.Lua

namespace Run

/-- What a coroutine is doing. -/
def threadStatus (thread : Nat) : Run ThreadStatus :=
  fun s k => .threadStatus thread s k

/-- The current coroutine, whether it is the main one, and whether it can yield. -/
def currentThread : Run (Nat × Bool × Bool) :=
  fun s k => .currentThread s fun t main yields s => k (t, main, yields) s

/-- A new coroutine. -/
def createThread (f : Value) : Run Nat :=
  fun s k => .createThread f s k

/-- Goes on with a coroutine up to its next yield or its end. -/
def resume (thread : Nat) (args : List Value) : Run (Except Value (List Value)) :=
  fun s k => .resume thread args s k

/-- Leaves the current coroutine with values; it goes on with those it is resumed with. -/
def yield (vs : List Value) : Run (List Value) :=
  fun s k => .yield vs s k

/-- Closes the scopes that are open in a coroutine. -/
def closeThread (thread : Nat) : Run (Except Value Unit) :=
  fun s k => .closeThread thread s k

end Run

namespace Coroutines

open Argument

/-- The name of what a coroutine is doing. -/
def statusName : ThreadStatus → String
  | .suspended => "suspended"
  | .running => "running"
  | .normal => "normal"
  | .dead => "dead"

/-- An argument that is a coroutine. -/
def thread (n : Nat) (vs : List Value) : Run Nat :=
  match value n vs with
  | .thread t => pure t
  | _ => refuseType n "coroutine" vs

/-- A new coroutine. -/
def create (vs : List Value) : Run (List Value) := do
  return [.thread (← Run.createThread (← function 1 vs))]

/-- A function that goes on with a new coroutine. -/
def wrap (vs : List Value) : Run (List Value) := do
  let t ← Run.createThread (← function 1 vs)
  let place ← Run.modifyGet fun s => s.newNative (.wrapped t)
  return [.native place]

/-- Goes on with a coroutine; tells whether it met no error. -/
def resume (vs : List Value) : Run (List Value) := do
  let t ← thread 1 vs
  match ← Run.resume t (vs.drop 1) with
  | .ok results => return .bool true :: results
  | .error e => return [.bool false, e]

/-- Goes on with the coroutine of a function. An error in it closes its scopes, and is raised again
about the place of the call. -/
def wrapStep (t : Nat) (vs : List Value) : Run (List Value) := do
  match ← Run.resume t vs with
  | .ok results => return results
  | .error e =>
    let e ←
      match ← Run.threadStatus t with
      | .dead =>
        match ← Run.closeThread t with
        | .error e => pure e
        | .ok () => pure e
      | _ => pure e
    match e with
    | .string message => Run.complain message
    | e => Run.raise e

/-- Leaves the current coroutine. -/
def yield (vs : List Value) : Run (List Value) :=
  Run.yield vs

/-- What a coroutine is doing. -/
def status (vs : List Value) : Run (List Value) := do
  return [.text (statusName (← Run.threadStatus (← thread 1 vs)))]

/-- The current coroutine, and whether it is the main one. -/
def running (_ : List Value) : Run (List Value) := do
  let (t, main, _) ← Run.currentThread
  return [.thread t, .bool main]

/-- Whether a coroutine can yield. -/
def isyieldable (vs : List Value) : Run (List Value) := do
  let (current, _, yields) ← Run.currentThread
  match value 1 vs with
  | .thread t => return [.bool (if t == current then yields else t != 0)]
  | _ => return [.bool yields]

/-- Closes the scopes that are open in a coroutine that is not running. -/
def close (vs : List Value) : Run (List Value) := do
  let t ← thread 1 vs
  match ← Run.threadStatus t with
  | .suspended | .dead =>
    match ← Run.closeThread t with
    | .ok () => return [.bool true]
    | .error e => return [.bool false, e]
  | s => Run.complain (bytesOf ("cannot close a " ++ statusName s ++ " coroutine"))

end Coroutines

end Stencil.Lua
