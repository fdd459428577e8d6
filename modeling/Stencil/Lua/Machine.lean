import Stencil.Lua.Evaluation
import Stencil.Lua.Library

/-!
# The machine

Carries out actions. A machine runs one coroutine at a time: a function, under which stands what
waits for it: callers, rounds of loops, scopes, and parts whose errors end.

An error looks for a part that ends errors before anything is undone: a handler runs on top of what
is running. Then everything up to that part goes, and scopes on the way close their values. If no
part ends errors, the coroutine fails, and its scopes stay open until it is closed.

* `Frame`, `Machine`: what waits, and what runs;
* `Machine.step`: carries out one action;
* `Machine.run`: carries out actions up to the end, or until the fuel is used up.
-/

namespace Stencil.Lua

/-- A function that is running. -/
structure Activation where
  callee : Value
  /-- How its caller names it. -/
  name : Description
  /-- The chunk of a function written in Lua. -/
  chunk : Option Bytes
  /-- Whether the coroutine can be left from here. -/
  yields : Bool
  /-- How many functions wait for it. -/
  depth : Nat
  /-- How many of them are library functions, or stand at an operator or a loop. -/
  nesting : Nat
  deriving Inhabited

/-- What waits for the part that is going on. -/
inductive Frame where
  /-- A function that stands on a line. -/
  | call (caller : Activation) (line : Nat) (k : List Value → Store → Action)
  /-- A loop whose round is going on. -/
  | loop (body : List Value → Store → Action) (k : Signal → Store → Action)
  /-- A scope, with the value that is closed at its end. -/
  | scope (closed : Value) (line : Nat) (k : Signal → Store → Action)
  /-- A part whose errors end here. -/
  | protect (handler : Option Value) (k : Except Value (List Value) → Store → Action)
  /-- A handler is running; its result is the error. -/
  | handling
  /-- A value is being closed on the way of an error. -/
  | unwinding (e : Value)
  /-- A value is being closed because its coroutine is closed, with an error if there was one. -/
  | shutting (e : Option Value)
  deriving Inhabited

/-- A coroutine. -/
inductive Coroutine where
  | fresh (f : Value)
  /-- It waits for values. -/
  | suspended (running : Activation) (stack : List Frame) (k : List Value → Store → Action)
  /-- It is running, or has resumed another one. -/
  | active
  | finished
  /-- An error ended it; its scopes are still open. -/
  | failed (e : Value) (stack : List Frame)
  deriving Inhabited

/-- A coroutine that has resumed another one, and what it does with the outcome. -/
structure Resumer where
  thread : Nat
  running : Activation
  stack : List Frame
  k : Except Value (List Value) → Store → Action
  deriving Inhabited

/-- A machine. Coroutine 0 is the main one. -/
structure Machine where
  thread : Nat
  running : Activation
  stack : List Frame
  resumers : List Resumer
  coroutines : Array Coroutine
  deriving Inhabited

/-- What a step leads to. -/
inductive Progress where
  | next (m : Machine) (a : Action)
  /-- The first coroutine came to its end. -/
  | halt (outcome : Except Value (List Value)) (coroutines : Array Coroutine) (s : Store)
  deriving Inhabited

namespace Activation

/-- What runs at the bottom of a coroutine. -/
def base (yields : Bool) (nesting : Nat) : Activation :=
  ⟨.nil, none, none, yields, 0, nesting⟩

/-- Where a running function stands, as messages start. -/
def position (a : Activation) (line : Nat) : Bytes :=
  match a.chunk with
  | some chunk => chunk ++ bytesOf (":" ++ toString line ++ ": ")
  | none => ByteArray.empty

end Activation

/-- The most functions that may wait for one another. -/
def maxDepth : Nat := 195000

/-- The most library functions that may wait for one another. -/
def maxNesting : Nat := 200

/-- The most library functions that may wait for one another while errors are handled. -/
def maxHandling : Nat := 220

namespace Machine

/-! ## Calls -/

/-- The function that a value stands for in a call, with the arguments it gets: values that are no
functions may have a metamethod for calls. -/
def callable (s : Store) : Nat → Value → List Value → Option (Value × List Value)
  | 0, _, _ => none
  | fuel + 1, f, args =>
    if f.isFunction then some (f, args)
    else
      match s.metamethod f "__call" with
      | .nil => none
      | handler => callable s fuel handler (f :: args)

/-- The chunk of a function written in Lua. -/
def chunkOf (s : Store) : Value → Option Bytes
  | .closure p => some (s.closure p).proto.chunk
  | _ => none

/-- What a function does for arguments. -/
def body (s : Store) (f : Value) (args : List Value) : Action :=
  match f with
  | .closure p => ((s.closure p).apply args).toAction s
  | .builtin b => (b.apply args).toAction s
  | .native p => ((s.native p).apply p args).toAction s
  | _ => .finish (.ret []) s

/-- Whether a call goes through the library: it comes from a library function, or stands at an
operator or a loop. -/
def nests (caller : Activation) (site : Site) : Bool :=
  caller.chunk.isNone ||
    match site.name with
    | some ("metamethod", _) | some ("for iterator", _) => true
    | _ => false

/-- Whether a coroutine can be left from a function that this one calls. -/
def passesYields (caller : Activation) : Bool :=
  caller.chunk.isSome || caller.depth == 0 ||
    match caller.callee with
    | .builtin .dofile => true
    | _ => false

/-- The activation of a function that another one calls. -/
def activate (s : Store) (caller : Activation) (f : Value) (site : Site) : Activation where
  callee := f
  name := if caller.chunk.isSome then site.name else none
  chunk := chunkOf s f
  yields := caller.yields && passesYields caller
  depth := caller.depth + 1
  nesting := if nests caller site then caller.nesting + 1 else caller.nesting

/-- Raises a message about the function that is running. -/
def fault (m : Machine) (line : Nat) (message : Bytes) (s : Store) : Action :=
  .raise (.string (m.running.position line ++ message)) s

/-- Raises that a value cannot be called. -/
def uncallable (m : Machine) (f : Value) (site : Site) (s : Store) : Action :=
  let d := if m.running.chunk.isSome then site.name else none
  m.fault site.line
    (bytesOf "attempt to call a " ++ s.typeName f ++ bytesOf " value" ++ descriptionText d) s

/-- Calls a function. -/
def call (m : Machine) (f : Value) (args : List Value) (site : Site) (s : Store)
    (k : List Value → Store → Action) : Machine × Action :=
  match callable s 100 f args with
  | none => (m, m.uncallable f site s)
  | some (f, args) =>
    let a := activate s m.running f site
    if maxDepth ≤ a.depth then (m, m.fault site.line (bytesOf "stack overflow") s)
    else if a.nesting == maxNesting && nests m.running site then
      (m, m.fault site.line (bytesOf "C stack overflow") s)
    else
      ({ m with running := a, stack := .call m.running site.line k :: m.stack }, body s f args)

/-- The frames from the nearest call on. -/
def toCall : List Frame → List Frame
  | .call caller line k :: rest => .call caller line k :: rest
  | _ :: rest => toCall rest
  | [] => []

/-- Ends the running function with the results of a call: a function written in Lua takes its
place. -/
def become (m : Machine) (f : Value) (args : List Value) (site : Site) (s : Store) :
    Machine × Action :=
  match callable s 100 f args with
  | some (.closure p, args) =>
    let a := { activate s m.running (.closure p) site with
      name := none
      depth := m.running.depth }
    ({ m with running := a, stack := toCall m.stack }, body s (.closure p) args)
  | _ => m.call f args site s fun vs s => .finish (.ret vs) s

/-! ## The ends of coroutines -/

/-- Ends the coroutine that is running, and goes on with the one that resumed it. -/
def deliver (m : Machine) (as : Coroutine) (outcome : Except Value (List Value)) (s : Store) :
    Progress :=
  let coroutines := m.coroutines.setIfInBounds m.thread as
  match m.resumers with
  | [] => .halt outcome coroutines s
  | r :: rest => .next ⟨r.thread, r.running, r.stack, rest, coroutines⟩ (r.k outcome s)

/-- Closes a value, with the error on whose way it is closed. -/
def closeCall (closed : Value) (e : Value) (line : Nat) (s : Store) (k : Store → Action) : Action :=
  let closer :=
    match s.metamethod closed "__close" with
    | .nil => closed
    | f => f
  .call closer [closed, e] (.ofEvent line "close") s fun _ s => k s

/-! ## Errors -/

/-- Whether a part of a stack ends errors. -/
def isProtected : List Frame → Bool
  | [] => false
  | .protect .. :: _ | .shutting _ :: _ => true
  | _ :: rest => isProtected rest

/-- The handler of the nearest part that ends errors. -/
def handlerOf : List Frame → Option Value
  | [] => none
  | .protect handler _ :: _ => handler
  | .shutting _ :: _ => none
  | _ :: rest => handlerOf rest

/-- Closes the scopes of a coroutine that is being closed, and then ends it. -/
def shut (m : Machine) (e : Option Value) (s : Store) : List Frame → Progress
  | [] =>
    m.deliver .finished
      (match e with
        | some e => .error e
        | none => .ok [])
      s
  | .scope closed line _ :: rest =>
    .next { m with stack := .shutting e :: rest, running := .base false m.running.nesting }
      (closeCall closed (e.getD .nil) line s fun s => .finish .next s)
  | _ :: rest => shut m e s rest

/-- Undoes what is running up to the part that ends an error. -/
def unwind (m : Machine) (e : Value) (s : Store) : List Frame → Progress
  | [] => m.deliver (.failed e []) (.error e) s
  | .call caller _ _ :: rest => unwind { m with running := caller } e s rest
  | .scope closed line _ :: rest =>
    .next { m with stack := .unwinding e :: rest }
      (closeCall closed e line s fun s => .finish .next s)
  | .protect _ k :: rest => .next { m with stack := rest } (k (.error e) s)
  | .shutting _ :: rest => shut m (some e) s rest
  | _ :: rest => unwind m e s rest

/-- Raises an error. -/
def raise (m : Machine) (e : Value) (s : Store) : Progress :=
  if !isProtected m.stack then m.deliver (.failed e m.stack) (.error e) s
  else
    match handlerOf m.stack with
    | none => m.unwind e s m.stack
    | some handler =>
      if maxHandling ≤ m.running.nesting then
        m.unwind (.text "error in error handling") s m.stack
      else
        let silent := { m.running with chunk := none, yields := false }
        .next { m with running := silent, stack := .handling :: m.stack }
          (.call handler [e] ⟨0, none⟩ s fun vs s => .finish (.ret vs) s)

/-- Ends the part that is going on. -/
def finish (m : Machine) (how : Signal) (s : Store) : Progress :=
  let results : List Value :=
    match how with
    | .ret vs => vs
    | _ => []
  match m.stack with
  | [] => m.deliver .finished (.ok results) s
  | .call caller _ k :: rest => .next { m with running := caller, stack := rest } (k results s)
  | .loop body k :: rest =>
    match how with
    | .again vs => .next m (body vs s)
    | how => .next { m with stack := rest } (k how s)
  | .scope closed line k :: rest =>
    .next { m with stack := rest } (closeCall closed .nil line s fun s => k how s)
  | .protect _ k :: rest => .next { m with stack := rest } (k (.ok results) s)
  | .handling :: rest => m.unwind (Value.first results) s rest
  | .unwinding e :: rest => m.unwind e s rest
  | .shutting e :: rest => m.shut e s rest

/-! ## Inspection -/

/-- What is known about a running function and those that wait for it. -/
def inspectFrom (m : Machine) (level line : Nat) (a : Activation) : List Frame → Inspection
  | [] => if level = 0 then ⟨a.position line, a.callee, a.name⟩ else ⟨ByteArray.empty, .nil, none⟩
  | frame :: rest =>
    if level = 0 then ⟨a.position line, a.callee, a.name⟩
    else
      match frame with
      | .call caller line _ => inspectFrom m (level - 1) line caller rest
      | _ => inspectFrom m level line a rest

/-! ## Coroutines -/

/-- What a coroutine is doing. -/
def statusOf (m : Machine) (thread : Nat) : ThreadStatus :=
  if thread == m.thread then .running
  else
    match m.coroutines[thread]? with
    | some (.fresh _) | some (.suspended ..) => .suspended
    | some .active => .normal
    | _ => .dead

/-- The machine with another coroutine running, which the current one waits for. -/
def switch (m : Machine) (thread : Nat) (running : Activation) (stack : List Frame)
    (k : Except Value (List Value) → Store → Action) : Machine where
  thread := thread
  running := running
  stack := stack
  resumers := ⟨m.thread, m.running, m.stack, k⟩ :: m.resumers
  coroutines := m.coroutines.setIfInBounds thread .active

/-- Goes on with a coroutine. -/
def resume (m : Machine) (thread : Nat) (args : List Value) (s : Store)
    (k : Except Value (List Value) → Store → Action) : Progress :=
  let refused (reason : String) : Progress := .next m (k (.error (.text reason)) s)
  if maxNesting ≤ m.running.nesting + 1 then refused "C stack overflow"
  else
    match m.coroutines[thread]? with
    | some (.fresh f) =>
      .next (m.switch thread (.base true (m.running.nesting + 1)) [] k)
        (.call f args ⟨0, none⟩ s fun vs s => .finish (.ret vs) s)
    | some (.suspended running stack next) => .next (m.switch thread running stack k) (next args s)
    | some .active => refused "cannot resume non-suspended coroutine"
    | _ => refused "cannot resume dead coroutine"

/-- Leaves the coroutine that is running. The first one, which nothing resumed, goes on at once. -/
def yield (m : Machine) (vs : List Value) (s : Store) (k : List Value → Store → Action) : Progress :=
  if !m.running.yields then
    .next m (m.fault 0 (bytesOf (if m.thread == 0 then "attempt to yield from outside a coroutine"
      else "attempt to yield across a C-call boundary")) s)
  else
    match m.resumers with
    | [] => .next m (k [] s)
    | r :: rest =>
      let left := Coroutine.suspended m.running m.stack k
      .next ⟨r.thread, r.running, r.stack, rest, m.coroutines.setIfInBounds m.thread left⟩
        (r.k (.ok vs) s)

/-- Closes the scopes that are open in a coroutine. -/
def closeThread (m : Machine) (thread : Nat) (s : Store)
    (k : Except Value Unit → Store → Action) : Progress :=
  let k (outcome : Except Value (List Value)) (s : Store) : Action :=
    k (outcome.map fun _ => ()) s
  let start (e : Option Value) (stack : List Frame) : Progress :=
    (m.switch thread (.base false (m.running.nesting + 1)) [] k).shut e s stack
  match m.coroutines[thread]? with
  | some (.suspended _ stack _) => start none stack
  | some (.failed e stack) => start (some e) stack
  | _ => start none []

/-! ## Running -/

/-- Carries out one action. -/
def step (m : Machine) : Action → Progress
  | .finish how s => m.finish how s
  | .raise e s => m.raise e s
  | .call f args site s k =>
    let (m, a) := m.call f args site s k
    .next m a
  | .become f args site s =>
    let (m, a) := m.become f args site s
    .next m a
  | .protect body handler s k => .next { m with stack := .protect handler k :: m.stack } (body s)
  | .loop vs body s k => .next { m with stack := .loop body k :: m.stack } (body vs s)
  | .scope body closed line s k =>
    .next { m with stack := .scope closed line k :: m.stack } (body s)
  | .inspect level line s k => .next m (k (m.inspectFrom level line m.running m.stack) s)
  | .createThread f s k =>
    .next { m with coroutines := m.coroutines.push (.fresh f) } (k m.coroutines.size s)
  | .resume thread args s k => m.resume thread args s k
  | .yield vs s k => m.yield vs s k
  | .closeThread thread s k => m.closeThread thread s k
  | .threadStatus thread s k => .next m (k (m.statusOf thread) s)
  | .currentThread s k => .next m (k m.thread (m.thread == 0) m.running.yields s)

/-- Carries out actions up to the end; none if the fuel is used up before. -/
def run : Nat → Machine → Action → Option (Except Value (List Value) × Array Coroutine × Store)
  | 0, _, _ => none
  | fuel + 1, m, a =>
    match m.step a with
    | .next m a => run fuel m a
    | .halt outcome coroutines s => some (outcome, coroutines, s)

end Machine

end Stencil.Lua
