import Stencil.Failure.IoError
import Stencil.Files.System
import Stencil.Lua.Builtin
import Stencil.Lua.Syntax

/-!
# The system

A program runs on a system. Some library functions ask it for something: to open a file, to read and
write one, to tell the time, to run another program, to give back memory. What the system replies is
not up to the program, and the same request can come to something else the next time. So a program is
run on a system that is given: any function from the requests that were made to an answer.

Lua leaves a few other things to where it runs: the bytes of a function, and how identities are
shown. They are the system's too.

* `Request`, `Answer`: what the system is asked, and what comes of it;
* `System`: how a system answers.
-/

namespace Stencil.Lua

/-- A value without an identity. Requests and replies are made of these. -/
inductive Datum where
  | nil
  | bool (b : Bool)
  | int (i : Int64)
  | float (f : Float)
  | string (s : Bytes)
  deriving Inhabited

/-- A text as a datum. -/
def Datum.text (s : String) : Datum :=
  .string (bytesOf s)

/-- An open file: its bytes, as far as the system has them ready, and how many were read. -/
structure OpenFile where
  content : Bytes
  position : Nat
  closed : Bool
  /-- Whether it can be written. -/
  writable : Bool
  /-- Whether it is one of the three that a program starts with, which stay open. -/
  standard : Bool
  deriving Inhabited

/-- One thing that is read from a file. -/
inductive ReadFormat where
  | line (keepEnd : Bool)
  | all
  | number
  | count (n : Nat)
  deriving Repr, BEq, DecidableEq, Inhabited

/-- What a library function asks of the system. -/
inductive Request where
  /-- It was given some values. -/
  | plain (function : Builtin) (given : List Datum)
  /-- It is about an open file, at its place. -/
  | file (function : Builtin) (given : List Datum) (place : Nat) (f : OpenFile)
  /-- It reads things from an open file, one after another. -/
  | read (formats : List ReadFormat) (place : Nat) (f : OpenFile)
  deriving Inhabited

/-- The place of the open file that a request is about, if it is about one. -/
def Request.place? : Request → Option Nat
  | .plain .. => none
  | .file _ _ place _ | .read _ place _ => some place

/-- What the system replies to a request. -/
inductive Reply where
  | results (vs : List Datum)
  /-- A file was opened. -/
  | opened (f : OpenFile)
  | failed (e : IoError)
  /-- The function cannot do what it was asked for, and raises why. -/
  | refused (message : Bytes)
  /-- There is no reply: the program was ended, or waits for ever. -/
  | never
  deriving Inhabited

/-- What comes of a request. -/
structure Answer where
  reply : Reply
  /-- What becomes of the open file that the request is about. -/
  file : OpenFile
  /-- What becomes of the files. -/
  files : FileSystem
  /-- The tables that were given back to memory meanwhile. -/
  collected : List Nat
  deriving Inhabited

/-- A function that is read from bytes, with the variables around it: how many there are, and which
of them has the environment. -/
structure Undumped where
  proto : Proto
  outer : Nat
  environment : Nat
  deriving Inhabited

/-- A system that programs run on. -/
structure System where
  /-- What comes of a request, with the requests before it, the last first, and the files. -/
  answer : List Request → FileSystem → Request → Answer
  /-- The bytes of a function, with its lines and names stripped or not, if it has any. -/
  dump : Proto → Bool → Option Bytes
  /-- The function of bytes, or why there is none. -/
  undump : Bytes → Except Bytes Undumped
  /-- How the identity of a place of a kind is shown. -/
  address : Nat → Nat → Bytes
  deriving Inhabited

end Stencil.Lua
