import Stencil.Lua.Library.Argument
import Stencil.Lua.Library.Engine

/-!
# The library `os`

Time, other programs and the names of files. The library checks what it was given, and turns dates
into tables and back; the rest is up to the system.
-/

namespace Stencil.Lua.Os

open Argument

/-- The results of a function of the library that asks the system for them. -/
def request (function : Builtin) (given : List Datum) : Run (List Value) :=
  Run.request ByteArray.empty (.plain function given)

/-- An argument that is a string, if it is there. -/
def optional (n : Nat) (vs : List Value) : Run Datum := do
  if isAbsent n vs then return .nil else return .string (← string n vs)

/-! ## Dates -/

/-- The fields of the table of a date, in the order in which they are set. -/
def dateFields : List String :=
  ["year", "month", "day", "hour", "min", "sec", "yday", "wday", "isdst"]

/-- Sets the fields of a date that have a value. -/
def setDate (date : Value) : List (String × Value) → Run Unit
  | [] => pure ()
  | (name, v) :: rest => do
    if !v.isNil then Run.setIndex 0 none date (.text name) v
    setDate date rest

/-- Why a field of a date is refused. -/
def refuseField {α : Type} (name reason : String) : Run α :=
  Run.complain (bytesOf ("field '" ++ name ++ "' " ++ reason))

/-- A field of a date, which is counted from some number on. -/
def dateField (date : Value) (name : String) (otherwise : Option Int64) (first : Int) :
    Run Datum := do
  let v ← Run.index 0 none date (.text name)
  match v.toNumber.bind Numeral.toInt with
  | some i =>
    if i.toInt - first ≤ 2147483647 && -2147483648 ≤ i.toInt - first then return .int i
    else refuseField name "is out-of-bound"
  | none =>
    match v, otherwise with
    | .nil, some i => return .int i
    | .nil, none => refuseField name "missing in date table"
    | _, _ => refuseField name "is not an integer"

/-- The time of a date, whose fields are put right; or the time now. -/
def time (vs : List Value) : Run (List Value) := do
  if isAbsent 1 vs then request .osTime []
  else
    let date := Value.table (← table 1 vs)
    let year ← dateField date "year" none 1900
    let month ← dateField date "month" none 1
    let day ← dateField date "day" none 0
    let hour ← dateField date "hour" (some 12) 0
    let min ← dateField date "min" (some 0) 0
    let sec ← dateField date "sec" (some 0) 0
    let summer ←
      match ← Run.index 0 none date (.text "isdst") with
      | .nil => pure Datum.nil
      | v => pure (.bool v.truth)
    let found ← request .osTime [year, month, day, hour, min, sec, summer]
    setDate date (dateFields.zip (found.drop 1))
    match Value.first found with
    | .nil =>
      Run.complain (bytesOf "time result cannot be represented in this installation")
    | v => return [v]

/-- A time as a text in a format, or as a table of its fields. -/
def date (vs : List Value) : Run (List Value) := do
  let format ← stringOr 1 vs (bytesOf "%c")
  let moment : Datum ← if isAbsent 2 vs then pure .nil else do pure (.int (← integer 2 vs))
  let found ← request .osDate [.string format, moment]
  let shown := Engine.beforeZero format
  if shown == bytesOf "*t" || shown == bytesOf "!*t" then
    let date ← Run.newTable (Table.empty 0 9)
    setDate date (dateFields.zip found)
    return [date]
  else return found

/-- The time between two times. -/
def difftime (vs : List Value) : Run (List Value) := do
  let a ← integer 1 vs
  let b ← integer 2 vs
  return [.float (Float.ofInt (a.toInt - b.toInt))]

/-! ## Others -/

/-- The processor time that was used. -/
def clock (_ : List Value) : Run (List Value) :=
  request .osClock []

/-- Runs another program, or tells whether that is possible. -/
def execute (vs : List Value) : Run (List Value) := do
  request .osExecute [← optional 1 vs]

/-- Ends the program: the system is told how, and there is no way back. -/
def exit (vs : List Value) : Run (List Value) := do
  let status ←
    match value 1 vs with
    | .bool b => pure (Datum.bool b)
    | _ => do pure (.int (← integerOr 1 vs 0))
  let _ ← Run.ask (.plain .osExit [status, .bool (value 2 vs).truth])
  Run.stall

/-- The value of a variable of the environment of the program. -/
def getenv (vs : List Value) : Run (List Value) := do
  request .osGetenv [.string (← string 1 vs)]

/-- Removes a file. -/
def remove (vs : List Value) : Run (List Value) := do
  let path ← string 1 vs
  Run.request (path ++ bytesOf ": ") (.plain .osRemove [.string path])

/-- Gives a file another name. -/
def rename (vs : List Value) : Run (List Value) := do
  let old ← string 1 vs
  let new ← string 2 vs
  request .osRename [.string old, .string new]

/-- The locale, or another one for some purpose. -/
def setlocale (vs : List Value) : Run (List Value) := do
  let name ← optional 1 vs
  let purpose ← option 2 ["all", "collate", "ctype", "monetary", "numeric", "time"]
    (← stringOr 2 vs (bytesOf "all"))
  request .osSetlocale [name, .string purpose]

/-- A name for a file that is not there yet. -/
def tmpname (_ : List Value) : Run (List Value) :=
  request .osTmpname []

end Stencil.Lua.Os
