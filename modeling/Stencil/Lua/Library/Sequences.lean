import Stencil.Lua.Library.Argument

/-!
# The library `table`

Sequences: the values of the keys from 1 up to a length. Fields are read and set with metamethods.
-/

namespace Stencil.Lua.Sequences

open Argument

/-! ## Items -/

/-- The item of a sequence at an index. -/
def item (t : Value) (i : Int64) : Run Value :=
  Run.index 0 none t (.int i)

/-- Sets the item of a sequence at an index. -/
def setItem (t : Value) (i : Int64) (v : Value) : Run Unit :=
  Run.setIndex 0 none t (.int i) v

/-- The length of a value, which must be an integer. -/
def lengthOf (v : Value) : Run Int64 := do
  match ← Run.length 0 v none with
  | .int i => return i
  | v =>
    match v.toNumber.bind Numeral.toInt with
    | some i => return i
    | none => Run.complain (bytesOf "object length is not an integer")

/-- An argument that is a table, or has the metamethods to stand in for one. -/
def tableLike (n : Nat) (events : List String) (vs : List Value) : Run Value := do
  let v := value n vs
  let s ← Run.store
  match v with
  | .table _ => return v
  | v =>
    if (s.metatable v).isSome && events.all fun e => !(s.metamethod v e).isNil then return v
    else do
      let _ ← table n vs
      return v

/-- A sequence that is read and changed, and its length. -/
def sequence (events : List String) (vs : List Value) : Run (Value × Int64) := do
  let t ← tableLike 1 (events ++ ["__len"]) vs
  return (t, ← lengthOf t)

/-- The events of reading and changing fields. -/
def bothWays : List String := ["__index", "__newindex"]

/-- Moves items one index up, from the last of `count` to the first. -/
def shiftUp (t : Value) (last : Int64) : Nat → Run Unit
  | 0 => pure ()
  | count + 1 => do
    let v ← item t (last - 1)
    setItem t last v
    shiftUp t (last - 1) count

/-- Moves `count` items one index down, from the first to the last. -/
def shiftDown (t : Value) (first : Int64) : Nat → Run Unit
  | 0 => pure ()
  | count + 1 => do
    let v ← item t (first + 1)
    setItem t first v
    shiftDown t (first + 1) count

/-- Puts a value at the end of a sequence, or in front of an item. -/
def insert (vs : List Value) : Run (List Value) := do
  let (t, length) ← sequence bothWays vs
  let free := length + 1
  match vs.length with
  | 2 =>
    setItem t free (value 2 vs)
    return []
  | 3 =>
    let position ← integer 2 vs
    require ((position - 1).toUInt64 < free.toUInt64) 2 "position out of bounds"
    shiftUp t free (free - position).toInt.toNat
    setItem t position (value 3 vs)
    return []
  | _ => Run.complain (bytesOf "wrong number of arguments to 'insert'")

/-- Takes an item out of a sequence, the last one if no index is given. -/
def remove (vs : List Value) : Run (List Value) := do
  let (t, length) ← sequence bothWays vs
  let position ← integerOr 2 vs length
  if position != length then
    require ((position - 1).toUInt64 ≤ length.toUInt64) 2 "position out of bounds"
  let v ← item t position
  let count := (length - position).toInt.toNat
  shiftDown t position count
  setItem t (position + Int64.ofNat count) .nil
  return [v]

/-- Copies `count` items, upwards from an offset. -/
def copyUp (source target : Value) (first destination : Int64) : Nat → Int64 → Run Unit
  | 0, _ => pure ()
  | count + 1, i => do
    let v ← item source (first + i)
    setItem target (destination + i) v
    copyUp source target first destination count (i + 1)

/-- Copies `count` items, the last first. -/
def copyDown (source target : Value) (first destination : Int64) : Nat → Run Unit
  | 0 => pure ()
  | count + 1 => do
    let v ← item source (first + Int64.ofNat count)
    setItem target (destination + Int64.ofNat count) v
    copyDown source target first destination count

/-- Copies items to other indices, of the same sequence or another. -/
def move (vs : List Value) : Run (List Value) := do
  let first ← integer 2 vs
  let last ← integer 3 vs
  let destination ← integer 4 vs
  let other := if isAbsent 5 vs then 1 else 5
  let source ← tableLike 1 ["__index"] vs
  let target ← tableLike other ["__newindex"] vs
  if first ≤ last then
    require (0 < first || last.toInt < Int64.maxValue.toInt + first.toInt) 3
      "too many elements to move"
    let count := last - first + 1
    require (destination ≤ Int64.maxValue - count + 1) 4 "destination wrap around"
    let overlaps := destination ≤ last && first < destination
    let same ← if overlaps && other != 1 then Run.equals 0 source target else pure overlaps
    let apart := !same
    if apart then copyUp source target first destination count.toInt.toNat 0
    else copyDown source target first destination count.toInt.toNat
  return [target]

/-! ## Texts and values -/

/-- The text of an item that can be joined to others. -/
def itemText (t : Value) (i : Int64) : Run Bytes := do
  let v ← item t i
  match v.toBytes with
  | some b => return b
  | none =>
    Run.complain (bytesOf ("invalid value (" ++ v.typeName ++ ") at index " ++ toString i.toInt ++
      " in table for 'concat'"))

/-- The texts of `count` items after an index, each after a separator. -/
def joinFrom (t : Value) (separator : Bytes) : Nat → Int64 → Bytes → Run Bytes
  | 0, _, out => pure out
  | count + 1, i, out => do
    let b ← itemText t i
    joinFrom t separator count (i + 1) (out ++ separator ++ b)

/-- The texts of the items of a sequence, with a separator between them. -/
def concat (vs : List Value) : Run (List Value) := do
  let (t, length) ← sequence ["__index"] vs
  let separator ← stringOr 2 vs ByteArray.empty
  let first ← integerOr 3 vs 1
  let last ← integerOr 4 vs length
  if last < first then return [.string ByteArray.empty]
  else
    let b ← itemText t first
    return [.string (← joinFrom t separator (last.toInt - first.toInt).toNat (first + 1) b)]

/-- The table of the arguments, with their number. -/
def pack (vs : List Value) : Run (List Value) := do
  let t := (Table.ofList vs 1).set (.text "n") (.int (Int64.ofNat vs.length))
  return [← Run.newTable t]

/-- `count` items from an index on. -/
def itemsFrom (t : Value) : Nat → Int64 → Run (List Value)
  | 0, _ => pure []
  | count + 1, i => do
    let v ← item t i
    let vs ← itemsFrom t count (i + 1)
    return v :: vs

/-- The items of a sequence as results. -/
def unpack (vs : List Value) : Run (List Value) := do
  let t := value 1 vs
  let first ← integerOr 2 vs 1
  let last ← if isAbsent 3 vs then lengthOf t else integer 3 vs
  if last < first then return []
  else
    let count := (last.toInt - first.toInt + 1).toNat
    if 999900 ≤ count then Run.complain (bytesOf "too many results to unpack")
    else itemsFrom t count first

/-! ## Sorting

A sequence is sorted around a pivot: the median of its first, middle and last item. The steps and
the comparisons are visible to the order function, so they are fixed. -/

/-- A sequence that is being sorted, and the function that orders it, if it is not `<`. -/
structure Sorting where
  sequence : Value
  order : Value

namespace Sorting

/-- Whether an item comes before another. -/
def before (z : Sorting) (a b : Value) : Run Bool := do
  match z.order with
  | .nil => Run.lessThan 0 a b
  | f => return (← Run.callOne f [a, b] ⟨0, none⟩).truth

/-- The item at an index. -/
def get (z : Sorting) (i : Int) : Run Value :=
  item z.sequence (Int64.ofInt i)

/-- Sets the items at two indices. -/
def put (z : Sorting) (i : Int) (a : Value) (j : Int) (b : Value) : Run Unit := do
  setItem z.sequence (Int64.ofInt i) a
  setItem z.sequence (Int64.ofInt j) b

/-- Raises that the order function is not an order. -/
def invalid {α : Type} : Run α :=
  Run.complain (bytesOf "invalid order function for sorting")

/-- The first index after `i` with an item that does not come before the pivot, and the item. -/
def scanUp (z : Sorting) (pivot : Value) (top : Int) : Nat → Int → Run (Int × Value)
  | 0, _ => invalid
  | fuel + 1, i => do
    let v ← z.get (i + 1)
    if ← z.before v pivot then
      if i + 1 == top then invalid else scanUp z pivot top fuel (i + 1)
    else return (i + 1, v)

/-- The first index before `j` with an item that the pivot does not come before, and the item. -/
def scanDown (z : Sorting) (pivot : Value) (i : Int) : Nat → Int → Run (Int × Value)
  | 0, _ => invalid
  | fuel + 1, j => do
    let v ← z.get (j - 1)
    if ← z.before pivot v then
      if j - 1 < i then invalid else scanDown z pivot i fuel (j - 1)
    else return (j - 1, v)

/-- Moves the items that come before the pivot, which stands at `top`, in front of the others, and
tells where the pivot stands then. -/
def partition (z : Sorting) (pivot : Value) (top : Int) : Nat → Int → Int → Run Int
  | 0, _, _ => invalid
  | fuel + 1, i, j => do
    let (i, a) ← z.scanUp pivot top (fuel + 1) i
    let (j, b) ← z.scanDown pivot i (fuel + 2) j
    if j < i then
      z.put top a i pivot
      return i
    else
      z.put i b j a
      partition z pivot top fuel i j

/-- Sorts the items between two indices, both counted. -/
def sortRange (z : Sorting) : Nat → Int → Int → Run Unit
  | 0, _, _ => pure ()
  | fuel + 1, low, high => do
    if low < high then
      let first ← z.get low
      let last ← z.get high
      if ← z.before last first then z.put low last high first
      if high - low != 1 then
        let middle := (low + high) / 2
        let m ← z.get middle
        let first ← z.get low
        if ← z.before m first then z.put middle first low m
        else
          let last ← z.get high
          if ← z.before last m then z.put middle last high m
        if high - low != 2 then
          let pivot ← z.get middle
          let next ← z.get (high - 1)
          z.put middle next (high - 1) pivot
          let p ← z.partition pivot (high - 1) (high - low + 2).toNat low (high - 1)
          if p - low < high - p then
            sortRange z fuel low (p - 1)
            sortRange z fuel (p + 1) high
          else
            sortRange z fuel (p + 1) high
            sortRange z fuel low (p - 1)

end Sorting

/-- Sorts a sequence. -/
def sort (vs : List Value) : Run (List Value) := do
  let (t, length) ← sequence bothWays vs
  if 1 < length then
    require (length < 2147483647) 1 "array too big"
    let order ← if isAbsent 2 vs then pure .nil else function 2 vs
    (Sorting.mk t order).sortRange length.toInt.toNat 1 length.toInt
  return []

end Stencil.Lua.Sequences
