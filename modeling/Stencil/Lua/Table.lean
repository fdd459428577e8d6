import Std.Data.HashMap
import Stencil.Lua.Value

/-!
# Tables

A table maps keys to values. It also keeps the order in which its keys came, and how many of its
places are meant for a sequence: both are visible, the first to a walk over the table, the second
in the length of a sequence with holes.

* `get`, `set`: the value of a key;
* `next?`: the key after a key, the places of the sequence first;
* `border`: the length, an integer key with a value and none after it.
-/

namespace Stencil.Lua

/-- A Lua table. -/
structure Table where
  /-- The value of each key, with the number under which the key stands in the order. -/
  fields : Std.HashMap Key (Nat × Value)
  /-- The keys in the order in which they came. -/
  order : Array Key
  /-- How many keys from 1 on have a place in the sequence. -/
  places : Nat
  /-- How many other keys there is room for. -/
  room : Nat
  /-- How much of that room is taken. -/
  taken : Nat
  metatable : Option Nat
  deriving Inhabited

namespace Table

/-- The table without keys, with a number of places and room for a number of other keys. -/
def empty (places room : Nat) : Table where
  fields := {}
  order := #[]
  places := places
  room := if room = 0 then 0 else room.nextPowerOfTwo
  taken := 0
  metatable := none

/-- The value of a key; nil if the table does not have it. -/
def get (t : Table) (k : Key) : Value :=
  match t.fields[k]? with
  | some (_, v) => v
  | none => .nil

/-- Whether a key has a place in a sequence of a length. -/
def isPlace (places : Nat) : Key → Bool
  | .int i => 1 ≤ i && i.toInt ≤ places
  | _ => false

/-- How many integer keys with a value lie above `2^(i-1)` and up to `2^i`, for each `i`, and how
many keys have a value. -/
def census (t : Table) : Array Nat × Nat :=
  t.fields.fold
    (fun (counts, total) k v =>
      if v.2.isNil then (counts, total)
      else
        match k with
        | .int i =>
          if 1 ≤ i && i.toInt ≤ Int.pow 2 26 then
            let n := i.toInt.toNat
            (counts.modify (if n = 1 then 0 else (n - 1).log2 + 1) (· + 1), total + 1)
          else (counts, total + 1)
        | _ => (counts, total + 1))
    (Array.replicate 28 0, 0)

/-- The largest power of two of which more than half of the keys from 1 on have a value, and how
many of them do. -/
def bestPlaces (counts : Array Nat) : Nat × Nat :=
  let step (acc : Nat × Nat × Nat) (i : Nat) : Nat × Nat × Nat :=
    let (seen, best, inside) := acc
    let seen := seen + counts.getD i 0
    if Nat.pow 2 i / 2 < seen then (seen, Nat.pow 2 i, seen) else (seen, best, inside)
  let (_, best, inside) := (List.range 28).foldl step (0, 0, 0)
  (best, inside)

/-- Makes room for one more key: keys without a value go, and the places of the sequence are
chosen anew. -/
def grow (t : Table) (k : Key) : Table :=
  let (counts, total) := t.census
  let counts :=
    match k with
    | .int i =>
      if 1 ≤ i && i.toInt ≤ Int.pow 2 26 then
        let n := i.toInt.toNat
        counts.modify (if n = 1 then 0 else (n - 1).log2 + 1) (· + 1)
      else counts
    | _ => counts
  let (places, inside) := bestPlaces counts
  let others := total + 1 - inside
  { t with
    fields := t.fields.filter fun _ v => !v.2.isNil
    places := places
    room := if others = 0 then 0 else others.nextPowerOfTwo
    taken := if isPlace places k then others else others - 1 }

/-- The table with places for a sequence of a length at least. -/
def reserve (t : Table) (length : Nat) : Table :=
  if length ≤ t.places then t
  else
    { t with
      places := length
      taken := t.fields.fold (fun n k _ => if isPlace length k then n else n + 1) 0 }

/-- Puts a new key with a value. -/
def add (t : Table) (k : Key) (v : Value) : Table :=
  let fields := t.fields.insert k (t.order.size, v)
  { t with
    fields := fields
    order := t.order.push k
    taken := if isPlace t.places k then t.taken else t.taken + 1 }

/-- Sets the value of a key. -/
def set (t : Table) (k : Key) (v : Value) : Table :=
  match t.fields[k]? with
  | some (n, _) => { t with fields := t.fields.insert k (n, v) }
  | none =>
    if v.isNil then t
    else if !isPlace t.places k && t.room ≤ t.taken then (t.grow k).add k v
    else t.add k v

/-- The value of an integer key counted from 1. -/
def getAt (t : Table) (i : Nat) : Value :=
  t.get (.int (Int64.ofNat i))

/-- A border between `low`, which has a value or is 0, and `high`, which has none. -/
def borderBetween (t : Table) : Nat → Nat → Nat → Nat
  | 0, low, _ => low
  | fuel + 1, low, high =>
    if high - low ≤ 1 then low
    else
      let middle := (low + high) / 2
      if (t.getAt middle).isNil then borderBetween t fuel low middle
      else borderBetween t fuel middle high

/-- A border above `low`, which has a value, found by doubling. -/
def borderAbove (t : Table) : Nat → Nat → Nat
  | 0, low => low
  | fuel + 1, low =>
    let high := low * 2
    if (t.getAt high).isNil then t.borderBetween 64 low high else borderAbove t fuel high

/-- The length of a table. -/
def border (t : Table) : Nat :=
  let n := t.places
  if 0 < n && (t.getAt n).isNil then
    if 2 ≤ n && !(t.getAt (n - 1)).isNil then n - 1 else t.borderBetween 64 0 n
  else if t.room = 0 || (t.getAt (n + 1)).isNil then n
  else t.borderAbove 64 (n + 1)

/-- The first key at or after a place of the sequence that has a value, or else the first other
key at or after a number of the order. -/
def nextOther (t : Table) : Nat → Nat → Option (Key × Value)
  | 0, _ => none
  | fuel + 1, n =>
    match t.order[n]? with
    | none => none
    | some k =>
      match t.fields[k]? with
      | some (m, v) =>
        if m == n && !v.isNil && !isPlace t.places k then some (k, v)
        else nextOther t fuel (n + 1)
      | none => nextOther t fuel (n + 1)

/-- The first key at or after a place of the sequence that has a value. -/
def nextPlace (t : Table) : Nat → Nat → Option (Key × Value)
  | 0, _ => t.nextOther (t.order.size + 1) 0
  | fuel + 1, i =>
    if i ≤ t.places then
      let v := t.getAt i
      if v.isNil then nextPlace t fuel (i + 1) else some (.int (Int64.ofNat i), v)
    else t.nextOther (t.order.size + 1) 0

/-- The key after a key in a walk over the table, with its value, or that there is none; the walk
starts with no key. A key that the table does not have is refused. -/
def next? (t : Table) : Option Key → Except Unit (Option (Key × Value))
  | none => .ok (t.nextPlace (t.places + 1) 1)
  | some k =>
    if isPlace t.places k then
      match k with
      | .int i => .ok (t.nextPlace (t.places + 1) (i.toInt.toNat + 1))
      | _ => .ok none
    else
      match t.fields[k]? with
      | some (n, _) => .ok (t.nextOther (t.order.size + 1) (n + 1))
      | none => .error ()

/-- The table of a sequence of values, with room for other keys. -/
def ofList (vs : List Value) (room : Nat) : Table :=
  (vs.foldl
    (fun (t, i) v => (t.set (.int i) v, i + 1))
    (empty vs.length room, (1 : Int64))).1

end Table

end Stencil.Lua
