import Stencil.Proofs.Lua.Running
import Stencil.Proofs.Lua.Table

/-!
# The places of a store

What the places of a store hold after one of them was changed, or after there are more of them.

* `getD_push`, `getD_modify`: one item of an array, after another one was added or changed;
* `Store.table_newTable`, `table_rawSet`, and the like: one change, and what it leaves as it is;
* `Store.Grown`: a store with more variables;
* `gives_index`, `gives_index_bare`: the fields of tables.
-/

namespace Stencil.Lua

open Machine (Gives)

/-! ## Arrays -/

section

variable {α : Type} {xs : Array α} {i j : Nat}

theorem getD_push (h : i < xs.size) (x d : α) : (xs.push x).getD i d = xs.getD i d := by
  rw [Array.getD_eq_getD_getElem?, Array.getD_eq_getD_getElem?, Array.getElem?_push,
    if_neg (Nat.ne_of_lt h)]

theorem getD_push_size (xs : Array α) (x d : α) : (xs.push x).getD xs.size d = x := by
  rw [Array.getD_eq_getD_getElem?, Array.getElem?_push_size]
  rfl

theorem getD_modify (h : j ≠ i) (f : α → α) (d : α) :
    (xs.modify j f).getD i d = xs.getD i d := by
  rw [Array.getD_eq_getD_getElem?, Array.getD_eq_getD_getElem?, Array.getElem?_modify, if_neg h]

theorem getD_modify_self (h : i < xs.size) (f : α → α) (d : α) :
    (xs.modify i f).getD i d = f (xs.getD i d) := by
  rw [Array.getD_eq_getD_getElem?, Array.getD_eq_getD_getElem?, Array.getElem?_modify, if_pos rfl,
    Array.getElem?_eq_getElem h]
  rfl

end

namespace Store

variable {s s' s'' : Store} {p : Nat}

/-! ## Tables -/

theorem table_newTable (s : Store) (t : Table) (h : p < s.tables.size) :
    (s.newTable t).2.table p = s.table p :=
  getD_push h ..

theorem table_newTable_size (s : Store) (t : Table) : (s.newTable t).2.table s.tables.size = t :=
  getD_push_size ..

theorem size_newTable (s : Store) (t : Table) :
    (s.newTable t).2.tables.size = s.tables.size + 1 := Array.size_push _

/-- Changing a new table is the same as making the changed one. -/
theorem modifyTable_newTable (s : Store) (t : Table) (f : Table → Table) :
    (s.newTable t).2.modifyTable s.tables.size f = (s.newTable (f t)).2 := by
  have h : (s.tables.push t).modify s.tables.size f = s.tables.push (f t) := by
    refine Array.ext_getElem? fun i => ?_
    rw [Array.getElem?_modify, Array.getElem?_push, Array.getElem?_push]
    by_cases hi : i = s.tables.size
    · rw [if_pos hi.symm, if_pos hi, if_pos hi]
      rfl
    · rw [if_neg (Ne.symm hi), if_neg hi, if_neg hi]
  rw [modifyTable, newTable, newTable]
  simp only [h]

/-- A table is changed in the same way before another one is made. -/
theorem newTable_modifyTable (s : Store) (t : Table) (f : Table → Table) (h : p < s.tables.size) :
    (s.newTable t).2.modifyTable p f = ((s.modifyTable p f).newTable t).2 := by
  have h : (s.tables.push t).modify p f = (s.tables.modify p f).push t := by
    refine Array.ext_getElem? fun i => ?_
    rw [Array.getElem?_modify, Array.getElem?_push, Array.getElem?_push, Array.getElem?_modify,
      Array.size_modify]
    by_cases hi : i = s.tables.size
    · rw [if_pos hi, if_pos hi, if_neg (by omega)]
    · rw [if_neg hi, if_neg hi]
  rw [modifyTable, newTable, newTable, modifyTable]
  simp only [h]

theorem size_rawSet (s : Store) (p : Nat) (k : Key) (v : Value) :
    (s.rawSet p k v).tables.size = s.tables.size := Array.size_modify

theorem table_rawSet (s : Store) (k : Key) (v : Value) {p' : Nat} (h : p' ≠ p) :
    (s.rawSet p' k v).table p = s.table p :=
  getD_modify h ..

theorem table_rawSet_self (s : Store) (k : Key) (v : Value) (h : p < s.tables.size) :
    (s.rawSet p k v).table p = (s.table p).set k v :=
  getD_modify_self h ..

/-- Setting a field of a table leaves all metatables. -/
theorem metatable_rawSet (s : Store) (p' : Nat) (k : Key) (v : Value) (p : Nat) :
    ((s.rawSet p' k v).table p).metatable = (s.table p).metatable := by
  by_cases hp : p' = p
  · subst hp
    show ((s.tables.modify p' _).getD p' _).metatable = (s.tables.getD p' _).metatable
    rw [Array.getD_eq_getD_getElem?, Array.getD_eq_getD_getElem?, Array.getElem?_modify, if_pos rfl]
    cases s.tables[p']? with
    | none => rfl
    | some t => exact t.metatable_set k v
  · rw [table_rawSet s k v hp]

/-! ## Variables -/

theorem cell_newCell (s : Store) (v : Value) (h : p < s.cells.size) :
    (s.newCell v).2.cell p = s.cell p :=
  getD_push h ..

theorem cell_newCell_size (s : Store) (v : Value) : (s.newCell v).2.cell s.cells.size = v :=
  getD_push_size ..

theorem size_newCell (s : Store) (v : Value) : (s.newCell v).2.cells.size = s.cells.size + 1 :=
  Array.size_push _

theorem cell_setCell (s : Store) (v : Value) {p' : Nat} (h : p' ≠ p) :
    (s.setCell p' v).cell p = s.cell p := by
  show (s.cells.setIfInBounds p' v).getD p _ = s.cells.getD p _
  rw [Array.getD_eq_getD_getElem?, Array.getD_eq_getD_getElem?, Array.getElem?_setIfInBounds_ne h]

theorem cell_setCell_self (s : Store) (v : Value) (h : p < s.cells.size) :
    (s.setCell p v).cell p = v := by
  show (s.cells.setIfInBounds p v).getD p _ = v
  rw [Array.getD_eq_getD_getElem?, Array.getElem?_setIfInBounds_self_of_lt h]
  rfl

theorem closure_newClosure_size (s : Store) (c : Closure) :
    (s.newClosure c).2.closure s.closures.size = c :=
  getD_push_size ..

theorem closure_newClosure (s : Store) (c : Closure) (h : p < s.closures.size) :
    (s.newClosure c).2.closure p = s.closure p :=
  getD_push h ..

/-- A store is another one with more variables, and nothing else is different. -/
structure Grown (s s' : Store) : Prop where
  same : s' = { s with cells := s'.cells }
  size : s.cells.size ≤ s'.cells.size
  cell : ∀ p < s.cells.size, s'.cell p = s.cell p

namespace Grown

theorem refl (s : Store) : s.Grown s := ⟨rfl, Nat.le_refl _, fun _ _ => rfl⟩

theorem trans (h : s.Grown s') (h' : s'.Grown s'') : s.Grown s'' where
  same := by
    rw [h'.same, h.same]
  size := Nat.le_trans h.size h'.size
  cell p hp := (h'.cell p (Nat.lt_of_lt_of_le hp h.size)).trans (h.cell p hp)

theorem newCell (h : s.Grown s') (v : Value) : s.Grown (s'.newCell v).2 where
  same := by
    rw [h.same]
    rfl
  size := by
    rw [size_newCell]
    exact Nat.le_succ_of_le h.size
  cell p hp := (cell_newCell s' v (Nat.lt_of_lt_of_le hp h.size)).trans (h.cell p hp)

/-- A new variable may be set. -/
theorem setCell (h : s.Grown s') (v : Value) (hp : s.cells.size ≤ p) : s.Grown (s'.setCell p v) where
  same := by
    rw [h.same]
    rfl
  size := by
    show _ ≤ (s'.cells.setIfInBounds p v).size
    rw [Array.size_setIfInBounds]
    exact h.size
  cell q hq := (cell_setCell s' v (by omega)).trans (h.cell q hq)

theorem emit (h : s.Grown s') (b : Bytes) : (s.emit b).Grown (s'.emit b) where
  same := by
    rw [h.same]
    rfl
  size := h.size
  cell := h.cell

theorem newObject (h : s.Grown s') (o : HostObject) :
    (s.newObject o).2.Grown (s'.newObject o).2 where
  same := by
    rw [h.same]
    rfl
  size := h.size
  cell := h.cell

theorem tables (h : s.Grown s') : s'.tables = s.tables := by
  rw [h.same]

theorem closures (h : s.Grown s') : s'.closures = s.closures := by
  rw [h.same]

theorem objects (h : s.Grown s') : s'.objects = s.objects := by
  rw [h.same]

theorem output (h : s.Grown s') : s'.output = s.output := by
  rw [h.same]

theorem table (h : s.Grown s') (p : Nat) : s'.table p = s.table p := by
  rw [Store.table, h.tables, Store.table]

theorem rawGet (h : s.Grown s') (p : Nat) (k : Key) : s'.rawGet p k = s.rawGet p k := by
  rw [Store.rawGet, h.table, Store.rawGet]

theorem closure (h : s.Grown s') (p : Nat) : s'.closure p = s.closure p := by
  rw [Store.closure, h.closures, Store.closure]

end Grown

end Store

variable {m : Machine} {s : Store}

/-! ## Fields -/

/-- A field that a table has is found without a step. -/
theorem gives_index {line p : Nat} {d : Description} {key v : Value} {k : Key}
    (hk : Key.ofValue key = some k) (h : s.rawGet p k = v) (hv : v.isNil = false) :
    Gives m s (Run.index line d (.table p) key) 0 v s := by
  show Gives m s (Run.indexThrough line (1999 + 1) d (.table p) key) 0 v s
  rw [Run.indexThrough]
  refine Gives.store ?_
  simp only [hk, h, hv, Bool.not_false, ↓reduceIte]
  exact Gives.pure m s v

/-- A table without a metatable answers for itself alone. -/
theorem Run.index_bare {line p : Nat} {desc : Description} {key : Value} {k : Key}
    (hk : Key.ofValue key = some k) (hbare : (s.table p).metatable = none)
    (next : Value → Store → Action) :
    Run.index line desc (.table p) key s next = next (s.rawGet p k) s := by
  have hmethod : s.metamethod (.table p) "__index" = .nil := by
    rw [Store.metamethod, Store.metatable, hbare]
  show Run.indexThrough line (1999 + 1) desc (.table p) key s next = _
  simp only [indexThrough, bind, Run.bind, store, hk, hmethod]
  cases hv : (s.rawGet p k).isNil with
  | false => rfl
  | true =>
    rw [Table.get_of_isNil hv]
    rfl

theorem gives_index_bare {line p : Nat} {desc : Description} {key : Value} {k : Key}
    (hk : Key.ofValue key = some k) (hbare : (s.table p).metatable = none) :
    Gives m s (Run.index line desc (.table p) key) 0 (s.rawGet p k) s := fun next => by
  rw [Run.index_bare hk hbare]
  exact Machine.Steps.refl _ _

end Stencil.Lua
