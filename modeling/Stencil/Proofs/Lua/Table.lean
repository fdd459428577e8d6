import Mathlib.Algebra.Group.Nat.Defs
import Stencil.Lua.Library

/-!
# Fields of tables

What a table answers after a field was set, and the fields that a new store has.

* `Table.get_set`: a set field has its value, and every other field keeps its own;
* `Table.getAt_ofList`, `border_ofList`: the items and the length of a list of values;
* `get_withFields`: of the fields that are put into a table, the last of a name counts;
* `get_globalTable_t4`, `get_engineTable_write`: the functions that generated code calls.
-/

namespace Stencil.Lua

namespace Table

variable {t : Table} {k k' : Key} {v : Value}

theorem get_eq (t : Table) (k : Key) : t.get k = (t.fields[k]?.map Prod.snd).getD .nil := by
  rw [get]
  cases t.fields[k]? <;> rfl

theorem get_of_isNil (h : v.isNil = true) : v = .nil := by
  cases v <;> first | rfl | exact absurd h Bool.false_ne_true

theorem get_add (t : Table) (k k' : Key) (v : Value) :
    (t.add k v).get k' = if k = k' then v else t.get k' := by
  rw [get_eq, add]
  simp only [Std.HashMap.getElem?_insert, beq_iff_eq]
  split
  · rfl
  · exact (get_eq t k').symm

/-- Making room drops only keys without a value. -/
theorem get_grow (t : Table) (k k' : Key) : (t.grow k).get k' = t.get k' := by
  have h : (t.grow k).fields = t.fields.filter fun _ v => !v.2.isNil := rfl
  rw [get_eq, get_eq, h, Std.HashMap.getElem?_filter']
  cases t.fields[k']? with
  | none => rfl
  | some x =>
    rw [Option.filter_some]
    cases hx : x.2.isNil with
    | false => rfl
    | true => exact (get_of_isNil hx).symm

/-- A field that is set has its value, and every other field keeps its own. -/
theorem get_set (t : Table) (k k' : Key) (v : Value) :
    (t.set k v).get k' = if k = k' then v else t.get k' := by
  rw [set]
  cases hk : t.fields[k]? with
  | some x =>
    show (Table.get { t with fields := t.fields.insert k (x.1, v) } k') = _
    rw [get_eq]
    simp only [Std.HashMap.getElem?_insert, beq_iff_eq]
    split
    · rfl
    · exact (get_eq t k').symm
  | none =>
    dsimp only
    split
    · -- Nothing is put where there was nothing.
      next hv =>
        split
        · next h => rw [← h, get_eq, hk, get_of_isNil hv]; rfl
        · rfl
    · split
      · rw [get_add, get_grow]
      · exact get_add t k k' v

/-- Setting a field leaves the metatable. -/
theorem metatable_set (t : Table) (k : Key) (v : Value) : (t.set k v).metatable = t.metatable := by
  rw [set]
  split
  · rfl
  · split
    · rfl
    · split <;> rfl

theorem get_empty (places room : Nat) (k : Key) : (empty places room).get k = .nil := by
  rw [get_eq, empty, Std.HashMap.getElem?_empty]
  rfl

theorem metatable_empty (places room : Nat) : (empty places room).metatable = none := rfl

/-- A list of values has no metatable. -/
theorem metatable_ofList (vs : List Value) (room : Nat) : (ofList vs room).metatable = none := by
  have hfold : ∀ (vs : List Value) (t : Table) (i : Int64),
      (vs.foldl (fun p v => (p.1.set (.int p.2) v, p.2 + 1)) (t, i)).1.metatable = t.metatable := by
    intro vs
    induction vs with
    | nil => exact fun _ _ => rfl
    | cons v vs ih => exact fun t i => (ih _ _).trans (t.metatable_set _ _)
  exact hfold vs _ _

/-! ## Lists -/

theorem isPlace_ofNat {places n : Nat} (hpos : 0 < n) (hn : n ≤ places) (hp : places < 2 ^ 63) :
    isPlace places (.int (Int64.ofNat n)) = true := by
  have h : (Int64.ofNat n).toInt = n := Int64.toInt_ofNat_of_lt (by omega)
  simp only [isPlace, Bool.and_eq_true, decide_eq_true_eq, Int64.le_iff_toInt_le, h]
  exact ⟨by show (1 : Int) ≤ n; omega, by omega⟩

/-- A key that has a place needs no room. -/
theorem places_set {t : Table} {k : Key} (h : isPlace t.places k = true) (v : Value) :
    (t.set k v).places = t.places ∧ (t.set k v).room = t.room := by
  rw [set]
  split
  · exact ⟨rfl, rfl⟩
  · rw [h]
    split <;> exact ⟨rfl, rfl⟩

theorem getAt_set (t : Table) (v : Value) {i n : Nat} (hi : i < 2 ^ 63) (hn : n < 2 ^ 63) :
    (t.set (.int (Int64.ofNat n)) v).getAt i = if n = i then v else t.getAt i := by
  have hkey : Key.int (Int64.ofNat n) = .int (Int64.ofNat i) ↔ n = i := by
    rw [Key.int.injEq, ← Int64.toInt_inj, Int64.toInt_ofNat_of_lt hn, Int64.toInt_ofNat_of_lt hi]
    exact Int.ofNat_inj
  simp only [getAt, get_set, hkey]

/-- Values that are put into places from one on stand there, in order. -/
theorem foldl_set (vs : List Value) {t : Table} {n : Nat} (hn : n + vs.length ≤ t.places)
    (hp : t.places < 2 ^ 63) :
    let t' := (vs.foldl (fun p v => (p.1.set (.int p.2) v, p.2 + 1)) (t, Int64.ofNat (n + 1))).1
    t'.places = t.places ∧ t'.room = t.room ∧
      ∀ i < 2 ^ 63, t'.getAt i = if i ≤ n then t.getAt i else vs[i - n - 1]?.getD (t.getAt i) := by
  induction vs generalizing t n with
  | nil => exact ⟨rfl, rfl, fun i _ => by simp⟩
  | cons v vs ih =>
    rw [List.length_cons] at hn
    obtain ⟨hplaces, hroom⟩ := places_set (isPlace_ofNat (Nat.succ_pos n) (by omega) hp) v
    have hnext : Int64.ofNat (n + 1) + 1 = Int64.ofNat (n + 1 + 1) := (Int64.ofNat_add (n + 1) 1).symm
    rw [List.foldl_cons, hnext]
    obtain ⟨h₁, h₂, h₃⟩ := ih (t := t.set (.int (Int64.ofNat (n + 1))) v) (n := n + 1)
      (by rw [hplaces]; omega) (by rwa [hplaces])
    refine ⟨h₁.trans hplaces, h₂.trans hroom, fun i hi => (h₃ i hi).trans ?_⟩
    rw [getAt_set t v hi (by omega)]
    rcases Nat.lt_trichotomy i (n + 1) with hlt | rfl | hgt
    · rw [if_pos (by omega), if_neg (by omega), if_pos (by omega)]
    · rw [if_pos (Nat.le_refl _), if_pos rfl, if_neg (by omega), show n + 1 - n - 1 = 0 by omega]
      rfl
    · rw [if_neg (by omega), if_neg (by omega), if_neg (by omega),
        show i - n - 1 = i - (n + 1) - 1 + 1 by omega, List.getElem?_cons_succ]

/-- A list of values has them in its places, in order. -/
theorem getAt_ofList {vs : List Value} (hvs : vs.length < 2 ^ 63) (room : Nat) {i : Nat}
    (hi : i < vs.length) : (ofList vs room).getAt (i + 1) = vs[i] := by
  obtain ⟨-, -, h⟩ := foldl_set vs (t := empty vs.length room) (n := 0) (by simp [empty])
    (by simpa [empty] using hvs)
  refine (h (i + 1) (by omega)).trans ?_
  simp [hi]

/-- The length of a list of values, none of which is nil. -/
theorem border_ofList {vs : List Value} (hvs : vs.length < 2 ^ 63)
    (hpresent : ∀ v ∈ vs, v.isNil = false) : (ofList vs 0).border = vs.length := by
  obtain ⟨hplaces, hroom, -⟩ := foldl_set vs (t := empty vs.length 0) (n := 0) (by simp [empty])
    (by simpa [empty] using hvs)
  have hplaces : (ofList vs 0).places = vs.length := hplaces
  have hroom : (ofList vs 0).room = 0 := hroom
  have hlast : (0 < vs.length && ((ofList vs 0).getAt vs.length).isNil) = false := by
    rcases Nat.eq_zero_or_pos vs.length with hzero | hpos
    · rw [hzero]
      rfl
    · have := getAt_ofList hvs 0 (i := vs.length - 1) (by omega)
      rw [Nat.sub_add_cancel hpos] at this
      rw [this, hpresent _ (List.getElem_mem _), Bool.and_false]
  rw [border, hplaces]
  simp only [hlast, hroom]
  rfl

end Table

/-- Of the fields that are put into a table, the last of a name counts. -/
theorem get_withFields (t : Table) (fields : List (String × Value)) (name : String) :
    (withFields t fields).get (.text name) =
      ((fields.reverse.find? fun f => bytesOf f.1 = bytesOf name).map Prod.snd).getD
        (t.get (.text name)) := by
  induction fields generalizing t with
  | nil => rfl
  | cons f fields ih =>
    have hk : (Key.text f.1 = Key.text name) ↔ bytesOf f.1 = bytesOf name := by
      rw [Key.text, Key.text, Key.string.injEq]
    show (withFields (t.set (.text f.1) f.2) fields).get (.text name) = _
    rw [ih, Table.get_set, List.reverse_cons, List.find?_append]
    cases fields.reverse.find? fun f => bytesOf f.1 = bytesOf name with
    | some g => rfl
    | none =>
      by_cases h : bytesOf f.1 = bytesOf name
      · rw [if_pos (hk.mpr h)]
        simp [h]
      · rw [if_neg fun e => h (hk.mp e)]
        simp [h]

theorem metatable_withFields (t : Table) (fields : List (String × Value)) :
    (withFields t fields).metatable = t.metatable := by
  induction fields generalizing t with
  | nil => rfl
  | cons f fields ih => exact (ih _).trans (t.metatable_set _ _)

theorem tableOf_eq (functions : List (String × Builtin)) :
    tableOf functions = withFields (Table.empty 0 functions.length)
      (functions.map fun f => (f.1, .builtin f.2)) := by
  rw [tableOf, withFields, List.foldl_map]

theorem metatable_tableOf (functions : List (String × Builtin)) :
    (tableOf functions).metatable = none := by
  rw [tableOf_eq, metatable_withFields]
  rfl

namespace Store

/-- Where generated code finds the functions of the engine. -/
theorem get_globalTable_t4 : globalTable.get (.text "t4") = .table 16 := by
  rw [globalTable, get_withFields]
  rfl

theorem get_globalTable_tostring : globalTable.get (.text "tostring") = .builtin .tostring := by
  rw [globalTable, get_withFields, tableOf_eq, get_withFields]
  rfl

/-- What the program that makes environments calls. -/
theorem get_globalTable_setmetatable :
    globalTable.get (.text "setmetatable") = .builtin .setmetatable := by
  rw [globalTable, get_withFields, tableOf_eq, get_withFields]
  rfl

theorem get_globalTable_require : globalTable.get (.text "require") = .builtin .require := by
  rw [globalTable, get_withFields, tableOf_eq, get_withFields]
  rfl

/-- The tables of a new store have no metatables. -/
theorem metatable_initial (system : System) (files : FileSystem) (p : Nat) :
    ((initial system files).table p).metatable = none := by
  have hall : ∀ t ∈ initialTables, t.metatable = none := by
    simp only [initialTables, List.mem_toArray, List.forall_mem_cons, List.not_mem_nil,
      false_implies, implies_true, and_self, globalTable, loadedTable, engineTable, libraryTable,
      metatable_withFields, metatable_tableOf, Table.metatable_ofList, Table.metatable_empty]
  show (initialTables.getD p (Table.empty 0 0)).metatable = none
  rw [Array.getD_eq_getD_getElem?]
  cases hp : initialTables[p]? with
  | none => rfl
  | some t => exact hall t (Array.mem_of_getElem? hp)

theorem get_engineTable_write : engineTable.get (.text "write") = .builtin .write := by
  rw [engineTable, get_withFields]
  rfl

theorem get_engineTable_host : engineTable.get (.text "host") = .builtin .host := by
  rw [engineTable, get_withFields]
  rfl

/-- Strings have no text of their own making. -/
theorem get_stringMeta_tostring (system : System) (files : FileSystem) :
    (initial system files).rawGet stringMeta (.text "__tostring") = .nil := by
  show (withFields (tableOf Builtin.stringOperators) [("__index", .table 9)]).get _ = _
  rw [get_withFields, tableOf_eq, get_withFields]
  exact Table.get_empty ..

end Store

end Stencil.Lua
