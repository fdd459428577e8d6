import Mathlib
import Stencil.Proofs.Lua.Lookup
import Stencil.Proofs.Lua.Parsing

/-!
# The environment of a unit

What the program comes to that makes the environment of a unit.

* `environmentProto`, `parse_environment`: the program;
* `steps_environment`: it ends with a call of the global `setmetatable`;
* `Session.unitEnvironment_eq`: if that is the function of the library, the program makes a table
  with the function behind it that looks names up;
* `Session.unitEnvironment_builtin`: whatever function of the library it is, its first result is the
  environment.
-/

namespace Stencil.Lua

open Machine (Gives Room Steps)

/-! ## The program -/

/-- The call that the program ends with. -/
def environmentCall : Call :=
  .function (.index (.variable 2 (bytesOf "_ENV") true) (.string (bytesOf "setmetatable")) 3)
    [.table [] 3, .table [.keyed (.string (bytesOf "__index")) (.function lookupProto) 16] 3] 3

/-- The program. -/
def environmentProto : Proto :=
  .mk 0 true
    [.declare [(bytesOf "imports", .regular), (bytesOf "globals", .regular)] [.vararg] 2,
      .giveBack [.call environmentCall] 17] environmentChunk 0

open Stencil.Lua.Parser in
/-- The tokens of the program. -/
def environmentTokens : List Lexeme :=
  [markAt 2 .localWord, nameAt 2 "imports", markAt 2 .comma, nameAt 2 "globals", markAt 2 .assign,
    markAt 2 .dot3,
    markAt 3 .returnWord, nameAt 3 "setmetatable", markAt 3 .leftParen, markAt 3 .leftBrace,
    markAt 3 .rightBrace, markAt 3 .comma, markAt 3 .leftBrace,
    nameAt 4 "__index", markAt 4 .assign, markAt 4 .functionWord, markAt 4 .leftParen, nameAt 4 "_",
    markAt 4 .comma, nameAt 4 "key", markAt 4 .rightParen,
    markAt 5 .localWord, nameAt 5 "value", markAt 5 .assign, nameAt 5 "globals",
    markAt 5 .leftBracket, nameAt 5 "key", markAt 5 .rightBracket,
    markAt 6 .ifWord, nameAt 6 "value", markAt 6 .notEqual, markAt 6 .nilWord, markAt 6 .thenWord,
    markAt 7 .returnWord, nameAt 7 "value",
    markAt 8 .endWord,
    markAt 9 .forWord, nameAt 9 "i", markAt 9 .assign, ⟨.number (.int 1), 9, bytesOf "1"⟩,
    markAt 9 .comma, markAt 9 .hash, nameAt 9 "imports", markAt 9 .doWord,
    nameAt 10 "value", markAt 10 .assign, nameAt 10 "imports", markAt 10 .leftBracket,
    nameAt 10 "i", markAt 10 .rightBracket, markAt 10 .leftBracket, nameAt 10 "key",
    markAt 10 .rightBracket,
    markAt 11 .ifWord, nameAt 11 "value", markAt 11 .notEqual, markAt 11 .nilWord,
    markAt 11 .thenWord,
    markAt 12 .returnWord, nameAt 12 "value",
    markAt 13 .endWord,
    markAt 14 .endWord,
    markAt 15 .returnWord, markAt 15 .nilWord,
    markAt 16 .endWord, markAt 16 .comma,
    markAt 17 .rightBrace, markAt 17 .rightParen,
    ⟨.eof, 18, ByteArray.empty⟩]

set_option maxRecDepth 2000 in
theorem tokens_environmentSource :
    tokens (bytesOf Session.environmentSource).data.toList = environmentTokens := by
  with_unfolding_all rfl

set_option maxRecDepth 2000 in
theorem parseTokens_environment :
    Chunk.parseTokens environmentChunk environmentTokens = .ok environmentProto := by
  cbv

theorem parse_environment :
    Chunk.parse environmentChunk (bytesOf Session.environmentSource).data.toList =
      .ok environmentProto := by
  rw [Chunk.parse, tokens_environmentSource, parseTokens_environment]

/-! ## Running the program -/

/-- Nothing is put into the table of a constructor when its items are over. -/
theorem gives_storeNothing (m : Machine) (s : Store) (env : Env) (p : Nat) :
    Gives m s (Item.store env p 1 [] []) 0 () s := by
  have hmodify : s.tables.modify p (fun t => t.reserve (1 + ([] : List Value).length - 1)) =
      s.tables := by
    have hreserve (t : Table) : t.reserve (1 + ([] : List Value).length - 1) = t :=
      if_pos (Nat.zero_le _)
    refine Array.ext_getElem? fun i => ?_
    rw [Array.getElem?_modify]
    split
    · simp only [hreserve, Option.map_id_fun', id]
    · rfl
  have hstore : storeLast p 1 [] s = s := by
    rw [storeLast, storeItems, Store.modifyTable, hmodify]
  rw [Item.store]
  intro k
  show Steps 0 m (k () (storeLast p 1 [] s)) m (k () s)
  rw [hstore]
  exact Steps.refl _ _

namespace Store

/-- The program, loaded beside the list of imported tables. -/
def loadEnvironment (s : Store) (imports : List Nat) : Store :=
  let s := (s.newTable (Table.ofList (imports.map .table) 0)).2
  ((s.newCell (.table globals)).2.newClosure ⟨environmentProto, [s.cells.size]⟩).2

/-- The program with its variables: the list of imported tables, and the globals. -/
def bindImports (s : Store) (imports : List Nat) : Store :=
  (((s.loadEnvironment imports).newCell (.table s.tables.size)).2.newCell (.table globals)).2

/-- The function that looks names up, as the program makes it. -/
def lookupClosure (s : Store) : Closure :=
  ⟨lookupProto, [s.cells.size + 2, s.cells.size + 1, s.cells.size]⟩

/-- The metatable that the program makes. -/
def behindTable (s : Store) : Table :=
  withFields (Table.empty 0 1) [("__index", .closure (s.closures.size + 1))]

/-- What the program adds to a store, with `own` as its new table. -/
def surroundWith (s : Store) (imports : List Nat) (own : Table) : Store :=
  ((((s.bindImports imports).newTable own).2.newTable s.behindTable).2.newClosure s.lookupClosure).2

/-- What the program leaves, if the global `setmetatable` is that of the library. -/
def surround (s : Store) (imports : List Nat) : Store :=
  s.surroundWith imports { Table.empty 0 0 with metatable := some (s.tables.size + 2) }

section

variable (s : Store) (imports : List Nat) (own : Table)

/-- The variables come after those that were there. -/
theorem cells_bindImports : (s.bindImports imports).cells =
    ((s.cells.push (.table globals)).push (.table s.tables.size)).push (.table globals) :=
  rfl

theorem tables_size_bindImports : (s.bindImports imports).tables.size = s.tables.size + 1 :=
  Array.size_push ..

theorem cells_size_bindImports : (s.bindImports imports).cells.size = s.cells.size + 3 := by
  simp only [cells_bindImports, Array.size_push]

theorem closures_size_bindImports : (s.bindImports imports).closures.size = s.closures.size + 1 :=
  Array.size_push ..

/-- Changing the new table is the same as making the changed one. -/
theorem modifyTable_surroundWith (f : Table → Table) :
    (s.surroundWith imports own).modifyTable (s.tables.size + 1) f =
      s.surroundWith imports (f own) := by
  have hown : (s.bindImports imports).tables.size = s.tables.size + 1 :=
    s.tables_size_bindImports imports
  show ((((s.bindImports imports).newTable own).2.newTable s.behindTable).2.modifyTable _ f
    |>.newClosure s.lookupClosure).2 = _
  rw [newTable_modifyTable _ _ _ (by rw [size_newTable, hown]; omega), ← hown, modifyTable_newTable]
  rfl

end

end Store

namespace Store

theorem rawGet_bindImports (s : Store) (imports : List Nat) {p : Nat} (hp : p < s.tables.size)
    (k : Key) : (s.bindImports imports).rawGet p k = s.rawGet p k :=
  congrArg (Table.get · k) (table_newTable s _ hp)

end Store

/-- What the program sees at its end. -/
def environmentView (s : Store) : Env :=
  ⟨[s.cells.size + 2, s.cells.size + 1, s.cells.size],
    [.table s.tables.size, .table Store.globals], false⟩

/-- A constructor without items makes a table without fields. -/
theorem gives_emptyTable (m : Machine) (s : Store) (env : Env) (line : Nat) :
    Gives m s (Expr.eval env (.table [] line)) 0 (.table s.tables.size)
      (s.newTable (Table.empty 0 0)).2 := by
  rw [Expr.eval]
  refine Gives.bind_zero (Gives.modifyGet m s _) ?_
  exact Gives.bind_zero (gives_storeNothing m _ env _) (Gives.pure _ _ _)

/-- The metatable is made, with the function that looks names up. -/
theorem gives_behindTable (s : Store) (imports : List Nat) (own : Table) (m : Machine) :
    Gives m ((s.bindImports imports).newTable own).2 (Expr.eval (environmentView s)
        (.table [.keyed (.string (bytesOf "__index")) (.function lookupProto) 16] 3)) 0
      (.table (s.tables.size + 2)) (s.surroundWith imports own) := by
  let s₁ := ((s.bindImports imports).newTable own).2
  let s₂ := (s₁.newTable (Table.empty 0 1)).2
  let s₃ := (s₂.newClosure s.lookupClosure).2
  have hsize : s₁.tables.size = s.tables.size + 2 :=
    (Array.size_push ..).trans (by rw [Store.tables_size_bindImports])
  have hclosure : s₂.closures.size = s.closures.size + 1 := s.closures_size_bindImports imports
  have hfunction : Gives m s₂ (Expr.eval (environmentView s) (.function lookupProto)) 0
      (.closure (s.closures.size + 1)) s₃ := by
    rw [Expr.eval, ← hclosure]
    exact fun _ => Steps.refl _ _
  have hset : s₃.rawSet s₁.tables.size (.text "__index") (.closure (s.closures.size + 1)) =
      s.surroundWith imports own :=
    congrArg (fun s' : Store => (s'.newClosure s.lookupClosure).2)
      (s₁.modifyTable_newTable (Table.empty 0 1) fun t =>
        t.set (.text "__index") (.closure (s.closures.size + 1)))
  rw [← hsize, Expr.eval]
  have hnew : Gives m s₁ (Run.modifyGet fun s => s.newTable (Table.empty 0 1)) 0 s₁.tables.size s₂ :=
    Gives.modifyGet m s₁ _
  refine Gives.bind_zero hnew ?_
  refine Gives.bind_zero (x := ()) ?_ (Gives.pure _ _ _)
  rw [Item.store, Expr.eval]
  refine Gives.bind_zero (x := .value (.string (bytesOf "__index"))) (Gives.pure m s₂ _) ?_
  refine Gives.bind_zero hfunction (Gives.bind_zero (Gives.pure m s₃ _) ?_)
  have hstored : Gives m s₃ (Run.rawSetAt 16 s₁.tables.size (.string (bytesOf "__index"))
      (.closure (s.closures.size + 1))) 0 () (s.surroundWith imports own) := by
    rw [← hset]
    exact fun _ => Steps.refl _ _
  exact Gives.bind_zero hstored (gives_storeNothing m _ _ _)

/-- The program ends with a call of the global `setmetatable` with a table without fields and the
metatable. -/
theorem steps_environment {s : Store} {f : Value}
    (hf : s.rawGet Store.globals (.text "setmetatable") = f) (hpresent : f.isNil = false)
    (hglobals : Store.globals < s.tables.size) (imports : List Nat) (m : Machine)
    (k : List Value → Store → Action) :
    Steps 0 m (Closure.apply ⟨environmentProto, [s.cells.size]⟩
        [.table s.tables.size, .table Store.globals] (s.loadEnvironment imports) k) m
      (.become f [.table (s.tables.size + 1), .table (s.tables.size + 2)]
        ⟨3, some ("global", bytesOf "setmetatable")⟩ (s.surroundWith imports (Table.empty 0 0))) := by
  let s₁ := s.bindImports imports
  let env := environmentView s
  let final : Action := .become f [.table (s.tables.size + 1), .table (s.tables.size + 2)]
    ⟨3, some ("global", bytesOf "setmetatable")⟩ (s.surroundWith imports (Table.empty 0 0))
  have hloaded : (s.loadEnvironment imports).cell s.cells.size = .table Store.globals :=
    Store.cell_newCell_size _ _
  have hsize : s.cells.size < (s.loadEnvironment imports).cells.size :=
    Nat.lt_of_lt_of_eq (Nat.lt_succ_self _) (Array.size_push ..).symm
  have hcell : s₁.cell s.cells.size = .table Store.globals := by
    rw [← hloaded, ← Store.cell_newCell _ (.table s.tables.size) hsize]
    refine Store.cell_newCell _ _ ?_
    rw [Store.size_newCell]
    exact Nat.lt_succ_of_lt hsize
  have hcallee : Gives m s₁ (Expr.eval env (.index (.variable 2 (bytesOf "_ENV") true)
      (.string (bytesOf "setmetatable")) 3)) 0 f s₁ := by
    have hobject : Gives m s₁ (Operand.ofExpr env (.variable 2 (bytesOf "_ENV") true)
        (Expr.eval env (.variable 2 (bytesOf "_ENV") true))) 0
        (.value (.table Store.globals)) s₁ := by
      rw [← hcell]
      exact (gives_variable m s₁ env 2 _ true).map
    rw [Expr.eval]
    refine Gives.bind_zero hobject ?_
    rw [Expr.eval]
    refine Gives.bind_zero (Gives.pure m s₁ _) (Gives.bind_zero (Gives.pure m s₁ _) ?_)
    exact gives_index (k := .text "setmetatable") rfl
      ((s.rawGet_bindImports imports hglobals _).trans hf) hpresent
  have hargs : Gives m s₁ (Expr.evalList env
      [.table [] 3, .table [.keyed (.string (bytesOf "__index")) (.function lookupProto) 16] 3]) 0
      [.table (s.tables.size + 1), .table (s.tables.size + 2)]
      (s.surroundWith imports (Table.empty 0 0)) := by
    rw [← s.tables_size_bindImports imports, Expr.evalList, Expr.evalList, Expr.evalList]
    · refine Gives.bind_zero (gives_emptyTable m s₁ env 3) ?_
      exact Gives.bind_zero (Gives.bind_zero (gives_behindTable s imports _ m) (Gives.pure _ _ _))
        (Gives.pure _ _ _)
    all_goals simp
  have hvalues : Gives m (s.loadEnvironment imports)
      (Expr.evalList ⟨[s.cells.size], [.table s.tables.size, .table Store.globals], false⟩ [.vararg])
      0 [.table s.tables.size, .table Store.globals] (s.loadEnvironment imports) := by
    rw [Expr.evalList]
    exact Gives.pure _ _ _
  have hvariables : Gives m (s.loadEnvironment imports)
      (newCells [.table s.tables.size, .table Store.globals]) 0
      [s.cells.size + 1, s.cells.size + 2] s₁ := by
    have hfirst : (s.loadEnvironment imports).cells.size = s.cells.size + 1 := Array.size_push ..
    have hsecond : ((s.loadEnvironment imports).newCell (.table s.tables.size)).2.cells.size =
        s.cells.size + 2 := (Store.size_newCell ..).trans (by rw [hfirst])
    rw [← hsecond, ← hfirst]
    exact fun _ => Steps.refl _ _
  have hcall (k : Signal → Store → Action) : Steps 0 m (environmentCall.become env s₁ k) m final := by
    rw [environmentCall, Call.become]
    exact hcallee.steps (hargs.steps (Steps.refl m final))
  have hblock (k : Signal → Store → Action) : Steps 0 m
      (execBlock ⟨[s.cells.size], [.table s.tables.size, .table Store.globals], false⟩ none passOn
        environmentProto.body (s.loadEnvironment imports) k) m final := by
    rw [environmentProto, Proto.body, execBlock]
    refine hvalues.steps (hvariables.steps ?_)
    rw [show closingVariable [(bytesOf "imports", .regular), (bytesOf "globals", .regular)] = none
      from rfl]
    dsimp only
    rw [execBlock, Stmt.exec]
    · exact hcall _
    · rfl
    all_goals simp
  rw [Closure.apply]
  refine Gives.steps (x := []) (Gives.pure m _ _) ?_
  exact hblock _

namespace Store

/-- The table of globals is there if something stands in it. -/
theorem size_of_rawGet {s : Store} {p : Nat} {k : Key} {v : Value} (h : s.rawGet p k = v)
    (hv : v.isNil = false) : p < s.tables.size := by
  refine Nat.lt_of_not_le fun hle => ?_
  have hnone : s.rawGet p k = .nil := by
    rw [rawGet, table, Array.getD_eq_getD_getElem?, Array.getElem?_eq_none hle]
    exact Table.get_empty 0 0 k
  rw [← h, hnone] at hv
  cases hv

section

variable (s : Store) (imports : List Nat) (own : Table)

theorem closure_loadEnvironment : (s.loadEnvironment imports).closure s.closures.size =
    ⟨environmentProto, [s.cells.size]⟩ :=
  Store.closure_newClosure_size ..

theorem cells_size_surroundWith : (s.surroundWith imports own).cells.size = s.cells.size + 3 :=
  s.cells_size_bindImports imports

theorem closures_size_surroundWith :
    (s.surroundWith imports own).closures.size = s.closures.size + 2 :=
  (Array.size_push ..).trans (congrArg (· + 1) (s.closures_size_bindImports imports))

theorem size_surroundWith : (s.surroundWith imports own).tables.size = s.tables.size + 3 := by
  show ((((s.bindImports imports).tables.push _).push _)).size = _
  rw [Array.size_push, Array.size_push, tables_size_bindImports]

theorem table_surroundWith {p : Nat} (hp : p < s.tables.size) :
    (s.surroundWith imports own).table p = s.table p := by
  have hsize : (s.bindImports imports).tables.size = s.tables.size + 1 :=
    s.tables_size_bindImports imports
  show (((s.bindImports imports).newTable own).2.newTable s.behindTable).2.table p = _
  rw [table_newTable _ _ (by rw [size_newTable]; omega), table_newTable _ _ (by omega)]
  exact table_newTable s _ hp

theorem table_surroundWith_imports : (s.surroundWith imports own).table s.tables.size =
    Table.ofList (imports.map .table) 0 := by
  have hsize : (s.bindImports imports).tables.size = s.tables.size + 1 :=
    s.tables_size_bindImports imports
  show (((s.bindImports imports).newTable own).2.newTable s.behindTable).2.table _ = _
  rw [table_newTable _ _ (by rw [size_newTable]; omega), table_newTable _ _ (by omega)]
  exact table_newTable_size s _

theorem table_surroundWith_own : (s.surroundWith imports own).table (s.tables.size + 1) = own := by
  have hsize : (s.bindImports imports).tables.size = s.tables.size + 1 :=
    s.tables_size_bindImports imports
  show (((s.bindImports imports).newTable own).2.newTable s.behindTable).2.table _ = _
  rw [table_newTable _ _ (by rw [size_newTable]; omega), ← hsize, table_newTable_size]

theorem table_surroundWith_behind :
    (s.surroundWith imports own).table (s.tables.size + 2) = s.behindTable := by
  have hsize : ((s.bindImports imports).newTable own).2.tables.size = s.tables.size + 2 := by
    rw [size_newTable, tables_size_bindImports]
  show (((s.bindImports imports).newTable own).2.newTable s.behindTable).2.table _ = _
  rw [← hsize, table_newTable_size]

/-- The function that looks names up, and what it goes through. -/
def lookup : Lookup where
  function := s.closures.size + 1
  globals := s.cells.size + 2
  list := s.cells.size + 1
  outer := s.cells.size
  imports := s.tables.size
  tables := imports

theorem lookup_inForce : (s.lookup imports).InForce (s.surroundWith imports own) where
  function := by
    show (Store.newClosure _ s.lookupClosure).2.closure (s.closures.size + 1) = _
    rw [← s.closures_size_bindImports imports]
    exact closure_newClosure_size ..
  known := by
    show s.cells.size + 2 < (s.bindImports imports).cells.size ∧ s.cells.size + 1 <
      (s.bindImports imports).cells.size
    rw [cells_size_bindImports]
    omega
  globals := by
    show (s.bindImports imports).cells.getD (s.cells.size + 2) _ = _
    rw [s.cells_bindImports, Array.getD_eq_getD_getElem?]
    simp [Array.getElem_push]
  list := by
    show (s.bindImports imports).cells.getD (s.cells.size + 1) _ = _
    rw [s.cells_bindImports, Array.getD_eq_getD_getElem?]
    simp [Array.getElem_push, lookup]
  imports := s.table_surroundWith_imports imports own

end

end Store

/-- A table without a metatable gets one. -/
theorem gives_setmetatable {s : Store} {p : Nat} (hbare : (s.table p).metatable = none) (q : Nat)
    (m : Machine) : Gives m s (Basic.setmetatable [.table p, .table q]) 0 [.table p]
      (s.modifyTable p fun t => { t with metatable := some q }) := by
  have hmethod : s.metamethod (.table p) "__metatable" = .nil := by
    rw [Store.metamethod, Store.metatable, hbare]
  rw [Basic.setmetatable]
  refine Gives.bind_zero (x := p) (Gives.pure m s _) ?_
  refine Gives.store ?_
  rw [hmethod]
  exact fun k => Steps.refl _ _

namespace Session

variable {t : Session} {b : Builtin} {n p : Nat} {v : List Value} {s : Store}

/-- The environment of a unit is what the global `setmetatable` gives, if that is a function of the
library. -/
theorem unitEnvironment_builtin
    (hf : t.store.rawGet Store.globals (.text "setmetatable") = .builtin b) (imports : List Nat)
    (hb : ∀ m, Room 1 m → Gives m (t.store.surroundWith imports (Table.empty 0 0))
      (b.apply [.table (t.store.tables.size + 1), .table (t.store.tables.size + 2)]) n
      (.table p :: v) s) (hn : n + 4 < budget 0) :
    t.unitEnvironment imports = .ok (p, ⟨s, t.coroutines.setIfInBounds 0 .finished⟩) := by
  let f : Value := .closure t.store.closures.size
  have hload : Store.load { t.store with
      tables := t.store.tables.push (Table.ofList (imports.map .table) 0) }
      (bytesOf "=t4 environment") (bytesOf environmentSource) (.table Store.globals) =
        .ok (f, t.store.loadEnvironment imports) := by
    rw [Store.load, ← environmentChunk, parse_environment]
    rfl
  have hcall : Gives ⟨0, .base false 3, [], [], t.coroutines⟩ (t.store.loadEnvironment imports)
      (Run.call f [.table t.store.tables.size, .table Store.globals] ⟨0, none⟩) (n + 2 + 2)
      (.table p :: v) s := by
    intro k
    have hroom : Room 3 ⟨0, .base false 3, [], [], t.coroutines⟩ := Machine.room_base _ _ _
    refine Machine.Steps.called rfl (hroom.mono (by decide)) ?_
    have hinner := hroom.entered f ⟨0, none⟩ (t.store.loadEnvironment imports) k
    have hend := Machine.steps_become ⟨3, some ("global", bytesOf "setmetatable")⟩
      (hinner.mono (by decide)) fun k => hb _ (hinner.entered _ _ _ k)
    have hbody : Machine.body (t.store.loadEnvironment imports) f
        [.table t.store.tables.size, .table Store.globals] =
        (Closure.apply ⟨environmentProto, [t.store.cells.size]⟩
          [.table t.store.tables.size, .table Store.globals]).toAction
            (t.store.loadEnvironment imports) := by
      rw [Machine.body, t.store.closure_loadEnvironment]
    have := (steps_environment hf rfl (Store.size_of_rawGet hf rfl) imports _
      fun vs s => .finish (.ret vs) s).trans hend
    rw [Nat.zero_add] at this
    rw [hbody]
    exact this
  have hrun : runMain ⟨t.store.loadEnvironment imports, t.coroutines⟩
      (Run.call f [.table t.store.tables.size, .table Store.globals] ⟨0, none⟩) =
      (.ok (.table p :: v), ⟨s, t.coroutines.setIfInBounds 0 .finished⟩) :=
    runIn_eq (t := ⟨t.store.loadEnvironment imports, t.coroutines⟩) (hcall _) hn
  unfold unitEnvironment
  simp only [Store.newTable, hload, hrun]
  rfl

/-- If the global `setmetatable` is that of the library, the environment of a unit is a new table,
behind which stands the function that looks names up. -/
theorem unitEnvironment_eq
    (h : t.store.rawGet Store.globals (.text "setmetatable") = .builtin .setmetatable)
    (imports : List Nat) :
    t.unitEnvironment imports = .ok (t.store.tables.size + 1,
      ⟨t.store.surround imports, t.coroutines.setIfInBounds 0 .finished⟩) := by
  refine unitEnvironment_builtin (n := 0) (v := []) h imports (fun m _ => ?_) (by decide)
  have hset := t.store.modifyTable_surroundWith imports (Table.empty 0 0) fun table =>
    { table with metatable := some (t.store.tables.size + 2) }
  rw [Store.surround, ← hset]
  refine gives_setmetatable ?_ _ m
  rw [Store.table_surroundWith_own]
  rfl

end Session

end Stencil.Lua
