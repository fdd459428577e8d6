import Stencil.Proofs.Lua.Writing

/-!
# Units that write texts

Loading and running the code of a unit that binds the host and then writes texts.

* `Store.Serves.load`: the environment of a unit serves its code;
* `Session.start_stocked`: a new session has the functions of the engine;
* `compile_writes`, `run_writes`: such a unit is compiled, and its output is the texts in order.
-/

namespace Stencil.Lua

open Machine (Gives Room Steps)
open Text (utf8)

variable {m : Machine} {s : Store} {cell : Nat}

/-! ## Environments -/

namespace Store

theorem initial_stocked (system : System) (files : FileSystem) : (initial system files).Stocked where
  size := by
    show 16 < initialTables.size
    decide
  engine := get_globalTable_t4
  write := get_engineTable_write
  host := get_engineTable_host
  tostring := get_globalTable_tostring
  setmetatable := get_globalTable_setmetatable
  plain := get_stringMeta_tostring system files

end Store

namespace Session

theorem start_stocked (system : System) (files : FileSystem) (path : String) :
    (start system files path).store.Stocked := by
  have h := Store.initial_stocked system files
  rw [start]
  split
  · exact h
  · refine h.of_table ?_ fun p hp => Store.table_rawSet _ _ _ ?_
    · show _ ≤ (Array.modify _ _ _).size
      rw [Array.size_modify]
    · rintro rfl
      exact absurd hp (by decide)

theorem start_output (system : System) (files : FileSystem) (path : String) :
    (start system files path).store.output = ByteArray.empty := by
  rw [start]
  split <;> rfl

theorem start_coroutines (system : System) (files : FileSystem) (path : String) :
    (start system files path).coroutines = #[.active] :=
  rfl

end Session

/-- The environment of a unit, put into a variable, serves its code. -/
theorem Store.surround_serves (h : s.Stocked) (imports : List Nat) :
    ((s.surround imports).newCell (.table (s.tables.size + 1))).2.Serves (s.cells.size + 3) := by
  have hcells : (s.surround imports).cells.size = s.cells.size + 3 := s.cells_size_surroundWith ..
  have hstocked : (s.surround imports).Stocked := by
    refine h.of_table (by rw [surround, size_surroundWith]; omega) fun p hp =>
      s.table_surroundWith _ _ ?_
    have hsize := h.size
    simp only [Store.globals, Store.stringMeta, List.mem_cons, List.not_mem_nil, or_false] at hp
    omega
  have hgrown : (s.surround imports).Grown
      ((s.surround imports).newCell (.table (s.tables.size + 1))).2 := (Grown.refl _).newCell _
  refine ⟨hstocked.grown hgrown, ?_, s.tables.size + 1, s.tables.size + 2, s.lookup imports, ?_,
    fun k => ?_, ?_, ?_, (s.lookup_inForce imports _).grown hgrown⟩
  · rw [size_newCell, hcells]
    exact Nat.lt_succ_self _
  · rw [← hcells, cell_newCell_size]
  · show ((s.surround imports).table (s.tables.size + 1)).get k = .nil
    rw [surround, table_surroundWith_own]
    exact Table.get_empty 0 0 k
  · show ((s.surround imports).table (s.tables.size + 1)).metatable = _
    rw [surround, table_surroundWith_own]
  · show ((s.surround imports).table (s.tables.size + 2)).get _ = _
    rw [surround, table_surroundWith_behind, behindTable, get_withFields]
    rfl

/-! ## Chunks -/

/-- The function of a chunk that binds the host and then does what `rest` says. -/
def boundProto (chunk : Bytes) (path : String) (rest : List Stmt) : Proto :=
  .mk 0 true (bindingStatement (utf8 path.toList) :: rest) chunk 0

/-- A chunk gives what the statements after the binding of the host give. -/
theorem gives_boundProto {chunk : Bytes} {path : String} {rest : List Stmt} {n : Nat}
    {post : Store → Prop} (sig : Signal) (h : s.Serves cell) (hr : Room 1 m)
    (hrest : ∀ s₁ c, (s.newObject (.context path)).2.Grown s₁ →
      s₁.cell c = .object s.objects.size →
      ∃ s', Gives m s₁ (execBlock ⟨[c, cell], [], false⟩ none passOn rest) n sig s' ∧ post s') :
    ∃ s', Gives m s (Closure.apply ⟨boundProto chunk path rest, [cell]⟩ []) (4 + n)
      (match sig with
        | .ret vs => vs
        | _ => []) s' ∧ post s' := by
  obtain ⟨s', hblock, hs'⟩ : ∃ s', Gives m s (execBlock ⟨[cell], [], false⟩ none passOn
      (bindingStatement (utf8 path.toList) :: rest)) (4 + n) sig s' ∧ post s' :=
    gives_binding h hr rfl hrest
  refine ⟨s', ?_, hs'⟩
  rw [Closure.apply]
  refine Gives.bind_zero (Gives.pure m s _) ?_
  refine Gives.bind (j := 0) hblock ?_
  cases sig <;> exact Gives.pure _ _ _

/-- The statements of a chunk that write texts. -/
def writesBody (texts : List String) : List Stmt :=
  writeStatements 2 (texts.map fun text => utf8 text.toList)

/-- A chunk that writes texts after it bound the host gives nothing back. -/
theorem gives_writes {chunk : Bytes} {path : String} (texts : List String) (h : s.Serves cell)
    (hr : Room 2 m) :
    ∃ s', Gives m s (Closure.apply ⟨boundProto chunk path (writesBody texts), [cell]⟩ [])
        (4 + 10 * texts.length) [] s' ∧
      ((s.newObject (.context path)).2.emit (bytesOf (String.join texts))).Grown s' := by
  refine gives_boundProto .next h (hr.mono (by decide)) fun s₁ c hs₁ _ => ?_
  have henv : Env.place ⟨[c, cell], [], false⟩ 1 = cell := rfl
  obtain ⟨s', hgives, hs'⟩ := gives_writeStatements texts 2 ((h.newObject _).grown hs₁) hr henv
  exact ⟨s', hgives, (hs₁.emit _).trans hs'⟩

/-- A chunk that gives the host back once it is bound. -/
theorem gives_giveBack {chunk : Bytes} {path : String} (h : s.Serves cell) (hr : Room 1 m) :
    ∃ s', Gives m s (Closure.apply ⟨boundProto chunk path
        [.giveBack [.variable 0 (bytesOf "Host") false] 2], [cell]⟩ []) 4
      [.object s.objects.size] s' ∧ (s.newObject (.context path)).2.Grown s' := by
  refine gives_boundProto (n := 0) (.ret [.object s.objects.size]) h hr
    fun s₁ c hs₁ hcell => ⟨s₁, ?_, hs₁⟩
  have hvalues : Gives m s₁
      (Expr.evalList ⟨[c, cell], [], false⟩ [.variable 0 (bytesOf "Host") false]) 0
      [.object s.objects.size] s₁ := by
    rw [Expr.evalList, Expr.evalList, ← hcell]
    · exact Gives.bind_zero (gives_variable m s₁ _ 0 _ _) (Gives.pure _ _ _)
    all_goals simp
  rw [execBlock, Stmt.exec]
  · exact Gives.bind_zero hvalues.map (Gives.pure _ _ _)
  all_goals simp

/-! ## Units -/

/-- The chunk of a source that is read as a function, put in the store with its `_ENV`. -/
theorem Store.load_eq {name source : Bytes} {env : Value} {f : Proto}
    (h : Chunk.parse (Chunk.shownName name) source.data.toList = .ok f) :
    s.load name source env = .ok (.closure s.closures.size,
      ((s.newCell env).2.newClosure ⟨f, [s.cells.size]⟩).2) := by
  rw [Store.load, h]
  rfl

/-- A chunk that is loaded is a function with one variable, its `_ENV`. -/
theorem Store.load_ok {s' : Store} {name source : Bytes} {env f : Value}
    (h : s.load name source env = .ok (f, s')) :
    ∃ proto, f = .closure s.closures.size ∧
      s' = ((s.newCell env).2.newClosure ⟨proto, [s.cells.size]⟩).2 := by
  cases hparse : Chunk.parse (Chunk.shownName name) source.data.toList with
  | error e =>
    rw [load, hparse] at h
    cases h
  | ok proto =>
    cases (load_eq hparse).symm.trans h
    exact ⟨proto, rfl, rfl⟩

/-- A store in which a unit without imports stands ready, with the function `f`. -/
def Store.ready (s : Store) (f : Proto) : Store :=
  (((s.surround []).newCell (.table (s.tables.size + 1))).2.newClosure ⟨f, [s.cells.size + 3]⟩).2

namespace Store

/-- Loading the source of a unit makes it ready. -/
theorem load_unit (s : Store) {name source : Bytes} {f : Proto}
    (h : Chunk.parse (Chunk.shownName name) source.data.toList = .ok f) :
    (s.surround []).load name source (.table (s.tables.size + 1)) =
      .ok (.closure (s.closures.size + 2), s.ready f) := by
  have hcells : (s.surround []).cells.size = s.cells.size + 3 := s.cells_size_surroundWith ..
  have hclosures : (s.surround []).closures.size = s.closures.size + 2 :=
    s.closures_size_surroundWith ..
  rw [load_eq h, hclosures, hcells]
  rfl

theorem ready_serves (h : s.Stocked) (f : Proto) : (s.ready f).Serves (s.cells.size + 3) :=
  (surround_serves h []).newClosure _

theorem ready_closure (s : Store) (f : Proto) :
    (s.ready f).closure (s.closures.size + 2) = ⟨f, [s.cells.size + 3]⟩ := by
  have hclosures : (s.surround []).closures.size = s.closures.size + 2 :=
    s.closures_size_surroundWith ..
  rw [← hclosures]
  exact closure_newClosure_size ..

theorem ready_output (s : Store) (f : Proto) : (s.ready f).output = s.output :=
  rfl

end Store

theorem unitName_eq {path : String} (h : '\x00' ∉ path.toList) :
    unitName path = .ok (bytesOf ("=generated:" ++ path)) := by
  have hnone : (bytesOf ("=generated:" ++ path)).data.toList.findIdx? (· == 0) = none := by
    rw [List.findIdx?_eq_none_iff, toList_bytesOf]
    intro b hb
    refine beq_false_of_ne ?_
    rintro rfl
    obtain ⟨c, hc, hn⟩ := Text.exists_of_mem_utf8 hb (by decide)
    have hc0 : c = '\x00' := Char.toNat_inj.mp hn
    rw [String.toList_append, List.mem_append, hc0] at hc
    exact hc.elim (by decide) h
  rw [unitName]
  simp only [hnone]

/-- The source of a unit that writes texts after it bound the host. -/
def writesSource (path : String) (texts : List String) : String :=
  dialect.hostBinding path ++ String.join (texts.map fun text => dialect.writeLiteral text ++ "\n")

theorem toList_bytesOf_append (a b : String) :
    (bytesOf (a ++ b)).data.toList = (bytesOf a).data.toList ++ (bytesOf b).data.toList := by
  simp only [toList_bytesOf, String.toList_append, Text.utf8_append]

theorem toList_bytesOf_writesSource (path : String) (texts : List String) :
    (bytesOf (writesSource path texts)).data.toList =
      bindingBytes path ++ texts.flatMap writeBytes := by
  rw [writesSource, toList_bytesOf_append, toList_bytesOf_hostBinding]
  congr 1
  induction texts with
  | nil => rfl
  | cons text texts ih =>
    rw [List.map_cons, String.join_cons, toList_bytesOf_append, toList_bytesOf_writeLiteral, ih,
      List.flatMap_cons]

/-- The function of a unit that writes texts. -/
def writesProto (path : String) (texts : List String) : Proto :=
  boundProto (Chunk.shownName (bytesOf ("=generated:" ++ path))) path (writesBody texts)

variable (system : System) (files : FileSystem)

/-- The environment of a unit without imports. -/
theorem Session.start_environment (path : String) :
    (start system files path).unitEnvironment [] =
      .ok ((start system files path).store.tables.size + 1,
        ⟨(start system files path).store.surround [], #[.finished]⟩) :=
  unitEnvironment_eq (start_stocked system files path).setmetatable []

/-- The program of a unit that writes texts. -/
def writesProgram (path : String) (texts : List String) : Program :=
  ⟨⟨(Session.start system files path).store.ready (writesProto path texts), #[.finished]⟩,
    .closure ((Session.start system files path).store.closures.size + 2),
    (writesSource path texts).utf8ByteSize⟩

/-- A unit that writes texts is compiled. -/
theorem compile_writes {path : String} (texts : List String) (hpath : '\x00' ∉ path.toList) :
    compile system files path ⟨writesSource path texts, []⟩ =
      .ok (writesProgram system files path texts) := by
  have himports : (Session.start system files path).resolveImports [] =
      .ok ([], Session.start system files path) := rfl
  have hparse : Chunk.parse (Chunk.shownName (bytesOf ("=generated:" ++ path)))
      (bytesOf (writesSource path texts)).data.toList = .ok (writesProto path texts) := by
    rw [Chunk.parse, toList_bytesOf_writesSource, tokens_writes, Parser.parseTokens_writes]
    rfl
  rw [compile, himports]
  simp only [Session.start_environment, unitName_eq hpath, Store.load_unit _ hparse, writesProgram]

/-- A unit whose source is no chunk is refused, on any system. -/
theorem compile_refused {path source : String} {e : Malformed} (hpath : '\x00' ∉ path.toList)
    (h : Chunk.parse (Chunk.shownName (bytesOf ("=generated:" ++ path)))
      (bytesOf source).data.toList = .error e) :
    compile system files path ⟨source, []⟩ =
      .error (.compile (.rejected (.script e.toError))) := by
  have himports : (Session.start system files path).resolveImports [] =
      .ok ([], Session.start system files path) := rfl
  rw [compile, himports]
  simp only [Session.start_environment, unitName_eq hpath, Store.load, h]

theorem length_le_utf8ByteSize (path : String) (texts : List String) :
    texts.length ≤ (writesSource path texts).utf8ByteSize := by
  have h : (writesSource path texts).utf8ByteSize =
      (bytesOf (writesSource path texts)).data.toList.length := rfl
  rw [h, toList_bytesOf_writesSource, List.length_append]
  have := length_le_flatMap_writeBytes texts
  omega

/-- A function in a store, called by the engine, gives what its body gives. -/
theorem steps_closure {f : Proto} {place n : Nat} {vs : List Value} {post : Store → Prop}
    (hf : s.closure place = ⟨f, [cell]⟩) (hr : Room 3 m)
    (h : ∀ m, Room 2 m → ∃ s', Gives m s (Closure.apply ⟨f, [cell]⟩ []) n vs s' ∧ post s') :
    ∃ s', Steps (n + 2) m ((Run.call (.closure place) [] ⟨0, none⟩).toAction s) m
      (.finish (.ret vs) s') ∧ post s' := by
  have hbody : Machine.body s (.closure place) [] =
      (Closure.apply ⟨f, [cell]⟩ []).toAction s := by
    show ((s.closure place).apply []).toAction s = _
    rw [hf]
  obtain ⟨s', hgives, hs'⟩ :=
    h _ (hr.entered (.closure place) ⟨0, none⟩ s fun vs s => .finish (.ret vs) s)
  exact ⟨s', hgives.returns.called rfl (hr.mono (by decide)) hbody, hs'⟩

/-- The machine that starts a program. -/
def Program.machine (p : Program) : Machine :=
  ⟨p.session.coroutines.size, .base true 3, [], [], p.session.coroutines.push .active⟩

/-- A unit that gives nothing back has the output that is in its store at the end. -/
theorem run_eq_output {p : Program} {n : Nat} {s' : Store}
    (h : Steps n p.machine ((Run.call p.function [] ⟨0, none⟩).toAction p.session.store) p.machine
      (.finish (.ret []) s'))
    (hn : n < Session.budget p.size) : run p = .ok s'.output := by
  have hrun : Session.runIn { p.session with coroutines := p.session.coroutines.push .active }
      p.session.coroutines.size true p.size (Run.call p.function [] ⟨0, none⟩) = (.ok [], _) :=
    Session.runIn_eq
      (t := { p.session with coroutines := p.session.coroutines.push .active }) h hn
  rw [run]
  dsimp only
  rw [hrun]
  rfl

/-- The output of a unit that writes texts is the texts, in order. -/
theorem run_writes (path : String) (texts : List String) :
    run (writesProgram system files path texts) = .ok (String.join texts).toUTF8 := by
  let p := writesProgram system files path texts
  have hbudget : 4 + 10 * texts.length + 2 < Session.budget p.size := by
    have hsize : p.size = (writesSource path texts).utf8ByteSize := rfl
    have h := length_le_utf8ByteSize path texts
    have hroom : 6 < Nat.pow 2 42 := by decide
    rw [Session.budget, hsize]
    omega
  have hserves := Store.ready_serves (Session.start_stocked system files path)
    (writesProto path texts)
  obtain ⟨s', hsteps, hs'⟩ : ∃ s', Steps (4 + 10 * texts.length + 2) p.machine
      ((Run.call p.function [] ⟨0, none⟩).toAction p.session.store) p.machine
        (.finish (.ret []) s') ∧
      ((p.session.store.newObject (.context path)).2.emit (bytesOf (String.join texts))).Grown s' :=
    steps_closure (Store.ready_closure _ (writesProto path texts)) (Machine.room_base _ _ _)
      fun m hr => gives_writes texts hserves hr
  have houtput : s'.output = bytesOf (String.join texts) := by
    have hready : p.session.store.output = ByteArray.empty :=
      (Store.ready_output _ _).trans (Session.start_output system files path)
    rw [hs'.output]
    show p.session.store.output ++ bytesOf (String.join texts) = _
    rw [hready, ByteArray.empty_append]
  rw [run_eq_output hsteps hbudget, houtput]
  rfl

end Stencil.Lua
