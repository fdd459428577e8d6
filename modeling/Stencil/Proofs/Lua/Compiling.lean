import Stencil.Proofs.Lua.Scope
import Stencil.Proofs.Lua.Siblings

/-!
# Compiling units

A unit is compiled when its imports are resolved, in order, and its environment is made. Then its
names lead to the imported tables, if the global `setmetatable` is still that of the library: a
package that was imported may have replaced it.

* `Program.Sees`: a program whose names lead to imported tables;
* `compile_imports`: what becomes of the imports of a unit;
* `imports_resolved`: one import, and the imports of a unit;
* `resolveImport_replacing`: a package that puts `assert` in the place of `setmetatable`;
* `imports_unseen`: a unit that does not see what it imported.
-/

namespace Stencil.Lua

open Machine (Gives Room)

variable {system : System} {files : FileSystem} {path source : String} {names : List String}
  {imports : List Nat} {t t' : Session} {own : Nat} {f : Proto} {p : Program}

/-! ## Programs -/

/-- A program whose names lead to imported tables in order: its function has one variable, with a
table whose metatable looks names up among the globals and then in those tables. -/
structure Program.Sees (p : Program) (imports : List Nat) : Prop where
  function : ∃ place f cell, p.function = .closure place ∧
    p.session.store.closure place = ⟨f, [cell]⟩ ∧
    ∃ (own behind : Nat) (l : Lookup), p.session.store.cell cell = .table own ∧
      (p.session.store.table own).metatable = some behind ∧
      p.session.store.rawGet behind (.text "__index") = .closure l.function ∧
      l.InForce p.session.store ∧ l.tables = imports

/-- The program in a session whose function has a table as its environment. -/
def Session.program (t : Session) (own : Nat) (f : Proto) (size : Nat) : Program :=
  ⟨⟨((t.store.newCell (.table own)).2.newClosure ⟨f, [t.store.cells.size]⟩).2, t.coroutines⟩,
    .closure t.store.closures.size, size⟩

namespace Session

variable {size : Nat}

theorem program_closure (t : Session) (own : Nat) (f : Proto) (size : Nat) :
    (t.program own f size).session.store.closure t.store.closures.size =
      ⟨f, [t.store.cells.size]⟩ :=
  Store.closure_newClosure_size ..

theorem program_cell (t : Session) (own : Nat) (f : Proto) (size : Nat) :
    (t.program own f size).session.store.cell t.store.cells.size = .table own :=
  Store.cell_newCell_size ..

/-- With the environment that the library makes, a program sees its imports. -/
theorem program_sees (t : Session) (imports : List Nat) (coroutines : Array Coroutine) (f : Proto)
    (size : Nat) : Program.Sees
      (program ⟨t.store.surround imports, coroutines⟩ (t.store.tables.size + 1) f size) imports := by
  have hown := t.store.table_surroundWith_own imports
    { Table.empty 0 0 with metatable := some (t.store.tables.size + 2) }
  have hbehind := t.store.table_surroundWith_behind imports
    { Table.empty 0 0 with metatable := some (t.store.tables.size + 2) }
  refine ⟨_, f, _, rfl, program_closure .., _, _, t.store.lookup imports, program_cell ..,
    congrArg Table.metatable hown, ?_, ?_, rfl⟩
  · refine (congrArg (Table.get · (.text "__index")) hbehind).trans ?_
    rw [Store.behindTable, get_withFields]
    rfl
  · exact ((t.store.lookup_inForce imports _).grown ((Store.Grown.refl _).newCell _)).newClosure _

/-- With a table that has no metatable, it sees nothing. -/
theorem not_program_sees (h : (t.store.table own).metatable = none) :
    ¬ (t.program own f size).Sees imports := by
  rintro ⟨place, g, cell, hfunction, hclosure, other, behind, l, hcell, hmeta, -⟩
  cases hfunction
  cases (t.program_closure own f size).symm.trans hclosure
  cases (t.program_cell own f size).symm.trans hcell
  cases h.symm.trans hmeta

end Session

/-! ## Compiling -/

/-- A unit whose source is a chunk is compiled, once its environment is there. -/
theorem compile_eq {name : Bytes}
    (himports : (Session.start system files path).resolveImports names = .ok (imports, t))
    (henv : t.unitEnvironment imports = .ok (own, t')) (hname : unitName path = .ok name)
    (hparse : Chunk.parse (Chunk.shownName name) (bytesOf source).data.toList = .ok f) :
    compile system files path ⟨source, names⟩ = .ok (t'.program own f source.utf8ByteSize) := by
  rw [compile, himports]
  simp only [henv, hname, Store.load_eq hparse]
  rfl

/-- What is compiled is a program whose environment was made after the imports were resolved. -/
theorem compile_ok (h : compile system files path ⟨source, names⟩ = .ok p) :
    ∃ imports t own t' f,
      (Session.start system files path).resolveImports names = .ok (imports, t) ∧
      t.unitEnvironment imports = .ok (own, t') ∧
      p = t'.program own f source.utf8ByteSize := by
  unfold compile at h
  split at h
  · cases h
  · next imports t himports =>
    split at h
    · cases h
    · next own t' henv =>
      split at h
      · cases h
      · next name _ =>
        split at h
        · cases h
        · next g s hload =>
          obtain ⟨f, rfl, rfl⟩ := Store.load_ok hload
          cases h
          exact ⟨imports, t, own, t', f, himports, henv, rfl⟩

/-- If the global `setmetatable` is that of the library after the imports, a unit whose source is a
chunk is compiled, and what is compiled sees the imported tables. -/
theorem compile_sees
    (himports : (Session.start system files path).resolveImports names = .ok (imports, t))
    (hmeta : t.store.rawGet Store.globals (.text "setmetatable") = .builtin .setmetatable) :
    (∀ name f, unitName path = .ok name →
      Chunk.parse (Chunk.shownName name) (bytesOf source).data.toList = .ok f →
      ∃ p, compile system files path ⟨source, names⟩ = .ok p) ∧
    ∀ p, compile system files path ⟨source, names⟩ = .ok p → p.Sees imports := by
  have henv := Session.unitEnvironment_eq hmeta imports
  refine ⟨fun name f hname hparse => ⟨_, compile_eq himports henv hname hparse⟩, fun p h => ?_⟩
  obtain ⟨_, _, _, _, f, himports', henv', rfl⟩ := compile_ok h
  cases himports.symm.trans himports'
  cases henv.symm.trans henv'
  exact t.program_sees imports _ f _

/-- If its environment cannot be made, a unit is not set up. -/
theorem compile_setup {e : ScriptError}
    (himports : (Session.start system files path).resolveImports names = .ok (imports, t))
    (henv : t.unitEnvironment imports = .error e) :
    compile system files path ⟨source, names⟩ = .error (.setup (.script e)) := by
  rw [compile, himports]
  simp only [henv]

/-- Imports are resolved in order, up to the first that cannot be; then neither the source nor what
follows in the list matters. A unit that is compiled sees the tables in the same order, as long as
the global `setmetatable` is that of the library. -/
theorem compile_imports (system : System) (files : FileSystem) (path : String)
    (unit : CompilationUnit) :
    (∃ imports t, (Session.start system files path).Resolves unit.imports imports t ∧
        ((Session.start system files path).resolveAllRecorded unit.imports).2.map Prod.fst =
          unit.imports ∧
        (∀ e, t.unitEnvironment imports = .error e →
          compile system files path unit = .error (.setup (.script e))) ∧
        (t.store.rawGet Store.globals (.text "setmetatable") = .builtin .setmetatable →
          (∀ name f, unitName path = .ok name →
            Chunk.parse (Chunk.shownName name) (bytesOf unit.source).data.toList = .ok f →
            ∃ p, compile system files path unit = .ok p) ∧
          ∀ p, compile system files path unit = .ok p → p.Sees imports)) ∨
      ∃ before ns after imports t cause, unit.imports = before ++ ns :: after ∧
        (Session.start system files path).Resolves before imports t ∧
        t.resolveImport ns = .error (.unresolvedImport ns cause) ∧
        ∀ source later, compile system files path ⟨source, before ++ ns :: later⟩ =
            .error (.compile (.unresolvedImport ns cause)) ∧
          ((Session.start system files path).resolveAllRecorded
            (before ++ ns :: later)).2.map Prod.fst = before ++ [ns] := by
  rcases (Session.start system files path).resolveAllRecorded_cases unit.imports with
    ⟨imports, t, hresult, hchain, hlog⟩ |
      ⟨before, ns, after, imports, t, e, hsplit, hchain, hfailed, hlater⟩
  · rw [Session.resolveAllRecorded_fst] at hresult
    exact .inl ⟨imports, t, hchain, hlog, fun e => compile_setup hresult, compile_sees hresult⟩
  · obtain ⟨cause, rfl⟩ := Session.resolveImport_error hfailed
    refine .inr ⟨before, ns, after, imports, t, cause, hsplit, hchain, hfailed,
      fun source later => ⟨?_, (hlater later).2⟩⟩
    have hresult := (hlater later).1
    rw [Session.resolveAllRecorded_fst] at hresult
    rw [compile, hresult]

/-- An import is the table that its parts lead to among the globals, or else the one that `require`
gives for it, called once and with the whole namespace; the imports of a unit are resolved in order,
up to the first that cannot be. The unit sees the tables in that order, as long as the global
`setmetatable` is that of the library. -/
theorem imports_resolved (t : Session) (ns : String) (system : System) (files : FileSystem)
    (path : String) (unit : CompilationUnit) :
    (∀ f, t.store.Requires f →
      (∀ p, walk t.store (.table Store.globals) (Text.pieces '.' ns) = .table p →
        t.resolveRecorded ns = (.ok (p, t.afterWalk), [])) ∧
      ((∀ p, walk t.store (.table Store.globals) (Text.pieces '.' ns) ≠ .table p) →
        (t.resolveRecorded ns).2 = [(f, [.text ns])] ∧
          Session.Required ns
            (t.afterWalk.runMainFor (Session.budget 0 - 2) (Run.call f [.text ns] ⟨0, none⟩))
            (t.resolveRecorded ns).1)) ∧
    (t.resolveRecorded ns).1 = t.resolveImport ns ∧
    (∀ names, (t.resolveAllRecorded names).1 = t.resolveImports names) ∧
    ((∃ imports t, (Session.start system files path).Resolves unit.imports imports t ∧
        ((Session.start system files path).resolveAllRecorded unit.imports).2.map Prod.fst =
          unit.imports ∧
        (∀ e, t.unitEnvironment imports = .error e →
          compile system files path unit = .error (.setup (.script e))) ∧
        (t.store.rawGet Store.globals (.text "setmetatable") = .builtin .setmetatable →
          (∀ name f, unitName path = .ok name →
            Chunk.parse (Chunk.shownName name) (bytesOf unit.source).data.toList = .ok f →
            ∃ p, compile system files path unit = .ok p) ∧
          ∀ p, compile system files path unit = .ok p → p.Sees imports)) ∨
      ∃ before ns after imports t cause, unit.imports = before ++ ns :: after ∧
        (Session.start system files path).Resolves before imports t ∧
        t.resolveImport ns = .error (.unresolvedImport ns cause) ∧
        ∀ source later, compile system files path ⟨source, before ++ ns :: later⟩ =
            .error (.compile (.unresolvedImport ns cause)) ∧
          ((Session.start system files path).resolveAllRecorded
            (before ++ ns :: later)).2.map Prod.fst = before ++ [ns]) :=
  ⟨fun _ h => ⟨fun _ => Session.resolveRecorded_walk h, Session.resolveRecorded_require h⟩,
    t.resolveRecorded_fst ns, t.resolveAllRecorded_fst, compile_imports system files path unit⟩

theorem parse_nothing (chunk : Bytes) :
    Chunk.parse chunk (bytesOf "").data.toList = .ok (.mk 0 true [] chunk 0) := by
  with_unfolding_all rfl

/-- In a new session a library is found among the globals, and `require` is called for the name of a
function. A unit that imports the library sees it. -/
theorem imports_resolved_start :
    let t := Session.start .isolated default ""
    t.resolveImport "string" = .ok (9, t.afterWalk) ∧ (t.resolveRecorded "string").2 = [] ∧
      (t.resolveRecorded "t4.write").2 = [(.builtin .require, [.text "t4.write"])] ∧
      ∃ p, compile .isolated default "" ⟨"", ["string"]⟩ = .ok p ∧ p.Sees [9] := by
  intro t
  have ht : t.store.Requires (.builtin .require) := Session.start_requires .isolated default ""
  have hglobals (name : String) : t.store.rawGet Store.globals (.text name) =
      Store.globalTable.get (.text name) := rfl
  have hstring : Store.globalTable.get (.text "string") = .table 9 := by
    rw [Store.globalTable, get_withFields]
    rfl
  have hfound : walk t.store (.table Store.globals) (Text.pieces '.' "string") = .table 9 := by
    rw [show Text.pieces '.' "string" = ["string"] by decide, walk, walk, hglobals, hstring]
  have hwrite : walk t.store (.table Store.globals) (Text.pieces '.' "t4.write") =
      .builtin .write := by
    rw [show Text.pieces '.' "t4.write" = ["t4", "write"] by decide, walk, hglobals,
      Store.get_globalTable_t4, walk, walk]
    exact Store.get_engineTable_write
  obtain ⟨hone, hplain, -, hcompile⟩ :=
    imports_resolved t "string" .isolated default "" ⟨"", ["string"]⟩
  obtain ⟨hwalk, -⟩ := hone _ ht
  obtain ⟨-, hrequire⟩ := (imports_resolved t "t4.write" .isolated default "" default).1 _ ht
  have hresolved : t.resolveImport "string" = .ok (9, t.afterWalk) := by
    rw [← hplain, hwalk 9 hfound]
  refine ⟨hresolved, by rw [hwalk 9 hfound], (hrequire fun p hp => ?_).1, ?_⟩
  · rw [hwrite] at hp
    cases hp
  rcases hcompile with
    ⟨imports, t', hchain, -, -, hsees⟩ |
      ⟨before, ns, after, imports, t', cause, hsplit, hchain, hfailed, -⟩
  · obtain ⟨hname, hparse⟩ : unitName "" = .ok (bytesOf "=generated:") ∧ _ :=
      ⟨unitName_eq (by decide), parse_nothing (Chunk.shownName (bytesOf "=generated:"))⟩
    cases hchain with
    | cons hfirst hrest =>
      cases hrest
      cases hresolved.symm.trans hfirst
      obtain ⟨hmade, hsees⟩ := hsees (Session.start_stocked .isolated default "").setmetatable
      obtain ⟨p, hp⟩ := hmade _ _ hname hparse
      exact ⟨p, hp, hsees p hp⟩
  · cases before with
    | nil =>
      cases hsplit
      cases hchain
      cases hresolved.symm.trans hfailed
    | cons first rest =>
      cases rest <;> cases hsplit

/-! ## A package that replaces `setmetatable` -/

/-- The source of a package that is an empty table, and puts `assert` in the place of
`setmetatable`. -/
def replacingSource : String := "setmetatable=assert return\x7b\x7d"

/-- The function of that package. -/
def replacingProto (chunk : Bytes) : Proto :=
  .mk 0 true
    [.assign [nameExpr 0 0 (bytesOf "setmetatable")] [nameExpr 0 1 (bytesOf "assert")] 1,
      .giveBack [.table [] 1] 1] chunk 0

theorem parse_replacingSource (chunk : Bytes) :
    Chunk.parse chunk (bytesOf replacingSource).data.toList = .ok (replacingProto chunk) := by
  with_unfolding_all rfl

/-- A directory in which that package stands. -/
def replacingTree : FileSystem where
  root := .directory [("w", .directory [("m.lua", .file (bytesOf replacingSource) 0)] 0)] 0
  cwd := "/"
  now := 0

/-- What the package leaves: another `setmetatable`, and a new table. -/
def Store.replaced (s : Store) : Store :=
  ((s.rawSet Store.globals (.text "setmetatable") (.builtin .assert)).newTable (Table.empty 0 0)).2

/-- The package puts `assert` in the place of `setmetatable` and returns a new table. -/
theorem gives_replacingProto {s : Store} {cell : Nat} (chunk : Bytes) (args : List Value)
    (hcell : s.cell cell = .table Store.globals) (hbare : (s.table Store.globals).metatable = none)
    (hassert : s.rawGet Store.globals (.text "assert") = .builtin .assert) (m : Machine) :
    Gives m s (Closure.apply ⟨replacingProto chunk, [cell]⟩ args) 0 [.table s.tables.size]
      s.replaced := by
  let env : Env := ⟨[cell], args, false⟩
  have hread : Gives m s (Expr.evalList env [nameExpr 0 1 (bytesOf "assert")]) 0
      [.builtin .assert] s := by
    have hname : Gives m s (Expr.eval env (nameExpr 0 1 (bytesOf "assert"))) 0
        (.builtin .assert) s :=
      gives_nameExpr hcell (gives_index (k := .text "assert") rfl hassert rfl)
    rw [nameExpr, Expr.evalList, ← nameExpr, Expr.evalList]
    · exact Gives.bind_zero hname (Gives.pure _ _ _)
    all_goals simp
  have hassign : Gives m s (assignName env 0 1 (bytesOf "setmetatable") (.builtin .assert)) 0 ()
      (s.rawSet Store.globals (.text "setmetatable") (.builtin .assert)) := by
    rw [assignName, Target.assign]
    refine Gives.bind_zero (x := .table Store.globals) (hcell ▸ gives_read m s _) ?_
    refine Gives.bind_zero (Gives.pure m s _) fun k => ?_
    rw [Run.setIndex_bare (k := .text "setmetatable") rfl hbare]
    exact Machine.Steps.refl _ _
  have hsize := s.size_rawSet Store.globals (.text "setmetatable") (.builtin .assert)
  have hbody : Gives m s (execBlock env none passOn (replacingProto chunk).body) 0
      (.ret [.table s.tables.size]) s.replaced := by
    rw [replacingProto, Proto.body, execBlock, exec_assignName]
    · refine Gives.bind_zero (Gives.bind_zero hread (Gives.bind_zero hassign (Gives.pure _ _ _))) ?_
      exact hsize ▸ gives_giveTable m _ env
    all_goals simp [nameExpr]
  rw [Closure.apply]
  exact Gives.bind_zero (Gives.pure m s _) (Gives.bind_zero hbody (Gives.pure m _ _))

/-- After the package was kept, `assert` stands in the place of `setmetatable`. -/
theorem Store.rawGet_replaced {s : Store} (hsize : Store.globals < s.tables.size) (k : Key)
    (v : Value) : (s.replaced.rawSet Store.loaded k v).rawGet Store.globals (.text "setmetatable") =
      .builtin .assert := by
  rw [Store.rawGet, Store.table_rawSet _ _ _ (by decide), Store.replaced,
    Store.table_newTable _ _ (Nat.lt_of_lt_of_eq hsize (s.size_rawSet ..).symm),
    Store.table_rawSet_self _ _ _ hsize, Table.get_set, if_pos rfl]

/-- The package is found next to a template. -/
theorem resolveImport_replacing :
    ∃ q t, (Session.start .isolated replacingTree "/w/a.tt").resolveImport "m" = .ok (q, t) ∧
      t.store.rawGet Store.globals (.text "setmetatable") = .builtin .assert := by
  let t := Session.start .isolated replacingTree "/w/a.tt"
  let file := Packages.sibling (Host.directory "/w/a.tt") "m"
  let chunk := Chunk.shownName (Store.fileChunkName (bytesOf file))
  let s := t.store.withFile (replacingProto chunk)
  have hdir : Host.directory "/w/a.tt" ≠ "" := by decide
  have hread : replacingTree.readBytes file = .ok (bytesOf replacingSource) := by decide
  have hfiles : t.store.files = replacingTree := by
    rw [show t.store = _ from Session.store_start _ _ hdir]
    rfl
  have hsearches := Session.start_searches .isolated replacingTree hdir
  have hrequire := Session.start_requires .isolated replacingTree "/w/a.tt"
  have hload := Store.loadFile_eq (hfiles ▸ hread) (by decide) (by decide)
    (parse_replacingSource chunk)
  have hunloaded := Session.start_unloaded .isolated replacingTree hdir
  have hloads := Packages.loads_sibling (by decide) (by decide) (by decide) (by decide) hsearches hunloaded
    hload
  have hassert : s.rawGet Store.globals (.text "assert") = .builtin .assert := by
    refine (Session.rawGet_start .isolated replacingTree hdir (by decide) _).trans ?_
    show Store.globalTable.get _ = _
    rw [Store.globalTable, get_withFields, tableOf_eq, get_withFields]
    rfl
  have hreturns := gives_callFile t.room_requiring fun m =>
    gives_replacingProto chunk [.text "m", .text file] (s := s) (Store.cell_newCell_size _ _)
      (hrequire.bare _ .globals) hassert m
  have hloaded : s.Plain Store.loaded := ⟨hsearches.loaded.size, hsearches.loaded.bare⟩
  exact ⟨_, _, hloads.imports t rfl hrequire (Session.start_global _ _ hdir) 2 _ [] _ _
      hreturns.returns ((hloaded.rawSet _ _ _).newTable _) (by decide),
    Store.rawGet_replaced (Store.size_of_rawGet hassert rfl) _ _⟩

/-- A package that puts another function in the place of `setmetatable` is resolved, and the unit that
imports it is compiled; but it does not see the package. -/
theorem imports_unseen :
    ∃ q t p, (Session.start .isolated replacingTree "/w/a.tt").resolveImports ["m"] = .ok ([q], t) ∧
      compile .isolated replacingTree "/w/a.tt" ⟨"", ["m"]⟩ = .ok p ∧ ¬ p.Sees [q] := by
  obtain ⟨q, t, hresolved, hassert⟩ := resolveImport_replacing
  have himports := Session.resolveImports_singleton hresolved
  have henv := Session.unitEnvironment_builtin (n := 0) hassert [q] (fun m _ => Gives.pure m _ _)
    (by decide)
  refine ⟨q, t, _, himports, compile_eq himports henv (unitName_eq (by decide)) (parse_nothing _),
    Session.not_program_sees ?_⟩
  exact congrArg Table.metatable (Store.table_surroundWith_own _ _ _)

end Stencil.Lua
