import Stencil.Proofs.Lua.Imports
import Stencil.Proofs.Lua.SearchPath
import Stencil.Proofs.Lua.Unit

/-!
# Requiring packages

`require` asks one searcher after another for the loader of a package that was not loaded before. In
a store whose tables of packages are as they were set up, that is the function of the first file of
the path that can be opened; it is called with the name of the package and the file, and the first
of its results is the package.

* `Store.Searches`: packages are looked for on a path;
* `Packages.steps_require`: `require` calls the function of the first file that can be opened;
* `Packages.returns_require`: it comes back with the table that the function returns;
* `Packages.steps_require_missing`: if no file can be opened, it raises an error;
* `Session.resolveImport_required`, `resolveImport_missing`: both for an import.
-/

namespace Stencil.Lua

open Machine (Gives Room Steps)

variable {m : Machine} {s s' : Store} {path name file : Bytes} {f : Value}

/-! ## Tables of packages -/

/-- A table of a store, without a metatable. -/
structure Store.Plain (s : Store) (p : Nat) : Prop where
  size : p < s.tables.size
  bare : (s.table p).metatable = none

/-- Packages are looked for on a path, by the searchers that every store has. -/
structure Store.Searches (s : Store) (path : Bytes) : Prop where
  loaded : s.Plain Store.loaded
  package : s.Plain Store.package
  preload : s.Plain Store.preload
  path : s.rawGet Store.package (.text "path") = .string path
  searchers : s.rawGet Store.package (.text "searchers") = .table Store.searchers
  given : s.rawGet Store.searchers (.int 1) = .builtin .searchPreload
  lua : s.rawGet Store.searchers (.int 2) = .builtin .searchLua
  native : s.rawGet Store.searchers (.int 3) = .builtin .searchNative
  last : s.rawGet Store.searchers (.int 4) = .nil

/-- A package was not loaded, and no loader was given for it. -/
structure Store.Unloaded (s : Store) (name : Bytes) : Prop where
  loaded : (s.rawGet Store.loaded (.string name)).truth = false
  preload : s.rawGet Store.preload (.string name) = .nil

theorem Run.setIndex_bare {line p : Nat} {desc : Description} {key v : Value} {k : Key}
    (hk : Key.ofValue key = some k) (hbare : (s.table p).metatable = none)
    (next : Unit → Store → Action) :
    Run.setIndex line desc (.table p) key v s next = next () (s.rawSet p k v) := by
  have hmethod : s.metamethod (.table p) "__newindex" = .nil := by
    rw [Store.metamethod, Store.metatable, hbare]
  show Run.setIndexThrough line (1999 + 1) desc (.table p) key v s next = _
  simp only [setIndexThrough, bind, Run.bind, store, hmethod, ite_self, rawSetAt, hk]
  rfl

theorem Store.Plain.rawSet {p : Nat} (h : s.Plain p) (p' : Nat) (k : Key) (v : Value) :
    (s.rawSet p' k v).Plain p where
  size := Nat.lt_of_lt_of_eq h.size (s.size_rawSet p' k v).symm
  bare := by
    rw [Store.metatable_rawSet]
    exact h.bare

/-- A file that is loaded is a function. -/
theorem Store.isFunction_of_loadFile {env : Value} (h : s.loadFile file env = .ok (f, s')) :
    f.isFunction = true := by
  unfold loadFile loadChunk undump at h
  split at h
  · split at h
    · split at h
      · cases h
      · cases h
        rfl
    · obtain ⟨proto, rfl, -⟩ := Store.load_ok h
      rfl
  · cases h

/-! ## Searchers -/

namespace Packages

/-- Without a loader for the package, the first searcher has none. -/
theorem gives_searchPreload (hs : s.Searches path)
    (hnone : s.rawGet Store.preload (.string name) = .nil) :
    Gives m s (searchPreload [.string name]) 0
      [.string (bytesOf "no field package.preload['" ++ name ++ bytesOf "']")] s := by
  refine Gives.bind_zero (x := name) (Gives.pure m s _) ?_
  refine Gives.bind_zero (gives_index_bare rfl hs.preload.bare) ?_
  rw [hnone]
  exact Gives.pure m s _

/-- The second searcher loads the first file of the path that can be opened. -/
theorem gives_searchLua (hs : s.Searches path)
    (hfind : (candidates path (fileNameOf name)).find? (readable s) = some file)
    (hload : s.loadFile file (.table Store.globals) = .ok (f, s')) :
    Gives m s (searchLua [.string name]) 0 [f, .string file] s' := by
  have hsearch : searchPath s path (fileNameOf name) = .ok file := by rw [searchPath, hfind]
  refine Gives.bind_zero (x := name) (Gives.pure m s _) ?_
  refine Gives.bind_zero (gives_index_bare (k := .text "path") rfl hs.package.bare) ?_
  simp only [hs.path, Value.toBytes]
  refine Gives.store ?_
  rw [hsearch]
  refine Gives.store ?_
  rw [hload]
  exact Gives.bind_zero (Gives.modify m s _) (Gives.pure m s' _)

/-- If no file of the path can be opened, the second searcher has none. -/
theorem gives_searchLua_missing (hs : s.Searches path)
    (hfind : (candidates path (fileNameOf name)).find? (readable s) = none) :
    Gives m s (searchLua [.string name]) 0
      [.string (notFoundText (fillPath path (fileNameOf name)))] s := by
  have hsearch : searchPath s path (fileNameOf name) =
      .error (notFoundText (fillPath path (fileNameOf name))) := by rw [searchPath, hfind]
  refine Gives.bind_zero (x := name) (Gives.pure m s _) ?_
  refine Gives.bind_zero (gives_index_bare (k := .text "path") rfl hs.package.bare) ?_
  simp only [hs.path, Value.toBytes]
  refine Gives.store ?_
  rw [hsearch]
  exact Gives.pure m s _

/-- A searcher that gives its results at once is called in two steps. -/
theorem gives_call_searcher {b : Builtin} {vs args : List Value} (hr : Room 1 m)
    (h : ∀ m', Gives m' s (b.apply args) 0 vs s') :
    Gives m s (Run.call (.builtin b) args ⟨0, none⟩) 2 vs s' :=
  Gives.call rfl hr rfl fun _ => h _

/-- The loader of a package is the function of the first file of the path that can be opened. -/
theorem gives_findLoader (hs : s.Searches path) (hr : Room 1 m)
    (hnone : s.rawGet Store.preload (.string name) = .nil)
    (hfind : (candidates path (fileNameOf name)).find? (readable s) = some file)
    (hload : s.loadFile file (.table Store.globals) = .ok (f, s')) (fuel : Nat) (messages : Bytes) :
    Gives m s (findLoader name Store.searchers (fuel + 2) 1 messages) 4 (f, .string file) s' := by
  have hpreload := gives_call_searcher (b := .searchPreload) hr fun _ => gives_searchPreload hs hnone
  have hlua := gives_call_searcher (b := .searchLua) hr fun _ => gives_searchLua hs hfind hload
  rw [findLoader]
  refine Gives.store ?_
  rw [hs.given]
  refine Gives.bind (n := 2) (j := 2) hpreload ?_
  show Gives m s (findLoader name Store.searchers (fuel + 1) (1 + 1) _) 2 _ s'
  rw [findLoader]
  refine Gives.store ?_
  have htwo : (1 : Int64) + 1 = 2 := rfl
  rw [htwo, hs.lua]
  refine Gives.bind (n := 2) (j := 0) hlua ?_
  have hfunction : (Argument.value 1 [f, .string file]).isFunction = true :=
    Store.isFunction_of_loadFile hload
  rw [if_pos hfunction]
  exact Gives.pure m s' _

/-- After a searcher that gives a message the next one is asked. -/
theorem steps_findLoader_next {b : Builtin} {i : Int64} {message : Bytes}
    (hget : s.rawGet Store.searchers (.int i) = .builtin b)
    (hcall : Gives m s (Run.call (.builtin b) [.string name] ⟨0, none⟩) 2 [.string message] s)
    (fuel : Nat) (messages : Bytes) (k : Value × Value → Store → Action) :
    Steps 2 m (findLoader name Store.searchers (fuel + 1) i messages s k) m
      (findLoader name Store.searchers fuel (i + 1) (messages ++ bytesOf "\n\t" ++ message) s k) := by
  rw [findLoader]
  simp only [bind, Run.bind, Run.store, hget]
  exact hcall _

/-- If no file of the path can be opened, there is no loader. -/
theorem steps_findLoader_missing (hs : s.Searches path) (hr : Room 1 m)
    (hnone : s.rawGet Store.preload (.string name) = .nil)
    (hfind : (candidates path (fileNameOf name)).find? (readable s) = none) (fuel : Nat)
    (messages : Bytes) (k : Value × Value → Store → Action) :
    ∃ message, Steps 7 m (findLoader name Store.searchers (fuel + 4) 1 messages s k) m
      (.raise (.string message) s) := by
  have hpreload := gives_call_searcher (b := .searchPreload) hr fun _ =>
    gives_searchPreload hs hnone
  have hlua := gives_call_searcher (b := .searchLua) hr fun _ => gives_searchLua_missing hs hfind
  have hnative : Gives m s (Run.call (.builtin .searchNative) [.string name] ⟨0, none⟩) 2
      [.text "\n\tcan't load C modules in safe mode"] s :=
    gives_call_searcher (b := .searchNative) hr fun m' => Gives.pure m' s _
  have hlast (messages : Bytes) : ∃ message,
      Steps 1 m (findLoader name Store.searchers (fuel + 1) 4 messages s k) m
        (.raise (.string message) s) := by
    rw [findLoader]
    simp only [bind, Run.bind, Run.store, hs.last]
    exact ⟨_, Steps.one rfl⟩
  have hasked := ((steps_findLoader_next hs.given hpreload (fuel + 3) messages k).trans
    (steps_findLoader_next hs.lua hlua (fuel + 2) _ k)).trans
      (steps_findLoader_next hs.native hnative (fuel + 1) _ k)
  obtain ⟨message, hend⟩ := hlast _
  exact ⟨message, hasked.trans hend⟩

/-! ## Requiring -/

/-- What `require` does with the result of a loader: it keeps it, and gives it with what the
searcher told about the loader. -/
def keep (name : Bytes) (extra result : Value) : Run (List Value) := do
  if !result.isNil then Run.setIndex 0 none (.table Store.loaded) (.string name) result
  match ← Run.index 0 none (.table Store.loaded) (.string name) with
  | .nil =>
    Run.setIndex 0 none (.table Store.loaded) (.string name) (.bool true)
    return [.bool true, extra]
  | v => return [v, extra]

/-- There is room for the searchers that every store has. -/
theorem exists_searches : ∃ fuel, Nat.pow 2 40 = fuel + 4 :=
  ⟨Nat.pow 2 40 - 4, by decide⟩

/-- For a package that was not loaded, `require` looks for the loader, calls it, and keeps its
result. -/
theorem require_eq (hs : s.Searches path) (hnew : s.Unloaded name)
    (k : List Value → Store → Action) :
    require [.string name] s k =
      findLoader name Store.searchers (Nat.pow 2 40) 1 ByteArray.empty s fun found s =>
        Run.callOne found.1 [.string name, found.2] ⟨0, none⟩ s fun result =>
          (keep name found.2 result · k) := by
  show Run.index 0 none (.table Store.loaded) (.string name) s _ = _
  rw [Run.index_bare (k := .string name) rfl hs.loaded.bare]
  show (if (s.rawGet Store.loaded (.string name)).truth then _ else _ : Run (List Value)) s k = _
  rw [hnew.loaded, if_neg Bool.false_ne_true]
  show Run.index 0 none (.table Store.package) (.text "searchers") s _ = _
  rw [Run.index_bare (k := .text "searchers") rfl hs.package.bare, hs.searchers]
  rfl

/-- What calling `require` comes to. -/
theorem body_require (args : List Value) :
    Machine.body s (.builtin .require) args = (require args).toAction s := rfl

/-- For a package that was not loaded, `require` calls nothing but the first two searchers and then
the function of the first file of the path that can be opened, with the name of the package and the
file; it keeps the result. -/
theorem steps_require (hs : s.Searches path) (hnew : s.Unloaded name) (hr : Room 1 m)
    (hfind : (candidates path (fileNameOf name)).find? (readable s) = some file)
    (hload : s.loadFile file (.table Store.globals) = .ok (f, s'))
    (k : List Value → Store → Action) :
    Steps 4 m (require [.string name] s k) m
      (Run.call f [.string name, .string file] ⟨0, none⟩ s' fun vs =>
        (keep name (.string file) (Value.first vs) · k)) := by
  obtain ⟨fuel, hfuel⟩ := exists_searches
  rw [require_eq hs hnew, hfuel]
  exact gives_findLoader hs hr hnew.preload hfind hload (fuel + 2) _ _

/-- A table is kept as it is. -/
theorem gives_keep_table (hs : s.Plain Store.loaded) (name : Bytes) (extra : Value) (p : Nat) :
    Gives m s (keep name extra (.table p)) 0 [.table p, extra]
      (s.rawSet Store.loaded (.string name) (.table p)) := by
  have hset : Gives m s (Run.setIndex 0 none (.table Store.loaded) (.string name) (.table p)) 0 ()
      (s.rawSet Store.loaded (.string name) (.table p)) := fun k => by
    rw [Run.setIndex_bare (k := .string name) rfl hs.bare]
    exact Steps.refl _ _
  have hget : (s.rawSet Store.loaded (.string name) (.table p)).rawGet Store.loaded (.string name) =
      .table p := by
    rw [Store.rawGet, Store.table_rawSet_self _ _ _ hs.size, Table.get_set, if_pos rfl]
  rw [keep]
  refine Gives.bind_zero hset ?_
  refine Gives.bind_zero (gives_index_bare (k := .string name) rfl (hs.rawSet _ _ _).bare) ?_
  rw [hget]
  exact Gives.pure m _ _

/-- `require` comes back with the table that the function of the file returns, and with the file. -/
theorem returns_require (hs : s.Searches path) (hnew : s.Unloaded name) (hr : Room 1 m)
    (hfind : (candidates path (fileNameOf name)).find? (readable s) = some file)
    (hload : s.loadFile file (.table Store.globals) = .ok (f, s')) {n p : Nat} {vs : List Value}
    {coroutines : Array Coroutine} {s'' : Store}
    (hreturns : m.Returns s' (Run.call f [.string name, .string file] ⟨0, none⟩) n (.table p :: vs)
      coroutines s'') (hplain : s''.Plain Store.loaded) :
    m.Returns s (require [.string name]) (4 + n) [.table p, .string file] coroutines
      (s''.rawSet Store.loaded (.string name) (.table p)) := by
  intro k
  have hkeep := gives_keep_table (m := { m with coroutines }) hplain name (.string file) p
  exact ((steps_require hs hnew hr hfind hload k).trans (hreturns _)).trans (hkeep k)

/-- If no file of the path can be opened, `require` raises an error. -/
theorem steps_require_missing (hs : s.Searches path) (hnew : s.Unloaded name) (hr : Room 1 m)
    (hfind : (candidates path (fileNameOf name)).find? (readable s) = none)
    (k : List Value → Store → Action) :
    ∃ message, Steps 7 m (require [.string name] s k) m (.raise (.string message) s) := by
  obtain ⟨fuel, hfuel⟩ := exists_searches
  rw [require_eq hs hnew, hfuel]
  exact steps_findLoader_missing hs hr hnew.preload hfind fuel _ _

end Packages

/-! ## Imports -/

namespace Session

variable {t : Session} {ns : String}

/-- The machine in which `require` runs for an import. -/
def requiring (t : Session) : Machine :=
  (Machine.atStart t.afterWalk.coroutines).entered (.builtin .require) ⟨0, none⟩ t.store
    fun vs s => .finish (.ret vs) s

theorem room_requiring (t : Session) : Room 1 t.requiring :=
  ((Machine.room_base 0 false t.afterWalk.coroutines).entered _ _ _ _).mono (by decide)

/-- What `runMainFor` makes of the end of a run. -/
theorem runMainFor_eq {fuel : Nat} {r : Run (List Value)} {outcome : Except Value (List Value)}
    {coroutines : Array Coroutine} {s : Store}
    (h : (Machine.atStart t.coroutines).run fuel (r.toAction t.store) =
      some (outcome, coroutines, s)) : t.runMainFor fuel r = (outcome, ⟨s, coroutines⟩) := by
  rw [runMainFor, h]

/-- A package that is no table among the globals and was not loaded is imported from the first file
of the path that can be opened, if the function of the file returns a table. -/
theorem resolveImport_required (hs : t.store.Searches path)
    (hrequire : t.store.Requires (.builtin .require)) (hnew : t.store.Unloaded (bytesOf ns))
    (hwalk : ∀ p, walk t.store (.table Store.globals) (Text.pieces '.' ns) ≠ .table p)
    (hfind : (Packages.candidates path (Packages.fileNameOf (bytesOf ns))).find?
      (Packages.readable t.store) = some file)
    (hload : t.store.loadFile file (.table Store.globals) = .ok (f, s')) {n p : Nat}
    {vs : List Value} {coroutines : Array Coroutine} {s'' : Store}
    (hreturns : t.requiring.Returns s' (Run.call f [.text ns, .string file] ⟨0, none⟩) n
      (.table p :: vs) coroutines s'')
    (hplain : s''.Plain Store.loaded) (hbudget : n + 9 ≤ budget 0) :
    t.resolveImport ns = .ok (p, ⟨s''.rawSet Store.loaded (.text ns) (.table p),
      coroutines.setIfInBounds 0 .finished⟩) := by
  have hreturned := Packages.returns_require hs hnew t.room_requiring hfind hload hreturns hplain
  have hroom : Room 1 (.atStart t.afterWalk.coroutines) :=
    (Machine.room_base 0 false t.afterWalk.coroutines).mono (by decide)
  have hcalled := hreturned.called rfl hroom (Packages.body_require [.text ns])
  have hrun := runMainFor_eq (t := t.afterWalk)
    (r := Run.call (.builtin .require) [.text ns] ⟨0, none⟩)
    (Machine.run_of_steps rfl rfl hcalled (show 4 + n + 2 < budget 0 - 2 by omega))
  obtain ⟨-, hrequired⟩ := resolveRecorded_require hrequire hwalk
  rw [hrun, resolveRecorded_fst] at hrequired
  generalize t.resolveImport ns = result at hrequired ⊢
  cases hrequired with
  | table => rfl
  | other hother => exact absurd rfl (hother p)

/-- A package that is no table among the globals and was not loaded cannot be imported if no file of
the path can be opened. -/
theorem resolveImport_missing (hs : t.store.Searches path)
    (hrequire : t.store.Requires (.builtin .require)) (hnew : t.store.Unloaded (bytesOf ns))
    (hwalk : ∀ p, walk t.store (.table Store.globals) (Text.pieces '.' ns) ≠ .table p)
    (hfind : (Packages.candidates path (Packages.fileNameOf (bytesOf ns))).find?
      (Packages.readable t.store) = none) :
    ∃ cause, t.resolveImport ns = .error (.unresolvedImport ns (some (.script cause))) := by
  obtain ⟨message, hsteps⟩ := Packages.steps_require_missing hs hnew t.room_requiring hfind
    fun vs s => .finish (.ret vs) s
  have hroom : Room 1 (.atStart t.afterWalk.coroutines) :=
    (Machine.room_base 0 false t.afterWalk.coroutines).mono (by decide)
  have hraised := (Machine.steps_call (f := .builtin .require) rfl hroom).trans hsteps
  obtain ⟨fuel, hbudget⟩ : ∃ fuel, budget 0 - 2 = 8 + (fuel + 1) := ⟨budget 0 - 11, by decide⟩
  have hrun : ∃ coroutines, (Machine.atStart t.afterWalk.coroutines).run (budget 0 - 2)
      ((Run.call (.builtin .require) [.text ns] ⟨0, none⟩).toAction t.afterWalk.store) =
        some (.error (.string message), coroutines, t.store) := by
    rw [hbudget]
    exact ⟨_, hraised (fuel + 1)⟩
  obtain ⟨coroutines, hrun⟩ := hrun
  obtain ⟨-, hrequired⟩ := resolveRecorded_require hrequire hwalk
  rw [runMainFor_eq hrun, resolveRecorded_fst] at hrequired
  generalize t.resolveImport ns = result at hrequired ⊢
  cases hrequired with
  | raised => exact ⟨_, rfl⟩

end Session

end Stencil.Lua
