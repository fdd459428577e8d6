import Stencil.Proofs.Lua.Requiring

/-!
# Packages next to a template

The path of packages starts with the directory of the template, so a package is loaded from the file
that stands next to the template under its name, whatever stands elsewhere on the path. That holds
for every directory without a semicolon or a question mark in its name; of any other directory the
path makes something else, and the package is not found.

* `Session.start_searches`: what a new session looks for packages on;
* `Packages.Loads`: `require`, and an import, load a package from a file;
* `Packages.loads_sibling`: the file next to a template;
* `siblings_found`: a package next to a template is loaded from there;
* `siblings_missed`: directories for whose templates it is not found.
-/

namespace Stencil.Lua

open Machine (Gives Room Steps)
open Packages (candidates fileNameOf keep readable templatePath)

variable {s s' : Store} {f : Value} {file : Bytes} {dir name : String}

/-! ## New sessions -/

theorem Store.rawGet_searchers (system : System) (files : FileSystem) (i : Int64) :
    (Store.initial system files).rawGet Store.searchers (.int i) =
      if 3 = i then .builtin .searchNative
      else if 2 = i then .builtin .searchLua
      else if 1 = i then .builtin .searchPreload
      else .nil := by
  show ((((Table.empty 3 0).set (.int 1) (.builtin .searchPreload)).set (.int 2)
    (.builtin .searchLua)).set (.int 3) (.builtin .searchNative)).get (.int i) = _
  simp only [Table.get_set, Table.get_empty, Key.int.injEq]

theorem Store.plain_initial (system : System) (files : FileSystem) {p : Nat} (hp : p < 18) :
    (Store.initial system files).Plain p :=
  ⟨hp, Store.metatable_initial system files p⟩

namespace Session

/-- A template in a directory changes one field of one table of a new session. -/
theorem store_start (system : System) (files : FileSystem) {path : String}
    (hdir : Host.directory path ≠ "") :
    (start system files path).store = (Store.initial system files).rawSet Store.package (.text "path")
      (.text (templatePath (Host.directory path))) := by
  rw [start, if_neg (by simpa using hdir)]
  rfl

theorem rawGet_start (system : System) (files : FileSystem) {path : String}
    (hdir : Host.directory path ≠ "") {p : Nat} (hp : Store.package ≠ p) (k : Key) :
    (start system files path).store.rawGet p k = (Store.initial system files).rawGet p k := by
  rw [store_start system files hdir, Store.rawGet, Store.table_rawSet _ _ _ hp]
  rfl

/-- A new session looks for packages in the directory of its template first. -/
theorem start_searches (system : System) (files : FileSystem) {path : String}
    (hdir : Host.directory path ≠ "") :
    (start system files path).store.Searches (bytesOf (templatePath (Host.directory path))) := by
  have hplain {p : Nat} (hp : p < 18) : (start system files path).store.Plain p := by
    rw [store_start system files hdir]
    exact (Store.plain_initial system files hp).rawSet _ _ _
  have hpackage (k : Key) : (start system files path).store.rawGet Store.package k =
      if Key.text "path" = k then .text (templatePath (Host.directory path))
      else (Store.libraryTable "package").get k := by
    rw [store_start system files hdir, Store.rawGet,
      Store.table_rawSet_self _ _ _ (Store.plain_initial system files (by decide)).size, Table.get_set]
    rfl
  have hsearchers (i : Int64) : (start system files path).store.rawGet Store.searchers (.int i) = _ :=
    (rawGet_start system files hdir (by decide) _).trans (Store.rawGet_searchers system files i)
  refine ⟨hplain (by decide), hplain (by decide), hplain (by decide), ?_, ?_, ?_, ?_, ?_, ?_⟩
  · rw [hpackage, if_pos rfl]
    rfl
  · rw [hpackage, if_neg (by decide), Store.libraryTable, get_withFields]
    rfl
  all_goals
    rw [hsearchers]
    rfl

end Session

/-! ## Files -/

namespace Packages

theorem readable_bytesOf (s : Store) (p : String) :
    readable s (bytesOf p) = (s.files.find p).isOk := by
  rw [readable, bytesOf, Utf8.readable_toUTF8]
  cases s.files.find p <;> rfl

/-- A file that is loaded can be opened. -/
theorem readable_of_loadFile {env : Value} (h : s.loadFile file env = .ok (f, s')) :
    readable s file = true := by
  rw [Store.loadFile, Store.chunkOfFile] at h
  rw [readable]
  cases hfind : s.files.find (Utf8.readable file) with
  | ok _ => rfl
  | error e =>
    have hread : s.files.readBytes (Utf8.readable file) = .error e := by
      rw [FileSystem.readBytes, hfind]
    simp only [hread] at h
    cases h

/-- The file of a package in a directory. -/
def sibling (dir name : String) : String :=
  dir ++ "/" ++ name ++ ".lua"

/-- `require` loads a package from a file with the function `f`, which leaves the store `s'`. -/
structure Loads (s : Store) (name file : String) (f : Value) (s' : Store) : Prop where
  /-- Wherever `require` is called, it calls nothing but two searchers before the function, which is
  given the name of the package and the file. -/
  calls : ∀ (m : Machine) (site : Site) (k : List Value → Store → Action), Room 2 m →
    Steps 5 m (Run.call (.builtin .require) [.text name] site s k)
      (m.entered (.builtin .require) site s k)
      (Run.call f [.text name, .text file] ⟨0, none⟩ s' fun vs =>
        (keep (bytesOf name) (.text file) (Value.first vs)).toAction)
  /-- If the function returns a table, so does `require`. -/
  returns : ∀ (m : Machine) (site : Site) (k : List Value → Store → Action), Room 2 m →
    ∀ (n p : Nat) (vs : List Value) (coroutines : Array Coroutine) (s'' : Store),
      (m.entered (.builtin .require) site s k).Returns s'
        (Run.call f [.text name, .text file] ⟨0, none⟩) n (.table p :: vs) coroutines s'' →
      s''.Plain Store.loaded →
      Steps (n + 6) m (Run.call (.builtin .require) [.text name] site s k) { m with coroutines }
        (k [.table p, .text file] (s''.rawSet Store.loaded (.text name) (.table p)))
  /-- If the function returns a table, an import of the package is that table. -/
  imports : ∀ t : Session, t.store = s → s.Requires (.builtin .require) →
    (∀ p, s.rawGet Store.globals (.text name) ≠ .table p) →
    ∀ (n p : Nat) (vs : List Value) (coroutines : Array Coroutine) (s'' : Store),
      t.requiring.Returns s' (Run.call f [.text name, .text file] ⟨0, none⟩) n (.table p :: vs)
        coroutines s'' →
      s''.Plain Store.loaded → n + 9 ≤ Session.budget 0 →
      t.resolveImport name = .ok (p, ⟨s''.rawSet Store.loaded (.text name) (.table p),
        coroutines.setIfInBounds 0 .finished⟩)

end Packages

/-- A name without dots leads to a field of the globals. -/
theorem walk_pieces (h : '.' ∉ name.toList) :
    walk s (.table Store.globals) (Text.pieces '.' name) = s.rawGet Store.globals (.text name) := by
  rw [Text.pieces, Text.splitAt_of_notMem h, List.map_singleton, String.ofList_toList, walk]
  cases s.rawGet Store.globals (.text name) <;> rfl

/-- A package is loaded from the first file of the path that can be opened. -/
theorem Packages.loads {path : Bytes} {file : String} (hdot : '.' ∉ name.toList)
    (hs : s.Searches path) (hnew : s.Unloaded (bytesOf name))
    (hfind : (candidates path (bytesOf name)).find? (readable s) = some (bytesOf file))
    (hload : s.loadFile (bytesOf file) (.table Store.globals) = .ok (f, s')) :
    Packages.Loads s name file f s' := by
  have hfind : (candidates path (fileNameOf (bytesOf name))).find? (readable s) =
      some (bytesOf file) := by rwa [fileNameOf_bytesOf hdot]
  refine ⟨fun m site k hr => ?_, fun m site k hr n p vs coroutines s'' hreturns hplain => ?_,
    fun t ht hrequire hglobal n p vs coroutines s'' hreturns hplain hbudget => ?_⟩
  · have hinner := hr.entered (.builtin .require) site s k
    exact (Machine.steps_call rfl (hr.mono (by decide))).trans
      (steps_require hs hnew hinner hfind hload _)
  · have hinner := hr.entered (.builtin .require) site s k
    have hreturned := returns_require hs hnew hinner hfind hload hreturns hplain
    have hcalled := hreturned.called rfl (hr.mono (by decide)) (body_require [.text name])
    rwa [show 4 + n + 2 = n + 6 by omega] at hcalled
  · subst ht
    refine Session.resolveImport_required hs hrequire hnew (fun q => ?_) hfind hload hreturns hplain
      hbudget
    rw [walk_pieces hdot]
    exact hglobal q

/-- A package next to a template is loaded from there, whatever else is on the path. -/
theorem Packages.loads_sibling (hmark : '?' ∉ dir.toList) (hsemicolon : ';' ∉ dir.toList)
    (hdot : '.' ∉ name.toList) (hname : ';' ∉ name.toList)
    (hs : s.Searches (bytesOf (templatePath dir))) (hnew : s.Unloaded (bytesOf name))
    (hload : s.loadFile (bytesOf (sibling dir name)) (.table Store.globals) = .ok (f, s')) :
    Loads s name (sibling dir name) f s' := by
  refine loads hdot hs hnew ?_ hload
  rw [templatePath, candidates_startingIn hmark hsemicolon hname]
  exact List.find?_cons_of_pos (readable_of_loadFile hload)

/-! ## A file that returns a table -/

/-- The source of a package that is an empty table. -/
def tableSource : String := "return\x7b\x7d"

/-- The function of a package that is an empty table. -/
def tableProto (chunk : Bytes) : Proto :=
  .mk 0 true [.giveBack [.table [] 1] 1] chunk 0

theorem parse_tableSource (chunk : Bytes) :
    Chunk.parse chunk (bytesOf tableSource).data.toList = .ok (tableProto chunk) := by
  with_unfolding_all rfl

/-- The function returns a new table. -/
theorem gives_giveTable (m : Machine) (s : Store) (env : Env) :
    Gives m s (execBlock env none passOn [.giveBack [.table [] 1] 1]) 0
      (.ret [.table s.tables.size]) (s.newTable (Table.empty 0 0)).2 := by
  have hvalues : Gives m s (Expr.evalList env [.table [] 1]) 0 [.table s.tables.size]
      (s.newTable (Table.empty 0 0)).2 := by
    rw [Expr.evalList, Expr.evalList]
    · exact Gives.bind_zero (gives_emptyTable m s env 1) (Gives.pure _ _ _)
    all_goals simp
  rw [execBlock, Stmt.exec]
  · exact Gives.bind_zero hvalues.map (Gives.pure _ _ _)
  all_goals simp

/-- What a store is with a function loaded from a file. -/
def Store.withFile (s : Store) (f : Proto) : Store :=
  ((s.newCell (.table Store.globals)).2.newClosure ⟨f, [s.cells.size]⟩).2

/-- A file with a source is loaded as the function that the source is read as. -/
theorem Store.loadFile_eq {p source : String} {f : Proto}
    (hread : s.files.readBytes p = .ok (bytesOf source))
    (hchunk : Chunk.ofFile (bytesOf source) = bytesOf source)
    (htext : Chunk.isBinary (bytesOf source) = false)
    (hparse : Chunk.parse (Chunk.shownName (Store.fileChunkName (bytesOf p)))
      (bytesOf source).data.toList = .ok f) :
    s.loadFile (bytesOf p) (.table Store.globals) =
      .ok (.closure s.closures.size, s.withFile f) := by
  have hfile : s.chunkOfFile (bytesOf p) = .ok (bytesOf source) := by
    rw [chunkOfFile, show Utf8.readable (bytesOf p) = p from Utf8.readable_toUTF8 p]
    simp only [hread, hchunk]
  rw [loadFile, hfile]
  simp only [loadChunk, htext]
  exact Store.load_eq hparse

/-- Calling the function of a file runs it. -/
theorem gives_callFile {m : Machine} {f : Proto} {args vs : List Value} {n : Nat} {s'' : Store}
    (hr : Room 1 m)
    (h : ∀ m, Gives m (s.withFile f) (Closure.apply ⟨f, [s.cells.size]⟩ args) n vs s'') :
    Gives m (s.withFile f) (Run.call (.closure s.closures.size) args ⟨0, none⟩) (n + 2) vs s'' := by
  refine Gives.call rfl hr ?_ fun k => h _
  have hclosure : (s.withFile f).closure s.closures.size = ⟨f, [s.cells.size]⟩ :=
    Store.closure_newClosure_size ..
  rw [Machine.body, hclosure]

/-- A new table leaves the others as they are. -/
theorem Store.Plain.newTable {p : Nat} (h : s.Plain p) (t : Table) : (s.newTable t).2.Plain p where
  size := by
    rw [size_newTable]
    exact Nat.lt_succ_of_lt h.size
  bare := by
    rw [table_newTable _ _ h.size]
    exact h.bare

/-- A file with that source can be loaded, and its function returns a new table. -/
theorem exists_tableSource {p : String} (hread : s.files.readBytes p = .ok (bytesOf tableSource)) :
    ∃ f s' s'', s.loadFile (bytesOf p) (.table Store.globals) = .ok (f, s') ∧
      (∀ p, s.Plain p → s''.Plain p) ∧ ∀ (m : Machine) (args : List Value), Room 1 m →
        Gives m s' (Run.call f args ⟨0, none⟩) 2 [.table s.tables.size] s'' := by
  let f := tableProto (Chunk.shownName (Store.fileChunkName (bytesOf p)))
  refine ⟨_, _, ((s.withFile f).newTable (Table.empty 0 0)).2,
    Store.loadFile_eq hread (by decide) (by decide) (parse_tableSource _),
    fun p hp => Store.Plain.newTable (s := s.withFile f) ⟨hp.size, hp.bare⟩ _,
    fun m args hr => gives_callFile hr fun m => ?_⟩
  rw [Closure.apply]
  refine Gives.bind_zero (Gives.pure m _ _) ?_
  exact Gives.bind_zero (gives_giveTable m _ _) (Gives.pure _ _ _)

/-- A directory under the root in which the package `m` stands, and what else there is. -/
def packageTree (dir : String) (others : List (String × Node)) : FileSystem where
  root := .directory ((dir, .directory [("m.lua", .file (bytesOf tableSource) 0)] 0) :: others) 0
  cwd := "/"
  now := 0

/-- In a new session there is nothing for the name `m` yet. -/
theorem Session.start_unloaded (system : System) (files : FileSystem) {path : String}
    (hdir : Host.directory path ≠ "") : (start system files path).store.Unloaded (bytesOf "m") where
  loaded := by
    have hloaded : Store.loadedTable.get (.text "m") = .nil := by
      rw [Store.loadedTable, get_withFields]
      exact Table.get_empty ..
    rw [rawGet_start system files hdir (by decide)]
    exact congrArg Value.truth hloaded
  preload := by
    rw [rawGet_start system files hdir (by decide)]
    exact Table.get_empty ..

/-- In a new session there is no table of the name `m` among the globals. -/
theorem Session.start_global (system : System) (files : FileSystem) {path : String}
    (hdir : Host.directory path ≠ "") (p : Nat) :
    (start system files path).store.rawGet Store.globals (.text "m") ≠ .table p := by
  have hglobal : Store.globalTable.get (.text "m") = .nil := by
    rw [Store.globalTable, get_withFields, tableOf_eq, get_withFields]
    exact Table.get_empty ..
  rw [rawGet_start system files hdir (by decide)]
  show Store.globalTable.get (.text "m") ≠ _
  rw [hglobal]
  intro heq
  cases heq

/-! ## Packages next to templates -/

/-- A package next to a template is loaded from there, if neither a semicolon nor a question mark is
in the name of the directory: a new session looks for packages on the path of the directory, and
wherever they are looked for on that path, a package that was not loaded and whose file stands in
the directory is loaded from that file, whatever else is on the path. -/
theorem siblings_found (system : System) (files : FileSystem) (path name : String)
    (hdir : Host.directory path ≠ "") (hsemicolon : ';' ∉ (Host.directory path).toList)
    (hmark : '?' ∉ (Host.directory path).toList) (hdot : '.' ∉ name.toList)
    (hname : ';' ∉ name.toList) :
    (Session.start system files path).store.Searches (bytesOf (templatePath (Host.directory path))) ∧
    (Session.start system files path).store.Requires (.builtin .require) ∧
    ∀ s : Store, s.Searches (bytesOf (templatePath (Host.directory path))) →
      s.Unloaded (bytesOf name) → ∀ (f : Value) (s' : Store),
        s.loadFile (bytesOf (Packages.sibling (Host.directory path) name)) (.table Store.globals) =
          .ok (f, s') →
        Packages.Loads s name (Packages.sibling (Host.directory path) name) f s' :=
  ⟨Session.start_searches system files hdir, Session.start_requires system files path,
    fun _ hs hnew _ _ => Packages.loads_sibling hmark hsemicolon hdot hname hs hnew⟩

/-- Another package of the same name in the working directory, which is on the path too, makes no
difference. -/
theorem siblings_found_first :
    let files := packageTree "w" [("m.lua", .file (bytesOf "=") 0)]
    let t := Session.start .isolated files "/w/a.tt"
    files.readBytes "./m.lua" = .ok (bytesOf "=") ∧
      ∃ t', t.resolveImport "m" = .ok (t.store.tables.size, t') := by
  intro files t
  have hdir : Host.directory "/w/a.tt" ≠ "" := by decide
  have hread : files.readBytes (Packages.sibling (Host.directory "/w/a.tt") "m") =
      .ok (bytesOf tableSource) := by decide
  have hother : files.readBytes "./m.lua" = .ok (bytesOf "=") := by decide
  obtain ⟨hs, hrequire, hfound⟩ := siblings_found .isolated files "/w/a.tt" "m" hdir (by decide)
    (by decide) (by decide) (by decide)
  obtain ⟨f, s', s'', hload, hplain, hgives⟩ := exists_tableSource (s := t.store) hread
  have hloads := hfound t.store hs (Session.start_unloaded _ files hdir) f s' hload
  have hreturns := (hgives t.requiring
    [.text "m", .text (Packages.sibling (Host.directory "/w/a.tt") "m")] t.room_requiring).returns
  exact ⟨hother, _, hloads.imports t rfl hrequire (Session.start_global _ files hdir) 2 _ [] _ s''
    hreturns (hplain _ hs.loaded) (by decide)⟩

/-- The package `m` stands next to the template at a path, and is a table; but an import of it in
the template is an error. -/
structure Packages.Misses (files : FileSystem) (path : String) : Prop where
  directory : Host.directory path ≠ ""
  /-- There is nothing for the name yet. -/
  unloaded : (Session.start .isolated files path).store.Unloaded (bytesOf "m")
  global : ∀ p, (Session.start .isolated files path).store.rawGet Store.globals (.text "m") ≠ .table p
  /-- The file in the directory of the template can be loaded, and its function returns a table. -/
  table : ∃ f s' s'' p, (Session.start .isolated files path).store.loadFile
      (bytesOf (sibling (Host.directory path) "m")) (.table Store.globals) = .ok (f, s') ∧
    ∀ (m : Machine) (args : List Value), Room 1 m →
      Gives m s' (Run.call f args ⟨0, none⟩) 2 [.table p] s''
  missed : ∃ cause, (Session.start .isolated files path).resolveImport "m" =
    .error (.unresolvedImport "m" (some (.script cause)))

/-- A package is not found if no file of the path can be opened. -/
theorem Packages.misses {files : FileSystem} {path : String} (hdir : Host.directory path ≠ "")
    (hread : files.readBytes (sibling (Host.directory path) "m") = .ok (bytesOf tableSource))
    (hnone : ∀ p ∈ Text.pieces ';' (named (Host.directory path ++ "/?.lua") "m") ++
      (Text.pieces ';' (named (Host.directory path ++ "/?/init.lua") "m") ++ usual "m"),
      (files.find p).isOk = false) : Misses files path := by
  have hfiles : (Session.start .isolated files path).store.files = files := by
    rw [Session.store_start _ files hdir]
    rfl
  have hnew := Session.start_unloaded .isolated files hdir
  have hglobal := Session.start_global .isolated files hdir
  have hfind : (candidates (bytesOf (templatePath (Host.directory path)))
      (fileNameOf (bytesOf "m"))).find? (readable (Session.start .isolated files path).store) = none := by
    rw [fileNameOf_bytesOf (by decide), templatePath, candidates_startingIn_append,
      candidates_defaultPath (by decide), candidates_bytesOf, candidates_bytesOf, ← List.map_append,
      ← List.map_append, List.find?_eq_none]
    rintro _ hmem
    obtain ⟨p, hp, rfl⟩ := List.mem_map.mp hmem
    rw [readable_bytesOf, hfiles, hnone p hp]
    exact Bool.false_ne_true
  rw [← hfiles] at hread
  obtain ⟨f, s', s'', hload, -, hgives⟩ := exists_tableSource hread
  refine ⟨hdir, hnew, hglobal, ⟨f, s', s'', _, hload, hgives⟩, ?_⟩
  refine Session.resolveImport_missing (Session.start_searches _ files hdir)
    (Session.start_requires _ files path) hnew (fun p => ?_) hfind
  rw [walk_pieces (by decide)]
  exact hglobal p

/-- A question mark or a semicolon in the name of the directory, and the package is not found. -/
theorem siblings_missed :
    Packages.Misses (packageTree "q?x" []) "/q?x/a.tt" ∧
      Packages.Misses (packageTree "a;b" []) "/a;b/a.tt" :=
  ⟨Packages.misses (by decide) (by decide) (by decide +kernel),
    Packages.misses (by decide) (by decide) (by decide +kernel)⟩

end Stencil.Lua
