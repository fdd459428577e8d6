import Stencil.Proofs.Lua.Unit

/-!
# The names of a unit

A unit reads a name from its own environment, then from the globals and then from the imported
tables, in order; what it assigns goes to its own environment alone. So what it reads is what it
assigned last, or what stands behind, whatever was assigned to other names and in what order.

The environment is made by the global `setmetatable`. If that is not the function of the library any
more, none of this needs to be so.

* `Scope`, `Scope.InForce`: the tables that the names of a unit go through;
* `gives_readName`, `gives_assignName`: one use of a name;
* `Scope.InForce.gives_perform`: every sequence of uses;
* `names_scoped`: the names of a unit with a list of imports;
* `names_unscoped`: a unit that does not see a global.
-/

namespace Stencil.Lua

open Machine (Gives Room)

/-! ## Scopes -/

/-- Where the names of a unit lead: the variable with its environment, the table that this is, its
metatable, and the function that looks names up behind it. -/
structure Scope where
  cell : Nat
  own : Nat
  behind : Nat
  lookup : Lookup

namespace Scope

/-- The tables behind the environment of a unit. -/
def outer (sc : Scope) : List Nat :=
  Store.globals :: sc.lookup.tables

/-- The value that stands behind the environment of a unit for a name. -/
def outerValue (sc : Scope) (s : Store) (name : Bytes) : Value :=
  firstPresent (sc.outer.map fun p => s.rawGet p (.string name))

/-- The value of a name for a unit. -/
def value (sc : Scope) (s : Store) (name : Bytes) : Value :=
  firstPresent [s.rawGet sc.own (.string name), sc.outerValue s name]

/-- The store has the environment of a unit, with tables behind it that answer for themselves
alone. -/
structure InForce (sc : Scope) (s : Store) : Prop where
  known : sc.cell < s.cells.size
  cell : s.cell sc.cell = .table sc.own
  size : sc.own < s.tables.size
  apart : sc.own ∉ sc.behind :: sc.lookup.imports :: sc.outer
  metatable : (s.table sc.own).metatable = some sc.behind
  index : s.rawGet sc.behind (.text "__index") = .closure sc.lookup.function
  newindex : s.rawGet sc.behind (.text "__newindex") = .nil
  lookup : sc.lookup.InForce s
  count : sc.lookup.tables.length < 2 ^ 63
  bare : ∀ p ∈ sc.outer, (s.table p).metatable = none

/-- Nothing that the names of a unit go through differs between two stores. -/
structure Untouched (sc : Scope) (s s' : Store) : Prop where
  known : s.cells.size ≤ s'.cells.size
  cell : ∀ c ∈ [sc.cell, sc.lookup.globals, sc.lookup.list], s'.cell c = s.cell c
  size : s.tables.size ≤ s'.tables.size
  table : ∀ p ∈ sc.own :: sc.behind :: sc.lookup.imports :: sc.outer, s'.table p = s.table p
  function : s'.closure sc.lookup.function = s.closure sc.lookup.function

/-- The scope of a unit whose environment is made in a store and put into the next variable. -/
def ofUnit (s : Store) (imports : List Nat) : Scope :=
  ⟨s.cells.size + 3, s.tables.size + 1, s.tables.size + 2, s.lookup imports⟩

end Scope

variable {sc : Scope} {s s' : Store} {m : Machine} {env : Env} {d : Nat}

namespace Scope.InForce

theorem untouched (h : sc.InForce s) (hs : sc.Untouched s s') : sc.InForce s' where
  known := Nat.lt_of_lt_of_le h.known hs.known
  cell := (hs.cell _ (by simp)).trans h.cell
  size := Nat.lt_of_lt_of_le h.size hs.size
  apart := h.apart
  metatable := by rw [hs.table _ (by simp), h.metatable]
  index := by rw [Store.rawGet, hs.table _ (by simp), ← Store.rawGet, h.index]
  newindex := by rw [Store.rawGet, hs.table _ (by simp), ← Store.rawGet, h.newindex]
  lookup := {
    function := hs.function.trans h.lookup.function
    known := ⟨Nat.lt_of_lt_of_le h.lookup.known.1 hs.known,
      Nat.lt_of_lt_of_le h.lookup.known.2 hs.known⟩
    globals := (hs.cell _ (by simp)).trans h.lookup.globals
    list := (hs.cell _ (by simp)).trans h.lookup.list
    imports := (hs.table _ (by simp)).trans h.lookup.imports }
  count := h.count
  bare p hp := by rw [hs.table p (by simp [hp]), h.bare p hp]

/-- More variables change nothing that names go through. -/
theorem grown (h : sc.InForce s) (hs : s.Grown s') : sc.Untouched s s' where
  known := hs.size
  cell c hc := hs.cell c <| by
    simp only [List.mem_cons, List.not_mem_nil, or_false] at hc
    rcases hc with rfl | rfl | rfl
    · exact h.known
    · exact h.lookup.known.1
    · exact h.lookup.known.2
  size := Nat.le_of_eq (congrArg Array.size hs.tables.symm)
  table p _ := hs.table p
  function := hs.closure _

/-- What the unit assigns is only seen in its own environment. -/
theorem table_rawSet (h : sc.InForce s) (k : Key) (v : Value) {p : Nat}
    (hp : p ∈ sc.behind :: sc.lookup.imports :: sc.outer) :
    (s.rawSet sc.own k v).table p = s.table p :=
  Store.table_rawSet s k v fun heq => h.apart (heq ▸ hp)

theorem rawSet (h : sc.InForce s) (k : Key) (v : Value) : sc.InForce (s.rawSet sc.own k v) where
  known := h.known
  cell := h.cell
  size := Nat.lt_of_lt_of_eq h.size (s.size_rawSet _ k v).symm
  apart := h.apart
  metatable := by
    rw [Store.metatable_rawSet, h.metatable]
  index := by rw [Store.rawGet, h.table_rawSet k v (by simp), ← Store.rawGet, h.index]
  newindex := by rw [Store.rawGet, h.table_rawSet k v (by simp), ← Store.rawGet, h.newindex]
  lookup := {
    function := h.lookup.function
    known := h.lookup.known
    globals := h.lookup.globals
    list := h.lookup.list
    imports := (h.table_rawSet k v (by simp)).trans h.lookup.imports }
  count := h.count
  bare p hp := by rw [h.table_rawSet k v (by simp [hp]), h.bare p hp]

end Scope.InForce

/-! ## Reading a name -/

/-- What stands behind for a name goes by the tables that stand behind. -/
theorem Scope.outerValue_congr (h : ∀ p ∈ sc.outer, s'.table p = s.table p) :
    sc.outerValue s' = sc.outerValue s := by
  funext name
  rw [outerValue, outerValue]
  congr 1
  exact List.map_congr_left fun p hp => by rw [Store.rawGet, h p hp, Store.rawGet]

/-- The expression of a name that is no variable, in a function that is so many variables away from
the environment of its unit. -/
def nameExpr (d line : Nat) (name : Bytes) : Expr :=
  .index (envExpr d) (.string name) line

/-- The environment of a unit is found without a step. -/
theorem gives_environment {p : Nat} (henv : s.cell (env.place d) = .table p) :
    Gives m s (Operand.ofExpr env (envExpr d) (Expr.eval env (envExpr d))) 0
      (.value (.table p)) s := by
  rw [envExpr, Expr.eval, ← henv]
  exact fun k => Machine.Steps.refl _ _

/-- A name is read by finding it in the environment. -/
theorem gives_nameExpr {n p line : Nat} {name : Bytes} {v : Value}
    (henv : s.cell (env.place d) = .table p)
    (h : Gives m s (Run.index line (envExpr d).description (.table p) (.string name)) n v s') :
    Gives m s (Expr.eval env (nameExpr d line name)) n v s' := by
  rw [nameExpr, Expr.eval]
  refine Gives.bind_zero (gives_environment henv) ?_
  rw [Expr.eval]
  refine Gives.bind_zero (Gives.pure m s _) ?_
  exact Gives.bind_zero (Gives.pure m s _) h

/-- A name that is read has the value that the scope gives it. -/
theorem gives_readName (h : sc.InForce s) (hr : Room 1 m) (henv : env.place d = sc.cell)
    (line : Nat) (name : Bytes) :
    ∃ n s', Gives m s (Expr.eval env (nameExpr d line name)) n (sc.value s name) s' ∧
      s.Grown s' := by
  have hmethod : s.metamethod (.table sc.own) "__index" = .closure sc.lookup.function := by
    rw [Store.metamethod, Store.metatable, h.metatable]
    exact h.index
  obtain ⟨n, s', hfound, hs'⟩ := h.lookup.gives_value h.count h.bare name (.table sc.own)
  have hcall (site : Site) : Gives m s
      (Run.call (.closure sc.lookup.function) [.table sc.own, .string name] site) (n + 2)
      [sc.outerValue s name] s' := Gives.call rfl hr rfl fun _ => hfound _
  have hindex : ∃ n s', Gives m s
      (Run.index line (envExpr d).description (.table sc.own) (.string name)) n
      (sc.value s name) s' ∧ s.Grown s' := by
    cases hv : (s.rawGet sc.own (.string name)).isNil with
    | false =>
      rw [Scope.value, firstPresent_cons_present hv]
      exact ⟨0, s, gives_index rfl rfl hv, .refl s⟩
    | true =>
      have hvalue : sc.value s name = sc.outerValue s name := by
        rw [Scope.value, firstPresent, if_pos hv, firstPresent]
        split
        · next hnone => exact (Table.get_of_isNil hnone).symm
        · rfl
      refine ⟨n + 2, s', ?_, hs'⟩
      show Gives m s (Run.indexThrough line (1999 + 1) _ (.table sc.own) (.string name)) _ _ s'
      rw [Run.indexThrough, hvalue]
      refine Gives.store ?_
      simp only [Key.ofValue, hv, Bool.not_true, Bool.false_eq_true, ↓reduceIte, hmethod,
        Value.isFunction]
      exact (hcall _).map
  obtain ⟨n, s', hindex, hs'⟩ := hindex
  exact ⟨n, s', gives_nameExpr (henv ▸ h.cell) hindex, hs'⟩

/-! ## Assigning to a name -/

/-- Assigns a value to a name. -/
def assignName (env : Env) (d line : Nat) (name : Bytes) (v : Value) : Run Unit :=
  (Target.field (.place (env.place d)) (.value (.string name)) (envExpr d).description).assign line v

/-- A statement that assigns to a name finds the value of its expression and assigns that. -/
theorem exec_assignName (env : Env) (d line line' : Nat) (name : Bytes) (e : Expr) :
    Stmt.exec env (.assign [nameExpr d line' name] [e] line) = (do
      let vs ← Expr.evalList env [e]
      assignName env d line name (Value.first vs)
      return .next) := by
  rw [Stmt.exec]
  rfl

/-- A value that is assigned to a name goes to the environment of the unit. -/
theorem gives_assignName (h : sc.InForce s) (henv : env.place d = sc.cell) (line : Nat)
    (name : Bytes) (v : Value) :
    Gives m s (assignName env d line name v) 0 () (s.rawSet sc.own (.string name) v) := by
  have hmethod : s.metamethod (.table sc.own) "__newindex" = .nil := by
    rw [Store.metamethod, Store.metatable, h.metatable]
    exact h.newindex
  have hset : Gives m s
      (Run.setIndex line (envExpr d).description (.table sc.own) (.string name) v) 0 ()
      (s.rawSet sc.own (.string name) v) := by
    show Gives m s (Run.setIndexThrough line (1999 + 1) _ (.table sc.own) (.string name) v) 0 _ _
    rw [Run.setIndexThrough]
    refine Gives.store ?_
    simp only [hmethod, ite_self]
    exact Gives.modify m s _
  rw [assignName, Target.assign, henv]
  refine Gives.bind_zero (x := .table sc.own) ?_ (Gives.bind_zero (Gives.pure m s _) hset)
  rw [← h.cell]
  exact gives_read m s _

/-! ## Sequences of uses -/

/-- What a unit does with its names, and what else it does in between. -/
inductive Use (sc : Scope) where
  | read (name : Bytes) (line : Nat)
  | assign (name : Bytes) (v : Value) (line : Nat)
  | other (change : Store → Store) (untouched : ∀ s, sc.Untouched s (change s))

namespace Use

/-- Carries out uses of names, and gives the values that were read. -/
def perform (env : Env) (d : Nat) : List (Use sc) → Run (List Value)
  | [] => pure []
  | .read name line :: rest => do
    let v ← Expr.eval env (nameExpr d line name)
    let vs ← perform env d rest
    return v :: vs
  | .assign name v line :: rest => do
    assignName env d line name v
    perform env d rest
  | .other change _ :: rest => do
    Run.modify change
    perform env d rest

/-- The values that are read, where `own` is what the unit assigned to each name and `outer` what
stands behind. -/
def answers (outer : Bytes → Value) : (Bytes → Value) → List (Use sc) → List Value
  | _, [] => []
  | own, .read name _ :: rest => firstPresent [own name, outer name] :: answers outer own rest
  | own, .assign name v _ :: rest => answers outer (Function.update own name v) rest
  | own, .other .. :: rest => answers outer own rest

end Use

/-- Uses of names give what was assigned last or stands behind, and leave what stands behind as it
is. -/
theorem Scope.InForce.gives_perform (h : sc.InForce s) (hr : Room 1 m)
    (henv : env.place d = sc.cell) (uses : List (Use sc)) :
    ∃ n s', Gives m s (Use.perform env d uses) n
        (Use.answers (sc.outerValue s) (fun name => s.rawGet sc.own (.string name)) uses) s' ∧
      ∀ p ∈ sc.outer, s'.table p = s.table p := by
  induction uses generalizing s with
  | nil => exact ⟨0, s, Gives.pure m s _, fun _ _ => rfl⟩
  | cons use uses ih =>
    cases use with
    | read name line =>
      obtain ⟨n, s₁, hread, hs₁⟩ := gives_readName h hr henv line name
      have houter : sc.outerValue s₁ = sc.outerValue s :=
        Scope.outerValue_congr fun p _ => hs₁.table p
      obtain ⟨n', s', hrest, hkept⟩ := ih (h.untouched (h.grown hs₁))
      rw [houter, show (fun name => s₁.rawGet sc.own (.string name)) = _ from
        funext fun name => hs₁.rawGet sc.own (.string name)] at hrest
      exact ⟨_, s', hread.bind hrest.map, fun p hp => (hkept p hp).trans (hs₁.table p)⟩
    | assign name v line =>
      obtain ⟨n, s', hrest, hkept⟩ := ih (h.rawSet (.string name) v)
      have hbehind (p : Nat) (hp : p ∈ sc.outer) :
          (s.rawSet sc.own (.string name) v).table p = s.table p :=
        h.table_rawSet _ v (List.mem_cons_of_mem _ (List.mem_cons_of_mem _ hp))
      have hown : (fun other => (s.rawSet sc.own (.string name) v).rawGet sc.own (.string other)) =
          Function.update (fun other => s.rawGet sc.own (.string other)) name v := by
        funext other
        rw [Store.rawGet, Store.table_rawSet_self s _ _ h.size, Table.get_set, Function.update_apply]
        simp only [Key.string.injEq, eq_comm]
        rfl
      rw [outerValue_congr hbehind, hown] at hrest
      exact ⟨_, s', (gives_assignName h henv line name v).bind hrest,
        fun p hp => (hkept p hp).trans (hbehind p hp)⟩
    | other change huntouched =>
      have hs := huntouched s
      obtain ⟨n, s', hrest, hkept⟩ := ih (h.untouched hs)
      have hbehind (p : Nat) (hp : p ∈ sc.outer) : (change s).table p = s.table p :=
        hs.table p (by simp [hp])
      have hown : (fun name => (change s).rawGet sc.own (.string name)) =
          fun name => s.rawGet sc.own (.string name) := by
        funext name
        rw [Store.rawGet, hs.table _ (by simp), Store.rawGet]
      rw [outerValue_congr hbehind, hown] at hrest
      exact ⟨_, s', (Gives.modify m s change).bind hrest,
        fun p hp => (hkept p hp).trans (hbehind p hp)⟩

/-! ## Units -/

/-- The environment that is made for a unit, in the next variable, is in force. -/
theorem Scope.ofUnit_inForce {imports : List Nat} (hcount : imports.length < 2 ^ 63)
    (hplain : ∀ p ∈ Store.globals :: imports, p < s.tables.size ∧ (s.table p).metatable = none) :
    (Scope.ofUnit s imports).InForce
      ((s.surround imports).newCell (.table (s.tables.size + 1))).2 := by
  let own : Table := { Table.empty 0 0 with metatable := some (s.tables.size + 2) }
  have hcells : (s.surround imports).cells.size = s.cells.size + 3 :=
    s.cells_size_surroundWith imports own
  have hbehind (event : String) : (s.surround imports).rawGet (s.tables.size + 2) (.text event) =
      (((([("__index", Value.closure (s.closures.size + 1))].reverse.find?
        fun f => bytesOf f.1 = bytesOf event).map Prod.snd).getD .nil)) := by
    rw [Store.rawGet, Store.surround, s.table_surroundWith_behind imports own, Store.behindTable,
      get_withFields, Table.get_empty]
  refine ⟨?_, ?_, ?_, ?_, ?_, hbehind "__index", hbehind "__newindex",
    (s.lookup_inForce imports own).grown ((Store.Grown.refl _).newCell _), hcount, fun p hp => ?_⟩
  · show s.cells.size + 3 < _
    rw [Store.size_newCell]
    omega
  · show (Store.newCell _ _).2.cell (s.cells.size + 3) = _
    rw [← hcells]
    exact Store.cell_newCell_size ..
  · show s.tables.size + 1 < (s.surroundWith imports own).tables.size
    rw [s.size_surroundWith imports own]
    omega
  · -- The tables of the environment are new.
    intro hmem
    rcases List.mem_cons.mp hmem with heq | hmem
    · exact absurd heq (Nat.ne_of_lt (Nat.lt_succ_self _))
    rcases List.mem_cons.mp hmem with heq | hmem
    · exact absurd heq (Nat.succ_ne_self _)
    · have : s.tables.size + 1 < s.tables.size := (hplain _ hmem).1
      omega
  · exact congrArg Table.metatable (s.table_surroundWith_own imports own)
  · obtain ⟨hlt, hnone⟩ := hplain p hp
    exact (congrArg Table.metatable (s.table_surroundWith imports own hlt)).trans hnone

/-- As long as the global `setmetatable` is that of the library, a unit reads a name as it assigned
it last, unless that is nil; then as the global, and then as the first import that has it. What it
assigns changes neither the globals nor an import, and what comes later in the list of imports hides
nothing. -/
theorem names_scoped (t : Session) (imports : List Nat)
    (hmeta : t.store.rawGet Store.globals (.text "setmetatable") = .builtin .setmetatable)
    (hcount : imports.length < 2 ^ 63)
    (hplain : ∀ p ∈ Store.globals :: imports,
      p < t.store.tables.size ∧ (t.store.table p).metatable = none)
    (hr : Room 1 m) (henv : env.place d = t.store.cells.size + 3)
    (uses : List (Use (.ofUnit t.store imports))) :
    let outer (imports : List Nat) (name : Bytes) : Value :=
      firstPresent ((Store.globals :: imports).map fun p => t.store.rawGet p (.string name))
    (∃ own t', t.unitEnvironment imports = .ok (own, t') ∧
      t'.store.cells.size = t.store.cells.size + 3 ∧
      ∃ n s', Gives m (t'.store.newCell (.table own)).2 (Use.perform env d uses) n
          (Use.answers (outer imports) (fun _ => .nil) uses) s' ∧
        ∀ p ∈ Store.globals :: imports, s'.table p = t.store.table p) ∧
    ∀ name later, (outer imports name).isNil = false →
      outer (imports ++ later) name = outer imports name := by
  intro outer
  let sc := Scope.ofUnit t.store imports
  let s := ((t.store.surround imports).newCell (.table (t.store.tables.size + 1))).2
  have hforce : sc.InForce s := Scope.ofUnit_inForce hcount hplain
  have hbefore (p : Nat) (hp : p ∈ Store.globals :: imports) : s.table p = t.store.table p :=
    t.store.table_surroundWith imports _ (hplain p hp).1
  have houter : sc.outerValue s = outer imports := Scope.outerValue_congr hbefore
  have hown : (fun name : Bytes => s.rawGet sc.own (.string name)) = fun _ => .nil := by
    funext name
    rw [Store.rawGet, show s.table sc.own = _ from t.store.table_surroundWith_own imports _]
    exact Table.get_empty 0 0 _
  obtain ⟨n, s', hgives, hkept⟩ := hforce.gives_perform hr henv uses
  rw [houter, hown] at hgives
  refine ⟨⟨_, _, Session.unitEnvironment_eq hmeta imports, t.store.cells_size_surroundWith imports _,
    n, s', hgives, fun p hp => (hkept p hp).trans (hbefore p hp)⟩, fun name later hv => ?_⟩
  have hlater : outer (imports ++ later) name =
      firstPresent ((Store.globals :: imports).map (fun p => t.store.rawGet p (.string name)) ++
        later.map fun p => t.store.rawGet p (.string name)) := by
    rw [← List.map_append, List.cons_append]
  rw [hlater, firstPresent_append hv]

/-- A session in which globals and two other tables have names in common, and a function of the
library is the global `setmetatable`. -/
def overlapping (b : Builtin) : Session where
  store := { (default : Store) with
    tables := #[withFields (Table.empty 0 0)
        [("g", .int 1), ("setmetatable", .builtin b)],
      withFields (Table.empty 0 0) [("g", .int 2), ("b", .bool false)],
      withFields (Table.empty 0 0) [("b", .int 3), ("c", .int 4)]] }
  coroutines := #[.active]

theorem rawGet_overlapping (b : Builtin) (name : String) :
    (overlapping b).store.rawGet Store.globals (.text name) =
      ((([("setmetatable", Value.builtin b), ("g", .int 1)].find? fun f =>
        bytesOf f.1 = bytesOf name).map Prod.snd).getD .nil) := by
  show (withFields _ _).get (.text name) = _
  rw [get_withFields, Table.get_empty]
  rfl

theorem overlapping_plain (b : Builtin) : ∀ p ∈ [Store.globals, 1, 2],
    p < (overlapping b).store.tables.size ∧ ((overlapping b).store.table p).metatable = none := by
  have hsize : (overlapping b).store.tables.size = 3 := rfl
  intro p hp
  simp only [Store.globals, List.mem_cons, List.not_mem_nil, or_false] at hp
  rcases hp with rfl | rfl | rfl
  all_goals exact ⟨by omega, metatable_withFields _ _⟩

/-- A global is read, hidden by an assignment and seen again; an import that has false for a name
hides it in a later one. -/
theorem names_scoped_overlap :
    let g := bytesOf "g"
    let t := overlapping .setmetatable
    let uses : List (Use (.ofUnit t.store [1, 2])) :=
      [.read g 1, .assign g (.int 5) 2, .read g 3, .assign g .nil 4, .read g 5,
        .read (bytesOf "b") 6, .read (bytesOf "c") 7, .read (bytesOf "d") 8]
    ∃ own t' n s', t.unitEnvironment [1, 2] = .ok (own, t') ∧
      Gives ⟨0, .base false 3, [], [], #[]⟩ (t'.store.newCell (.table own)).2
        (Use.perform ⟨[3], [], false⟩ 0 uses) n
        [.int 1, .int 5, .int 1, .bool false, .int 4, .nil] s' ∧
      ∀ p ∈ [0, 1, 2], s'.table p = t.store.table p := by
  intro g t uses
  have henv : Env.place ⟨[3], [], false⟩ 0 = t.store.cells.size + 3 := rfl
  obtain ⟨⟨own, t', hmade, -, n, s', hgives, hkept⟩, -⟩ := names_scoped t [1, 2]
    (rawGet_overlapping .setmetatable "setmetatable") (by decide) (overlapping_plain .setmetatable)
    ((Machine.room_base 0 false #[]).mono (by decide)) henv uses
  have hread (name : String) : (fun name : Bytes =>
      firstPresent ([Store.globals, 1, 2].map fun p => t.store.rawGet p (.string name)))
        (bytesOf name) =
      firstPresent
        [((([("setmetatable", Value.builtin .setmetatable), ("g", .int 1)].find? fun f =>
          bytesOf f.1 = bytesOf name).map Prod.snd).getD .nil),
        ((([("b", Value.bool false), ("g", .int 2)].find? fun f =>
          bytesOf f.1 = bytesOf name).map Prod.snd).getD .nil),
        ((([("c", Value.int 4), ("b", .int 3)].find? fun f =>
          bytesOf f.1 = bytesOf name).map Prod.snd).getD .nil)] := by
    show firstPresent [t.store.rawGet Store.globals (.text name), (withFields _ _).get (.text name),
      (withFields _ _).get (.text name)] = _
    rw [rawGet_overlapping, get_withFields, get_withFields, Table.get_empty]
    rfl
  have hanswers : Use.answers (fun name : Bytes =>
      firstPresent ([Store.globals, 1, 2].map fun p => t.store.rawGet p (.string name)))
      (fun _ => .nil) uses = [.int 1, .int 5, .int 1, .bool false, .int 4, .nil] := by
    simp only [uses, Use.answers, g, hread]
    rfl
  exact ⟨own, t', n, s', hmade, hanswers ▸ hgives, hkept⟩

/-- If the global `setmetatable` only gives its arguments back, nothing stands behind the environment
of a unit: neither a global nor an import is seen. -/
theorem names_unscoped :
    let t := overlapping .assert
    let m : Machine := ⟨0, .base false 3, [], [], #[]⟩
    (∀ p ∈ [Store.globals, 1, 2],
      p < t.store.tables.size ∧ (t.store.table p).metatable = none) ∧
    t.store.rawGet Store.globals (.text "g") = .int 1 ∧
    t.store.rawGet 2 (.text "c") = .int 4 ∧
    ∃ own t', t.unitEnvironment [1, 2] = .ok (own, t') ∧
      ∀ name ∈ ["g", "c"], Gives m (t'.store.newCell (.table own)).2
        (Expr.eval ⟨[3], [], false⟩ (nameExpr 0 1 (bytesOf name))) 0 .nil
        (t'.store.newCell (.table own)).2 := by
  intro t m
  have hmade := Session.unitEnvironment_builtin (n := 0) (rawGet_overlapping .assert "setmetatable")
    [1, 2] (fun m _ => Gives.pure m _ _) (by decide)
  have hown := t.store.table_surroundWith_own [1, 2] (Table.empty 0 0)
  have hc : t.store.rawGet 2 (.text "c") = .int 4 := by
    show (withFields _ _).get (.text "c") = _
    rw [get_withFields]
    rfl
  refine ⟨overlapping_plain .assert, rawGet_overlapping .assert "g", hc, _, _, hmade,
    fun name _ => ?_⟩
  have hcell : ((t.store.surroundWith [1, 2] (Table.empty 0 0)).newCell
      (.table (t.store.tables.size + 1))).2.cell 3 = .table (t.store.tables.size + 1) :=
    t.store.cells_size_surroundWith [1, 2] (Table.empty 0 0) ▸ Store.cell_newCell_size _ _
  have hnone : (t.store.surroundWith [1, 2] (Table.empty 0 0)).rawGet (t.store.tables.size + 1)
      (.text name) = .nil := by
    rw [Store.rawGet, hown]
    exact Table.get_empty 0 0 _
  refine gives_nameExpr hcell ?_
  rw [← hnone]
  exact gives_index_bare (k := .text name) rfl (congrArg Table.metatable hown)

end Stencil.Lua
