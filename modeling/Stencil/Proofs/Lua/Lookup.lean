import Stencil.Proofs.Lua.Places

/-!
# Looking names up

Behind the environment of a unit stands a function that looks a name up among the globals, and then
in the imported tables, one after another.

* `lookupProto`: the function;
* `Lookup`, `Lookup.InForce`: what it goes through in a store;
* `Lookup.InForce.gives_value`: what it finds;
* `Lookup.InForce.gives_global`: a global that is there is found at once.
-/

namespace Stencil.Lua

open Machine (Gives Steps)

/-! ## The function -/

/-- How messages name the program. -/
def environmentChunk : Bytes :=
  Chunk.shownName (bytesOf "=t4 environment")

/-- Gives the value of the variable `value` back, if there is one. -/
def giveValue (distance line : Nat) : Stmt :=
  .branch (.binary .ne (.variable distance (bytesOf "value") false) .nil line)
    [.giveBack [.variable distance (bytesOf "value") false] (line + 1)] []

/-- The name that is looked up, in one of the imported tables. -/
def importedValue : Expr :=
  .index (.index (.variable 5 (bytesOf "imports") true) (.variable 0 (bytesOf "i") false) 10)
    (.variable 2 (bytesOf "key") false) 10

/-- A round of the loop through the imported tables. -/
def importRound : List Stmt :=
  [.assign [.variable 1 (bytesOf "value") false] [importedValue] 10, giveValue 1 11]

/-- The loop through the imported tables. -/
def importLoop : Stmt :=
  .loopCount (.number (.int 1)) (.unary .length (.variable 4 (bytesOf "imports") true) 9)
    (.number (.int 1)) importRound 9

/-- What the function does once it has looked among the globals. -/
def lookupRest : List Stmt :=
  [giveValue 0 6, importLoop, .giveBack [.nil] 15]

/-- The function that looks names up. -/
def lookupProto : Proto :=
  .mk 2 false
    (.declare [(bytesOf "value", .regular)]
      [.index (.variable 2 (bytesOf "globals") true) (.variable 0 (bytesOf "key") false) 5] 5 ::
        lookupRest) environmentChunk 4

/-! ## Looking a name up -/

/-- The first value that is not nil; nil if there is none. -/
def firstPresent : List Value → Value
  | [] => .nil
  | v :: vs => if v.isNil then firstPresent vs else v

theorem firstPresent_cons_present {v : Value} (h : v.isNil = false) (vs : List Value) :
    firstPresent (v :: vs) = v := by
  rw [firstPresent, h]
  rfl

/-- What follows a value that is present is never looked at. -/
theorem firstPresent_append {vs : List Value} (h : (firstPresent vs).isNil = false)
    (ws : List Value) : firstPresent (vs ++ ws) = firstPresent vs := by
  induction vs with
  | nil => cases h
  | cons v vs ih =>
    rw [List.cons_append, firstPresent, firstPresent]
    rw [firstPresent] at h
    split at h
    · next hv => rw [if_pos hv, if_pos hv, ih h]
    · next hv => rw [if_neg hv, if_neg hv]

/-- What a function goes through that looks names up: its variables with the globals, the list of
imported tables and its environment, the list, and the imported tables. -/
structure Lookup where
  function : Nat
  globals : Nat
  list : Nat
  outer : Nat
  imports : Nat
  tables : List Nat

/-- The function of a store looks names up. -/
structure Lookup.InForce (l : Lookup) (s : Store) : Prop where
  function : s.closure l.function = ⟨lookupProto, [l.globals, l.list, l.outer]⟩
  known : l.globals < s.cells.size ∧ l.list < s.cells.size
  globals : s.cell l.globals = .table Store.globals
  list : s.cell l.list = .table l.imports
  imports : s.table l.imports = Table.ofList (l.tables.map .table) 0

variable {l : Lookup} {m : Machine} {s s' : Store} {env : Env} {name : Bytes} {v : Value}

theorem Lookup.InForce.grown (h : l.InForce s) (hs : s.Grown s') : l.InForce s' where
  function := (hs.closure _).trans h.function
  known := ⟨Nat.lt_of_lt_of_le h.known.1 hs.size, Nat.lt_of_lt_of_le h.known.2 hs.size⟩
  globals := (hs.cell _ h.known.1).trans h.globals
  list := (hs.cell _ h.known.2).trans h.list
  imports := (hs.table _).trans h.imports

/-- The function is there as long as what it does is no default. -/
theorem Lookup.InForce.size (h : l.InForce s) : l.function < s.closures.size := by
  refine Nat.lt_of_not_le fun hle => ?_
  have hnone : s.closure l.function = default := by
    rw [Store.closure, Array.getD_eq_getD_getElem?, Array.getElem?_eq_none hle]
    rfl
  have hproto := congrArg (fun c => c.proto.params) (hnone.symm.trans h.function)
  cases hproto

theorem Lookup.InForce.newClosure (h : l.InForce s) (c : Closure) :
    l.InForce (s.newClosure c).2 where
  function := (Store.closure_newClosure s c h.size).trans h.function
  known := h.known
  globals := h.globals
  list := h.list
  imports := h.imports

theorem gives_variable (m : Machine) (s : Store) (env : Env) (d : Nat) (name : Bytes)
    (outer : Bool) :
    Gives m s (Expr.eval env (.variable d name outer)) 0 (s.cell (env.place d)) s := fun k => by
  rw [Expr.eval]
  exact Steps.refl _ _

theorem gives_read (m : Machine) (s : Store) (c : Nat) :
    Gives m s (Operand.place c).read 0 (s.cell c) s :=
  fun _ => Steps.refl _ _

theorem gives_notNil (m : Machine) (s : Store) (line : Nat) (v : Value) (da db : Description) :
    Gives m s (Run.binary line .ne v .nil da db) 0 (.bool !v.isNil) s := by
  cases v <;> exact fun _ => Steps.refl _ _

/-- A value that is present is given back, and another one is passed over. -/
theorem gives_giveValue {d line : Nat} (hv : s.cell (env.place d) = v) :
    Gives m s (Stmt.exec env (giveValue d line)) 0 (if v.isNil then .next else .ret [v]) s := by
  have hcondition : Gives m s (Expr.eval env
      (.binary .ne (.variable d (bytesOf "value") false) .nil line)) 0 (.bool !v.isNil) s := by
    rw [Expr.eval]
    refine Gives.bind_zero (x := .place (env.place d)) (Gives.pure m s _) ?_
    rw [Expr.eval]
    refine Gives.bind_zero (Gives.pure m s _) ?_
    exact Gives.bind_zero (hv ▸ gives_read m s _) (gives_notNil m s line v _ _)
  have hvalues : Gives m s
      (Expr.evalList env [.variable d (bytesOf "value") false]) 0 [v] s := by
    rw [Expr.evalList, Expr.evalList]
    · exact Gives.bind_zero (hv ▸ gives_variable m s env d _ _) (Gives.pure _ _ _)
    all_goals simp
  rw [giveValue, Stmt.exec]
  refine Gives.bind_zero hcondition ?_
  cases hnil : v.isNil with
  | true => exact Gives.pure m s _
  | false =>
    show Gives m s (execBlock env none passOn [.giveBack _ (line + 1)]) 0 (.ret [v]) s
    rw [execBlock, Stmt.exec]
    · exact Gives.bind_zero hvalues.map (Gives.pure _ _ _)
    all_goals simp

/-- A loop that counts from 1 on goes through its rounds, as long as none of them ends the function;
`inv` holds before each. -/
theorem gives_count {round : Value → Run Signal} {count : Nat} {post : Signal → Store → Prop}
    (inv : Nat → Store → Prop) (hcount : count < 2 ^ 63)
    (hround : ∀ i < count, ∀ s, inv i s → ∃ n how s',
      (∀ m, Gives m s (round (.int (Int64.ofNat (i + 1)))) n how s') ∧
        (how = .next ∧ inv (i + 1) s' ∨ (∃ vs, how = .ret vs) ∧ post how s'))
    (hlast : ∀ s, inv count s → post .next s) (hs : inv 0 s) :
    ∃ n how s', (∀ m, Gives m s (Count.run round (.ints 1 1 count)) n how s') ∧ post how s' := by
  obtain ⟨body, hrun, hbody⟩ : ∃ body : List Value → Run Signal,
      Count.run round (.ints 1 1 count) = Run.loop [.int 0] body ∧ ∀ i : Int64, body [.int i] = do
        if i.toInt < count then return (← round (.int (1 + i * 1))).round [.int (i + 1)]
        else return .next := ⟨_, rfl, fun _ => rfl⟩
  -- From any round on, by induction on the rounds that are left.
  have hrest : ∀ left i, i + left = count → ∀ s, inv i s → ∃ n how s',
      (∀ (m : Machine) k, Steps n (m.looping body k) (body [.int (Int64.ofNat i)] s Action.finish) m
        (k how s')) ∧ post how s' := by
    intro left
    induction left with
    | zero =>
      intro i hi s hs
      have hend : (Int64.ofNat i).toInt = count := by
        rw [Int64.toInt_ofNat_of_lt (by omega), ← hi, Nat.add_zero]
      refine ⟨_, .next, s, fun m k => Gives.leave (n := 0) ?_ (by simp), hlast s (by rwa [← hi])⟩
      rw [hbody, hend, if_neg (Int.lt_irrefl _)]
      exact Gives.pure _ s _
    | succ left ih =>
      intro i hi s hs
      have hgoes : (Int64.ofNat i).toInt < count := by
        rw [Int64.toInt_ofNat_of_lt (by omega)]
        omega
      have hnumber : 1 + Int64.ofNat i * 1 = Int64.ofNat (i + 1) := by
        rw [Int64.mul_one, Int64.add_comm]
        exact (Int64.ofNat_add i 1).symm
      have hnext : Int64.ofNat i + 1 = Int64.ofNat (i + 1) := (Int64.ofNat_add i 1).symm
      obtain ⟨n, how, s', hgives, hhow⟩ := hround i (by omega) s hs
      have hgiven (m : Machine) : Gives m s (body [.int (Int64.ofNat i)]) n
          (how.round [.int (Int64.ofNat (i + 1))]) s' := by
        rw [hbody, if_pos hgoes, hnumber, hnext]
        exact (hgives m).map
      rcases hhow with ⟨rfl, hs'⟩ | ⟨⟨vs, rfl⟩, hpost⟩
      · obtain ⟨n', how', s'', hsteps, hpost⟩ := ih (i + 1) (by omega) s' hs'
        exact ⟨_, how', s'', fun m k => (Gives.again (hgiven _)).trans (hsteps m k), hpost⟩
      · exact ⟨_, .ret vs, s', fun m k => Gives.leave (hgiven _) (by simp), hpost⟩
  obtain ⟨n, how, s', hsteps, hpost⟩ := hrest count 0 (Nat.zero_add _) s hs
  refine ⟨1 + n, how, s', fun m k => ?_, hpost⟩
  rw [hrun]
  exact Machine.steps_loop.trans (hsteps m k)

theorem countInts_one {n : Nat} (hn : n < 2 ^ 63) : countInts 1 1 (Int64.ofNat n) = n := by
  have hto : (Int64.ofNat n).toInt = n := Int64.toInt_ofNat_of_lt hn
  have hone : (1 : Int64).toInt = 1 := rfl
  rw [countInts, if_pos (by decide), hto, hone]
  simp only [Int64.lt_iff_toInt_lt, hto, hone]
  split <;> omega

/-- The loop through the imported tables counts up to the length of their list. -/
theorem gives_prepareCount {line n : Nat} (hn : n < 2 ^ 63) :
    Gives m s (prepareCount line (.int 1) (.int (Int64.ofNat n)) (.int 1)) 0 (.ints 1 1 n) s := by
  have hcount : ((lastInt 1 (.int (Int64.ofNat n))).map (countInts 1 1)).getD 0 = n := countInts_one hn
  have hnumber : Gives m s (loopNumber line "limit" (.int (Int64.ofNat n))) 0
      (.int (Int64.ofNat n)) s := Gives.pure m s _
  have hstep : ¬ ((1 : Int64) == 0) = true := by decide
  rw [prepareCount, if_neg hstep]
  simpa only [hcount] using
    hnumber.map (g := fun n => Count.ints 1 1 (((lastInt 1 n).map (countInts 1 1)).getD 0))

/-- While a name is looked up, with the variables of the function after those of the store `s₀`. -/
structure Lookup.Looking (l : Lookup) (s₀ : Store) (name : Bytes) (s : Store) : Prop where
  force : l.InForce s₀
  grown : s₀.Grown s
  size : s₀.cells.size + 2 < s.cells.size
  key : s.cell (s₀.cells.size + 1) = .string name

/-- What the function sees once its variable `value` is there. -/
def Lookup.view (l : Lookup) (s₀ : Store) : Env :=
  ⟨[s₀.cells.size + 2, s₀.cells.size + 1, s₀.cells.size, l.globals, l.list, l.outer], [], false⟩

namespace Lookup.Looking

variable {s₀ : Store}

theorem list (h : l.Looking s₀ name s) : s.cell l.list = .table l.imports :=
  (h.grown.cell _ h.force.known.2).trans h.force.list

theorem newCell (h : l.Looking s₀ name s) (v : Value) : l.Looking s₀ name (s.newCell v).2 where
  force := h.force
  grown := h.grown.newCell v
  size := by
    have := h.size
    rw [Store.size_newCell]
    omega
  key := by
    have := h.size
    rw [Store.cell_newCell s v (by omega), h.key]

/-- The function may set the variable `value`. -/
theorem setValue (h : l.Looking s₀ name s) (v : Value) :
    l.Looking s₀ name (s.setCell (s₀.cells.size + 2) v) where
  force := h.force
  grown := h.grown.setCell v (by omega)
  size := by
    show _ < (s.cells.setIfInBounds _ v).size
    rw [Array.size_setIfInBounds]
    exact h.size
  key := by rw [Store.cell_setCell s v (by omega), h.key]

/-- A round of the loop looks in one imported table. -/
theorem gives_importRound (h : l.Looking s₀ name s) (hsize : l.tables.length < 2 ^ 63) {i : Nat}
    (hi : i < l.tables.length) (hbare : (s₀.table l.tables[i]).metatable = none)
    (hv : s₀.rawGet l.tables[i] (.string name) = v) :
    ∃ s', (∀ m, Gives m s (do
        let c ← Run.newCell (.int (Int64.ofNat (i + 1)))
        execBlock ((l.view s₀).push c) none passOn importRound) 0
          (if v.isNil then .next else .ret [v]) s') ∧ l.Looking s₀ name s' := by
  let s₁ := (s.newCell (.int (Int64.ofNat (i + 1)))).2
  let env := (l.view s₀).push s.cells.size
  have h₁ : l.Looking s₀ name s₁ := h.newCell _
  have hitem : s₁.rawGet l.imports (.int (Int64.ofNat (i + 1))) = .table l.tables[i] := by
    rw [h₁.grown.rawGet, Store.rawGet, h.force.imports]
    have hcount : (l.tables.map Value.table).length < 2 ^ 63 := by rwa [List.length_map]
    have hget := Table.getAt_ofList hcount 0 (i := i) (by rwa [List.length_map])
    rwa [List.getElem_map] at hget
  have hlist (m : Machine) : Gives m s₁ (Operand.ofExpr env (.variable 5 (bytesOf "imports") true)
      (Expr.eval env (.variable 5 (bytesOf "imports") true))) 0 (.value (.table l.imports)) s₁ := by
    rw [← h₁.list]
    exact (gives_variable m s₁ env 5 _ true).map
  have hindex (m : Machine) : Gives m s₁ (Expr.eval env (.variable 0 (bytesOf "i") false)) 0
      (.int (Int64.ofNat (i + 1))) s₁ := by
    have := gives_variable m s₁ env 0 (bytesOf "i") false
    rwa [show s₁.cell (env.place 0) = _ from Store.cell_newCell_size s _] at this
  have htable (m : Machine) : Gives m s₁ (Expr.eval env (.index (.variable 5 (bytesOf "imports") true)
      (.variable 0 (bytesOf "i") false) 10)) 0 (.table l.tables[i]) s₁ := by
    rw [Expr.eval]
    refine Gives.bind_zero (hlist m) (Gives.bind_zero (hindex m) ?_)
    exact Gives.bind_zero (Gives.pure m s₁ _) (gives_index rfl hitem rfl)
  have hkey (m : Machine) : Gives m s₁ (Expr.eval env (.variable 2 (bytesOf "key") false)) 0
      (.string name) s₁ := by
    rw [← h₁.key]
    exact gives_variable m s₁ env 2 _ _
  have hobject (m : Machine) : Gives m s₁ (Operand.ofExpr env
      (.index (.variable 5 (bytesOf "imports") true) (.variable 0 (bytesOf "i") false) 10)
      (Expr.eval env (.index (.variable 5 (bytesOf "imports") true)
        (.variable 0 (bytesOf "i") false) 10))) 0 (.value (.table l.tables[i])) s₁ := (htable m).map
  have hvalue (m : Machine) : Gives m s₁ (Expr.eval env importedValue) 0 v s₁ := by
    rw [importedValue, Expr.eval]
    refine Gives.bind_zero (hobject m) ?_
    refine Gives.bind_zero (hkey m) (Gives.bind_zero (Gives.pure m s₁ _) ?_)
    rw [← hv, ← h₁.grown.rawGet]
    exact gives_index_bare rfl (by rw [h₁.grown.table, hbare])
  have hassign (m : Machine) : Gives m s₁ (Stmt.exec env
      (.assign [.variable 1 (bytesOf "value") false] [importedValue] 10)) 0 .next
      (s₁.setCell (s₀.cells.size + 2) v) := by
    have hvalues : Gives m s₁ (Expr.evalList env [importedValue]) 0 [v] s₁ := by
      rw [importedValue, Expr.evalList, ← importedValue, Expr.evalList]
      · exact Gives.bind_zero (hvalue m) (Gives.pure _ _ _)
      all_goals simp
    rw [Stmt.exec]
    exact Gives.bind_zero (x := [.cell (s₀.cells.size + 2)]) (Gives.pure m s₁ _)
      (Gives.bind_zero hvalues (fun _ => Steps.refl _ _))
  have h₂ := h₁.setValue v
  have hset : (s₁.setCell (s₀.cells.size + 2) v).cell (env.place 1) = v :=
    Store.cell_setCell_self s₁ v h₁.size
  refine ⟨_, fun m => ?_, h₂⟩
  refine Gives.bind_zero (x := s.cells.size) (fun k => Steps.refl _ _) ?_
  show Gives m s₁ (execBlock env none passOn importRound) 0 _ _
  rw [importRound, execBlock]
  · refine Gives.bind_zero (hassign m) ?_
    dsimp only
    rw [giveValue, execBlock, ← giveValue]
    · refine Gives.bind_zero (gives_giveValue hset) ?_
      cases v.isNil <;> exact Gives.pure m _ _
    all_goals simp
  all_goals simp

end Lookup.Looking

/-- How the loop ends that looks for a value among others. -/
def found (v : Value) : Signal :=
  if v.isNil then .next else .ret [v]

namespace Lookup

/-- The loop finds the first value that is present in an imported table. -/
theorem Looking.gives_importLoop {s₀ : Store} (h : l.Looking s₀ name s)
    (hsize : l.tables.length < 2 ^ 63) (hbare : ∀ p ∈ l.tables, (s₀.table p).metatable = none) :
    ∃ n s', (∀ m, Gives m s (Stmt.exec (l.view s₀) importLoop) n
        (found (firstPresent (l.tables.map fun p => s₀.rawGet p (.string name)))) s') ∧
      l.Looking s₀ name s' := by
  let values := l.tables.map fun p => s₀.rawGet p (.string name)
  let round (v : Value) : Run Signal := do
    let c ← Run.newCell v
    execBlock ((l.view s₀).push c) none passOn importRound
  have hlength (m : Machine) : Gives m s (Expr.eval (l.view s₀)
      (.unary .length (.variable 4 (bytesOf "imports") true) 9)) 0
      (.int (Int64.ofNat l.tables.length)) s := by
    have htable : s.table l.imports = Table.ofList (l.tables.map .table) 0 :=
      (h.grown.table _).trans h.force.imports
    have hmethod : s.metamethod (.table l.imports) "__len" = .nil := by
      rw [Store.metamethod, Store.metatable, htable, Table.metatable_ofList]
    have hborder : (s.table l.imports).border = l.tables.length := by
      rw [htable, Table.border_ofList (by simpa using hsize) (by simp [Value.isNil]), List.length_map]
    rw [Expr.eval]
    refine Gives.bind_zero (h.list ▸ gives_variable m s (l.view s₀) 4 _ true) ?_
    rw [Run.unary, Run.length, ← hborder]
    · refine Gives.store ?_
      simp only [hmethod]
      exact Gives.pure m s _
    · intro _ htext
      cases htext
  have hloop : ∃ n how s', (∀ m, Gives m s (Count.run round (.ints 1 1 l.tables.length)) n how s') ∧
      how = found (firstPresent values) ∧ l.Looking s₀ name s' := by
    -- Nothing was found in the tables of the rounds before.
    refine gives_count
      (fun i s => l.Looking s₀ name s ∧ firstPresent values = firstPresent (values.drop i))
      hsize ?_ ?_ ⟨h, rfl⟩
    · rintro i hi s ⟨hs, hnone⟩
      obtain ⟨s', hgives, hs'⟩ := hs.gives_importRound hsize hi (hbare _ (List.getElem_mem hi)) rfl
      refine ⟨0, _, s', hgives, ?_⟩
      have hdrop : values.drop i = s₀.rawGet l.tables[i] (.string name) :: values.drop (i + 1) := by
        rw [List.drop_eq_getElem_cons (by simpa [values] using hi), List.getElem_map]
      rw [hdrop, firstPresent] at hnone
      cases hv : (s₀.rawGet l.tables[i] (.string name)).isNil with
      | true => exact .inl ⟨rfl, hs', hnone.trans (if_pos hv)⟩
      | false =>
        rw [hv, if_neg Bool.false_ne_true] at hnone
        rw [hnone, found, hv]
        exact .inr ⟨⟨_, rfl⟩, rfl, hs'⟩
    · rintro s ⟨hs, hnone⟩
      refine ⟨?_, hs⟩
      rw [hnone, List.drop_of_length_le (by simp [values])]
      rfl
  obtain ⟨n, how, s', hgives, rfl, hs'⟩ := hloop
  refine ⟨n, s', fun m => ?_, hs'⟩
  rw [importLoop, Stmt.exec, Expr.eval]
  refine Gives.bind_zero (Gives.pure m s _) (Gives.bind_zero (hlength m) ?_)
  refine Gives.bind_zero (Gives.pure m s _) ?_
  exact Gives.bind_zero (gives_prepareCount hsize) (hgives m)

/-- The function looks among the globals first. -/
theorem InForce.gives_lookup (h : l.InForce s)
    (hindex : ∀ m s₁, s.Grown s₁ → Gives m s₁
      (Run.index 5 (some ("upvalue", bytesOf "globals")) (.table Store.globals) (.string name)) 0 v s₁)
    (object : Value) :
    ∃ s₁, l.Looking s name s₁ ∧ s₁.cell (s.cells.size + 2) = v ∧ ∀ m n vs s',
      Gives m s₁ (execBlock (l.view s) none passOn lookupRest) n (.ret vs) s' →
      Gives m s (Closure.apply (s.closure l.function) [object, .string name]) n vs s' := by
  let s₂ := ((s.newCell object).2.newCell (.string name)).2
  let env : Env := ⟨[s.cells.size + 1, s.cells.size, l.globals, l.list, l.outer], [], false⟩
  have hs₂ : s.Grown s₂ := ((Store.Grown.refl s).newCell _).newCell _
  have hsize₁ : (s.newCell object).2.cells.size = s.cells.size + 1 := Store.size_newCell ..
  have hsize₂ : s₂.cells.size = s.cells.size + 2 := (Store.size_newCell ..).trans (by rw [hsize₁])
  have hkey : s₂.cell (s.cells.size + 1) = .string name := hsize₁ ▸ Store.cell_newCell_size _ _
  have hlooking : l.Looking s name (s₂.newCell v).2 := by
    refine ⟨h, hs₂.newCell _, ?_, ?_⟩
    · rw [Store.size_newCell]
      omega
    · rw [Store.cell_newCell s₂ v (by omega), hkey]
  refine ⟨_, hlooking, hsize₂ ▸ Store.cell_newCell_size s₂ v, fun m n vs s' hgives => ?_⟩
  have hglobals : Gives m s₂ (Operand.ofExpr env (.variable 2 (bytesOf "globals") true)
      (Expr.eval env (.variable 2 (bytesOf "globals") true))) 0 (.value (.table Store.globals)) s₂ := by
    rw [← h.globals, ← hs₂.cell _ h.known.1]
    exact (gives_variable m s₂ env 2 _ true).map
  have hvalues : Gives m s₂ (Expr.evalList env
      [.index (.variable 2 (bytesOf "globals") true) (.variable 0 (bytesOf "key") false) 5]) 0 [v]
      s₂ := by
    rw [Expr.evalList, Expr.evalList]
    · refine Gives.bind_zero ?_ (Gives.pure _ _ _)
      rw [Expr.eval]
      refine Gives.bind_zero hglobals ?_
      refine Gives.bind_zero (hkey ▸ gives_variable m s₂ env 0 _ _) ?_
      exact Gives.bind_zero (Gives.pure m s₂ _) (hindex m s₂ hs₂)
    all_goals simp
  have hparameters : Gives m s (newCells [object, .string name]) 0
      [s.cells.size, s.cells.size + 1] s₂ := fun _ => hsize₁ ▸ Steps.refl _ _
  have hvariable : Gives m s₂ (newCells [v]) 0 [s.cells.size + 2] (s₂.newCell v).2 :=
    fun _ => hsize₂ ▸ Steps.refl _ _
  rw [h.function, Closure.apply]
  refine Gives.bind_zero hparameters (Gives.bind (j := 0) (x := .ret vs) ?_ (Gives.pure m s' vs))
  show Gives m s₂ (execBlock env none passOn (.declare _ _ 5 :: lookupRest)) n (.ret vs) s'
  rw [execBlock]
  exact Gives.bind_zero hvalues (Gives.bind_zero hvariable hgives)

/-- What the function does with a global. -/
theorem gives_lookupRest {n : Nat} {vs : List Value} (hv : s.cell (env.place 0) = v)
    (hrest : v.isNil = true →
      Gives m s (execBlock env none passOn [importLoop, .giveBack [.nil] 15]) n (.ret vs) s')
    (hpresent : v.isNil = false → n = 0 ∧ vs = [v] ∧ s' = s) :
    Gives m s (execBlock env none passOn lookupRest) n (.ret vs) s' := by
  rw [lookupRest, giveValue, execBlock, ← giveValue]
  · refine Gives.bind_zero (gives_giveValue hv) ?_
    cases hnil : v.isNil with
    | true => exact hrest hnil
    | false =>
      obtain ⟨rfl, rfl, rfl⟩ := hpresent hnil
      exact Gives.pure _ _ _
  all_goals simp

theorem gives_giveBackNil :
    Gives m s (execBlock env none passOn [.giveBack [.nil] 15]) 0 (.ret [.nil]) s := by
  have hvalues : Gives m s (Expr.evalList env [.nil]) 0 [.nil] s := by
    rw [Expr.evalList, Expr.evalList, Expr.eval]
    · exact fun k => Steps.refl _ _
    all_goals simp
  rw [execBlock, Stmt.exec]
  · exact Gives.bind_zero hvalues.map (Gives.pure _ _ _)
  all_goals simp

/-- A global that is there is found without a step. -/
theorem InForce.gives_global (h : l.InForce s) (hv : s.rawGet Store.globals (.string name) = v)
    (hpresent : v.isNil = false) (object : Value) :
    ∃ s', (∀ m, Gives m s (Closure.apply (s.closure l.function) [object, .string name]) 0 [v] s') ∧
      s.Grown s' := by
  obtain ⟨s₁, hs₁, hcell, hgives⟩ := h.gives_lookup (v := v)
    (fun m s₁ hs₁ => gives_index rfl ((hs₁.rawGet _ _).trans hv) hpresent) object
  refine ⟨s₁, fun m => hgives m 0 [v] s₁ ?_, hs₁.grown⟩
  exact gives_lookupRest hcell (fun hnil => by rw [hpresent] at hnil; cases hnil)
    fun _ => ⟨rfl, rfl, rfl⟩

/-- A name is looked up among the globals, and then in the imported tables in order. -/
theorem InForce.gives_value (h : l.InForce s) (hsize : l.tables.length < 2 ^ 63)
    (hbare : ∀ p ∈ Store.globals :: l.tables, (s.table p).metatable = none) (name : Bytes)
    (object : Value) :
    ∃ n s', (∀ m, Gives m s (Closure.apply (s.closure l.function) [object, .string name]) n
        [firstPresent ((Store.globals :: l.tables).map fun p => s.rawGet p (.string name))] s') ∧
      s.Grown s' := by
  obtain ⟨s₁, hs₁, hcell, hgives⟩ := h.gives_lookup
    (fun m s₁ hs₁ => (hs₁.rawGet _ _) ▸ gives_index_bare rfl
      ((congrArg Table.metatable (hs₁.table _)).trans (hbare _ List.mem_cons_self))) object
  rw [List.map_cons, firstPresent]
  cases hv : (s.rawGet Store.globals (.string name)).isNil with
  | false =>
    refine ⟨0, s₁, fun m => hgives m 0 _ s₁ ?_, hs₁.grown⟩
    exact gives_lookupRest hcell (fun hnil => by rw [hv] at hnil; cases hnil)
      fun _ => ⟨rfl, rfl, rfl⟩
  | true =>
    obtain ⟨n, s', hloop, hs'⟩ := hs₁.gives_importLoop hsize fun p hp =>
      hbare p (List.mem_cons_of_mem _ hp)
    refine ⟨n, s', fun m => hgives m n _ s' (gives_lookupRest hcell (fun _ => ?_) ?_), hs'.grown⟩
    · rw [importLoop, execBlock, ← importLoop]
      · refine Gives.bind (j := 0) (hloop m) ?_
        rw [if_pos rfl]
        generalize firstPresent _ = v
        cases v with
        | nil => exact gives_giveBackNil
        | _ => exact Gives.pure _ _ _
      all_goals simp
    · intro hnil
      rw [hv] at hnil
      cases hnil

end Lookup

end Stencil.Lua
