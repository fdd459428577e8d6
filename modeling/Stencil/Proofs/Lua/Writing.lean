import Stencil.Proofs.Lua.Environment
import Stencil.Proofs.Lua.Lexing
import Stencil.Proofs.Text.Utf8

/-!
# Running generated code

The effect of the statements of generated code in the store of a unit: binding the host makes a host
value with the path of the template, and writing a text adds its bytes to the output.
-/

namespace Stencil.Lua

open Machine (Gives Room)
open Text (utf8)

/-! ## Stores -/

namespace Store

variable {s : Store} {cell : Nat}

/-- What generated code relies on among the tables of a store: the functions of the engine are
there, and strings are their own text. -/
structure Stocked (s : Store) : Prop where
  size : 16 < s.tables.size
  engine : s.rawGet globals (.text "t4") = .table 16
  write : s.rawGet 16 (.text "write") = .builtin .write
  host : s.rawGet 16 (.text "host") = .builtin .host
  tostring : s.rawGet globals (.text "tostring") = .builtin .tostring
  setmetatable : s.rawGet globals (.text "setmetatable") = .builtin .setmetatable
  plain : s.rawGet stringMeta (.text "__tostring") = .nil

/-- What the code of a unit relies on in a store: beside the functions of the engine, a variable
with an environment without fields, behind which the globals stand. -/
structure Serves (s : Store) (cell : Nat) : Prop extends s.Stocked where
  known : cell < s.cells.size
  env : ∃ (p behind : Nat) (l : Lookup), s.cell cell = .table p ∧ (∀ k, s.rawGet p k = .nil) ∧
    (s.table p).metatable = some behind ∧
    s.rawGet behind (.text "__index") = .closure l.function ∧ l.InForce s

namespace Stocked

/-- Tables that keep what they are keep what generated code relies on. -/
theorem of_table {s' : Store} (h : s.Stocked) (hs : s.tables.size ≤ s'.tables.size)
    (ht : ∀ p ∈ [globals, stringMeta, 16], s'.table p = s.table p) : s'.Stocked := by
  have hget : ∀ p ∈ [globals, stringMeta, 16], ∀ k, s'.rawGet p k = s.rawGet p k :=
    fun p hp k => by rw [rawGet, ht p hp, rawGet]
  refine ⟨Nat.lt_of_lt_of_le h.size hs, ?_, ?_, ?_, ?_, ?_, ?_⟩
  · rw [hget _ (by simp), h.engine]
  · rw [hget _ (by simp), h.write]
  · rw [hget _ (by simp), h.host]
  · rw [hget _ (by simp), h.tostring]
  · rw [hget _ (by simp), h.setmetatable]
  · rw [hget _ (by simp), h.plain]

theorem grown {s' : Store} (h : s.Stocked) (hs : s.Grown s') : s'.Stocked :=
  h.of_table (Nat.le_of_eq (congrArg Array.size hs.tables.symm)) fun p _ => hs.table p

end Stocked

namespace Serves

theorem emit (h : s.Serves cell) (b : Bytes) : (s.emit b).Serves cell := by
  obtain ⟨p, behind, l, hcell, hnone, hmeta, hindex, hl⟩ := h.env
  exact ⟨h.toStocked.of_table (Nat.le_refl _) fun _ _ => rfl, h.known, p, behind, l, hcell, hnone,
    hmeta, hindex, hl.function, hl.known, hl.globals, hl.list, hl.imports⟩

theorem newObject (h : s.Serves cell) (o : HostObject) : (s.newObject o).2.Serves cell := by
  obtain ⟨p, behind, l, hcell, hnone, hmeta, hindex, hl⟩ := h.env
  exact ⟨h.toStocked.of_table (Nat.le_refl _) fun _ _ => rfl, h.known, p, behind, l, hcell, hnone,
    hmeta, hindex, hl.function, hl.known, hl.globals, hl.list, hl.imports⟩

theorem newClosure (h : s.Serves cell) (c : Closure) : (s.newClosure c).2.Serves cell := by
  obtain ⟨p, behind, l, hcell, hnone, hmeta, hindex, hl⟩ := h.env
  exact ⟨h.toStocked.of_table (Nat.le_refl _) fun _ _ => rfl, h.known, p, behind, l, hcell, hnone,
    hmeta, hindex, hl.newClosure c⟩

theorem grown {s' : Store} (h : s.Serves cell) (hs : s.Grown s') : s'.Serves cell := by
  obtain ⟨p, behind, l, hcell, hnone, hmeta, hindex, hl⟩ := h.env
  exact ⟨h.toStocked.grown hs, Nat.lt_of_lt_of_le h.known hs.size, p, behind, l,
    (hs.cell _ h.known).trans hcell, fun k => (hs.rawGet p k).trans (hnone k),
    (congrArg Table.metatable (hs.table p)).trans hmeta, (hs.rawGet _ _).trans hindex, hl.grown hs⟩

end Serves

end Store

variable {m : Machine} {s : Store} {cell : Nat}

/-! ## Fields -/

/-- The functions of the engine are found behind the environment of a unit. -/
theorem gives_engine (line : Nat) (d : Description) (h : s.Serves cell) (hr : Room 1 m) :
    ∃ s', Gives m s (Run.index line d (s.cell cell) (.text "t4")) 2 (.table 16) s' ∧
      s.Grown s' := by
  obtain ⟨p, behind, l, hcell, hnone, hmeta, hindex, hl⟩ := h.env
  have hmethod : s.metamethod (.table p) "__index" = .closure l.function := by
    rw [Store.metamethod, Store.metatable, hmeta]
    exact hindex
  obtain ⟨s', hfound, hs'⟩ := hl.gives_global h.engine rfl (.table p)
  have hcall : Gives m s (Run.call (.closure l.function) [.table p, .text "t4"]
      (.ofEvent line "index")) 2 [.table 16] s' :=
    Gives.call rfl hr rfl fun k => hfound _
  refine ⟨s', ?_, hs'⟩
  rw [hcell]
  show Gives m s (Run.indexThrough line (1999 + 1) d (.table p) (.text "t4")) 2 (.table 16) s'
  rw [Run.indexThrough]
  refine Gives.store ?_
  simp only [Value.text, Key.ofValue, hnone, Value.isNil, Bool.not_true, Bool.false_eq_true,
    ↓reduceIte, hmethod, Value.isFunction]
  exact hcall.map

/-! ## Functions of the engine -/

theorem gives_textOf {v : Value} (hplain : s.metamethod v "__tostring" = .nil) :
    Gives m s (Run.textOf v) 0 (Run.plainText s v) s := by
  rw [Run.textOf]
  refine Gives.store ?_
  simp only [hplain]
  exact Gives.pure m s _

theorem gives_tostring {v : Value} (hplain : s.metamethod v "__tostring" = .nil) :
    Gives m s (Basic.tostring [v]) 0 [.string (Run.plainText s v)] s := by
  rw [Basic.tostring]
  refine Gives.bind_zero (x := v) (Gives.pure m s _) ?_
  exact (gives_textOf hplain).map

theorem gives_functionField
    (htostring : s.rawGet Store.globals (.text "tostring") = .builtin .tostring) :
    Gives m s (Engine.functionField Store.globals "tostring") 2 (.ok (.builtin .tostring)) s := by
  have hfield : ∀ m, Gives m s
      (do return [← Run.index 0 none (.table Store.globals) (.text "tostring")]) 0
      [.builtin .tostring] s :=
    fun m => (gives_index (k := .text "tostring") rfl htostring rfl).map
  rw [Engine.functionField]
  exact Gives.bind (j := 0) (Gives.protect fun k => hfield _) (Gives.pure _ _ _)

/-- The text of a value by Lua's `tostring` is its own, unless a metamethod makes another one. -/
theorem gives_globalText {v : Value}
    (htostring : s.rawGet Store.globals (.text "tostring") = .builtin .tostring)
    (hplain : s.metamethod v "__tostring" = .nil) (hr : Room 1 m) :
    Gives m s (Engine.globalText v) 6 (.ok (Run.plainText s v)) s := by
  have hcall : ∀ m, Room 1 m → Gives m s (Run.call (.builtin .tostring) [v] ⟨0, none⟩) 2
      [.string (Run.plainText s v)] s :=
    fun m hr => Gives.call rfl hr rfl fun k => gives_tostring hplain
  rw [Engine.globalText]
  refine Gives.bind (j := 4) (gives_functionField htostring) ?_
  exact Gives.bind (j := 0) (Gives.protect fun k => hcall _ ⟨hr.1, hr.2⟩) (Gives.pure _ _ _)

/-- Writing a string adds its bytes to the output. -/
theorem gives_write {b : Bytes} (h : s.Stocked) (hr : Room 1 m) :
    Gives m s (Engine.write [.string b]) 6 [] (s.emit b) := by
  have htext : Gives m s (Engine.textOf (.string b)) 6 b s := by
    rw [Engine.textOf]
    exact Gives.bind (j := 0) (gives_globalText h.tostring h.plain hr) (Gives.pure m s b)
  have hvalue : Gives m s (Engine.writeValue (.string b)) 6 () (s.emit b) := by
    rw [Engine.writeValue]
    exact Gives.bind (j := 0) htext (Gives.modify _ _ _)
  rw [Engine.write]
  exact Gives.bind (j := 0) (Gives.bind (j := 0) hvalue (Gives.pure _ _ _)) (Gives.pure _ _ _)

/-- The host value of a path. -/
theorem gives_host {path : String} :
    Gives m s (Engine.host [.text path]) 0 [.object s.objects.size]
      (s.newObject (.context path)).2 := by
  have htext : Gives m s (Engine.textArgument none 1 (.text path)) 0 path s := by
    rw [Engine.textArgument]
    refine Gives.store ?_
    have hfault : Utf8.fault? (bytesOf path) = none := Utf8.fault?_toUTF8 path
    have hread : Utf8.readable (bytesOf path) = path := Utf8.readable_toUTF8 path
    simp only [Value.text, Value.toBytes, hfault, hread]
    exact Gives.pure m s path
  rw [Engine.host]
  refine Gives.bind_zero htext ?_
  exact fun k => Machine.Steps.refl _ _

/-! ## Statements -/

/-- A function of the engine is found from inside a unit. -/
theorem gives_engineField {env : Env} {d : Nat} {field : String} {v : Value} (line : Nat)
    (h : s.Serves cell) (hr : Room 1 m) (henv : env.place d = cell)
    (hfield : s.rawGet 16 (.text field) = v) (hv : v.isNil = false) :
    ∃ s', Gives m s (Expr.eval env (.index (.index (envExpr d) (.string (bytesOf "t4")) line)
      (.string (bytesOf field)) line)) 2 v s' ∧ s.Grown s' := by
  obtain ⟨s', hengine, hs'⟩ := gives_engine line (envExpr d).description h hr
  refine ⟨s', ?_, hs'⟩
  have henv' : Gives m s (Operand.ofExpr env (envExpr d) (Expr.eval env (envExpr d))) 0
      (.value (s.cell cell)) s := by
    rw [envExpr, ← henv]
    exact (gives_variable m s env d _ true).map
  have ht4 : Gives m s (Expr.eval env (.index (envExpr d) (.string (bytesOf "t4")) line)) 2
      (.table 16) s' := by
    rw [Expr.eval]
    refine Gives.bind_zero henv' ?_
    rw [Expr.eval]
    refine Gives.bind_zero (Gives.pure m s _) ?_
    exact Gives.bind_zero (Gives.pure m s _) hengine
  have hobject : Gives m s (Operand.ofExpr env (.index (envExpr d) (.string (bytesOf "t4")) line)
      (Expr.eval env (.index (envExpr d) (.string (bytesOf "t4")) line))) 2
      (.value (.table 16)) s' := ht4.map
  rw [Expr.eval]
  refine Gives.bind (j := 0) hobject ?_
  rw [Expr.eval]
  refine Gives.bind_zero (Gives.pure m s' _) (Gives.bind_zero (Gives.pure m s' _) ?_)
  exact gives_index (k := .text field) rfl ((hs'.rawGet _ _).trans hfield) hv

/-- A call of a function of the engine with a string: it is called in a store that has grown. -/
theorem gives_hostInvocation {env : Env} {d line n : Nat} {field : String} {value : List UInt8}
    {b : Builtin} {vs : List Value} (final : Store → Store) (h : s.Serves cell) (hr : Room 1 m)
    (henv : env.place d = cell) (hfield : s.rawGet 16 (.text field) = .builtin b)
    (hb : ∀ s₁, s.Grown s₁ → ∀ site k, Gives (m.entered (.builtin b) site s₁ k) s₁
      (b.apply [.string value.toByteArray]) n vs (final s₁)) :
    ∃ s₁, Gives m s (Call.eval env (hostInvocation (envExpr d) line field value)) (2 + (n + 2)) vs
      (final s₁) ∧ s.Grown s₁ := by
  obtain ⟨s₁, hcallee, hs₁⟩ := gives_engineField line h hr henv hfield rfl
  refine ⟨s₁, ?_, hs₁⟩
  have hargs : Gives m s₁ (Expr.evalList env [.string value.toByteArray]) 0
      [.string value.toByteArray] s₁ := by
    rw [Expr.evalList, Expr.evalList, Expr.eval]
    · exact fun k => Machine.Steps.refl _ _
    all_goals simp
  rw [hostInvocation, Call.eval]
  refine Gives.bind hcallee ?_
  exact Gives.bind_zero hargs (Gives.call rfl hr rfl fun k => hb s₁ hs₁ _ k)

/-- A statement that writes a text adds its bytes to the output. -/
theorem gives_writeStatement {env : Env} (line : Nat) (text : String) (h : s.Serves cell)
    (hr : Room 2 m) (henv : env.place 1 = cell) :
    ∃ s', Gives m s
      (Stmt.exec env (.invoke (hostInvocation (envExpr 1) line "write" (utf8 text.toList)))) 10 .next
      s' ∧ (s.emit (bytesOf text)).Grown s' := by
  obtain ⟨s₁, hcall, hs₁⟩ : ∃ s₁, Gives m s (Call.eval env (hostInvocation (envExpr 1) line "write"
      (utf8 text.toList))) 10 [] (s₁.emit (bytesOf text)) ∧ s.Grown s₁ :=
    gives_hostInvocation (·.emit (bytesOf text)) h (hr.mono (by decide)) henv h.write
      fun s₁ hs₁ site k => by
      rw [← Text.toUTF8_eq]
      exact gives_write (h.grown hs₁).toStocked (hr.entered _ site s₁ k)
  refine ⟨s₁.emit (bytesOf text), ?_, hs₁.emit _⟩
  rw [Stmt.exec]
  exact hcall.bind (j := 0) (Gives.pure _ _ _)

theorem Store.emit_emit (s : Store) (a b : String) :
    (s.emit (bytesOf a)).emit (bytesOf b) = s.emit (bytesOf (a ++ b)) := by
  have h : bytesOf (a ++ b) = bytesOf a ++ bytesOf b := String.toByteArray_append
  rw [h, emit, emit, emit, ByteArray.append_assoc]

/-- Statements that write texts add their bytes to the output, in order. -/
theorem gives_writeStatements {env : Env} (texts : List String) (line : Nat) (h : s.Serves cell)
    (hr : Room 2 m) (henv : env.place 1 = cell) :
    ∃ s', Gives m s (execBlock env none passOn
        (writeStatements line (texts.map fun text => utf8 text.toList)))
      (10 * texts.length) .next s' ∧ (s.emit (bytesOf (String.join texts))).Grown s' := by
  induction texts generalizing s line with
  | nil =>
    have hs : s.emit (bytesOf (String.join [])) = s := by
      show { s with output := s.output ++ ByteArray.empty } = s
      rw [ByteArray.append_empty]
    rw [hs, List.map_nil, writeStatements, execBlock]
    exact ⟨s, Gives.pure m s _, .refl s⟩
  | cons text texts ih =>
    obtain ⟨s₁, hfirst, hs₁⟩ := gives_writeStatement line text h hr henv
    obtain ⟨s', hrest, hs'⟩ := ih (line + 1) ((h.emit _).grown hs₁)
    refine ⟨s', ?_, ?_⟩
    · rw [List.length_cons, show 10 * (texts.length + 1) = 10 + 10 * texts.length by omega,
        List.map_cons, writeStatements, execBlock]
      · exact Gives.bind hfirst hrest
      all_goals simp
    · rw [String.join_cons, ← Store.emit_emit]
      exact (hs₁.emit _).trans hs'

/-- Binding the host leaves what follows with one more variable, which holds a host value with the
path of the template. -/
theorem gives_binding {env : Env} {path : String} {rest : List Stmt} {n : Nat} {sig : Signal}
    {post : Store → Prop} (h : s.Serves cell) (hr : Room 1 m) (henv : env.place 0 = cell)
    (hrest : ∀ s₁ c, (s.newObject (.context path)).2.Grown s₁ →
      s₁.cell c = .object s.objects.size →
      ∃ s', Gives m s₁ (execBlock (env.push c) none passOn rest) n sig s' ∧ post s') :
    ∃ s', Gives m s (execBlock env none passOn (bindingStatement (utf8 path.toList) :: rest))
      (4 + n) sig s' ∧ post s' := by
  have hpath : (utf8 path.toList).toByteArray = bytesOf path := (Text.toUTF8_eq path).symm
  obtain ⟨s₁, hcall, hs₁⟩ : ∃ s₁, Gives m s (Call.eval env (hostInvocation (envExpr 0) 1 "host"
      (utf8 path.toList))) 4 [.object s.objects.size] (s₁.newObject (.context path)).2 ∧
      s.Grown s₁ :=
    gives_hostInvocation (n := 0) (fun s => (s.newObject (.context path)).2) h hr henv h.host
      fun s₁ hs₁ site k => by
        rw [hpath, ← hs₁.objects]
        exact gives_host
  let s₂ := (s₁.newObject (.context path)).2
  obtain ⟨s', hgives, hs'⟩ := hrest (s₂.newCell (.object s.objects.size)).2 s₂.cells.size
    ((hs₁.newObject _).newCell _) (Store.cell_newCell_size _ _)
  refine ⟨s', ?_, hs'⟩
  rw [bindingStatement, execBlock, Expr.evalList]
  refine Gives.bind hcall ?_
  exact hgives

end Stencil.Lua
