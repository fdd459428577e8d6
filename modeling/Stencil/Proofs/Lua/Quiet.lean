import Stencil.Lua.Machine
import Stencil.Proofs.Lua.Keeping

/-!
# Parts that write nothing

Only three functions write to the output of a program. Every other part of a program, with whatever
it does itself, leaves the output as it is. Where a part is made of parts that write nothing, it
writes nothing, so what is known of the functions that it calls is found by its shape.

* `Run.Quiet`: a part that writes nothing itself;
* `Run.index_quiet`, `Run.binary_quiet`, and the like: operations;
* `Expr.eval_quiet`, `Stmt.exec_quiet`, `Closure.apply_quiet`: what is written in Lua.
-/

namespace Stencil.Lua

variable {α β : Type}

/-- A part of a program writes nothing itself. -/
class Run.Quiet (r : Run α) : Prop where
  keeps : r.Keeps Store.output

namespace Run.Quiet

variable {r : Run α} {g : α → Run β}

instance pure (a : α) : Quiet (Pure.pure a : Run α) := ⟨.pure a⟩

theorem bind (hr : r.Quiet) (hg : ∀ a, (g a).Quiet) : (r >>= g).Quiet :=
  ⟨.bind hr.keeps fun a => (hg a).keeps⟩

instance [hr : r.Quiet] [hg : ∀ a, (g a).Quiet] : (r >>= g).Quiet := .bind hr hg

instance store : Quiet Run.store := ⟨.store⟩

theorem modify {g : Store → Store} (h : ∀ s, (g s).output = s.output) : (Run.modify g).Quiet :=
  ⟨.modify h⟩

theorem modifyGet {g : Store → α × Store} (h : ∀ s, (g s).2.output = s.output) :
    (Run.modifyGet g).Quiet :=
  ⟨.modifyGet h⟩

instance call (f : Value) (args : List Value) (site : Site) : (Run.call f args site).Quiet :=
  ⟨.call f args site⟩

instance raise (e : Value) : Quiet (Run.raise e : Run α) := ⟨.raise e⟩

instance inspect (level line : Nat) : (Run.inspect level line).Quiet := ⟨.inspect level line⟩

instance become (f : Value) (args : List Value) (site : Site) :
    Quiet (Run.become f args site : Run α) :=
  ⟨.become f args site⟩

instance finish (how : Signal) : Quiet (Run.finish how : Run α) := ⟨.finish how⟩

instance protect {r : Run (List Value)} [hr : r.Quiet] (handler : Option Value) :
    (Run.protect r handler).Quiet :=
  ⟨.protect hr.keeps handler⟩

instance loop {body : List Value → Run Signal} (vs : List Value) [hbody : ∀ vs, (body vs).Quiet] :
    (Run.loop vs body).Quiet :=
  ⟨.loop vs fun vs => (hbody vs).keeps⟩

instance scope {body : Run Signal} [hbody : body.Quiet] (closed : Value) (line : Nat) :
    (Run.scope body closed line).Quiet :=
  ⟨.scope hbody.keeps closed line⟩

instance fault (line : Nat) (message : Bytes) : Quiet (Run.fault line message : Run α) :=
  ⟨.fault line message⟩

instance complain (message : Bytes) : Quiet (Run.complain message : Run α) := ⟨.complain message⟩

instance callOne (f : Value) (args : List Value) (site : Site) : (Run.callOne f args site).Quiet :=
  ⟨.callOne f args site⟩

instance ite {c : Prop} [Decidable c] {r r' : Run α} [hr : r.Quiet] [hr' : r'.Quiet] :
    Quiet (if c then r else r') := by
  split
  · exact hr
  · exact hr'

end Run.Quiet

instance Run.newCell_quiet (v : Value) : (Run.newCell v).Quiet := .modifyGet fun _ => rfl

instance Run.newTable_quiet (t : Table) : (Run.newTable t).Quiet := .modifyGet fun _ => rfl

/-! ## Operations -/

instance Run.unsupported_quiet (line : Nat) (operation : String) (v : Value)
    (d : Description) :
    Run.Quiet (Run.unsupported line operation v d : Run α) := by
  unfold Run.unsupported
  infer_instance

instance Run.indexThrough_quiet (line fuel : Nat) (d : Description) (v w : Value) :
    (Run.indexThrough line fuel d v w).Quiet := by
  induction fuel generalizing d v w with
  | zero =>
    unfold Run.indexThrough
    infer_instance
  | succ fuel ih =>
    unfold Run.indexThrough
    refine .bind inferInstance fun _ => ?_
    extract_lets found handler
    clear_value found handler
    split
    · infer_instance
    · split <;> infer_instance

instance Run.index_quiet (line : Nat) (d : Description) (object key : Value) :
    (Run.index line d object key).Quiet := by
  unfold Run.index
  infer_instance

instance Run.rawSetAt_quiet (line place : Nat) (key value : Value) :
    (Run.rawSetAt line place key value).Quiet := by
  unfold Run.rawSetAt
  split
  · exact .modify fun _ => rfl
  · infer_instance

instance Run.setIndexThrough_quiet (line fuel : Nat) (d : Description) (v w u : Value) :
    (Run.setIndexThrough line fuel d v w u).Quiet := by
  induction fuel generalizing d v w u with
  | zero =>
    unfold Run.setIndexThrough
    infer_instance
  | succ fuel ih =>
    unfold Run.setIndexThrough
    refine .bind inferInstance fun _ => ?_
    extract_lets found handler
    clear_value found handler
    split <;> infer_instance

instance Run.setIndex_quiet (line : Nat) (d : Description) (object key value : Value) :
    (Run.setIndex line d object key value).Quiet := by
  unfold Run.setIndex
  infer_instance

instance Run.operateSpecially_quiet (line : Nat) (op : BinaryOp) (a b : Value)
    (da db : Description) :
    (Run.operateSpecially line op a b da db).Quiet := by
  unfold Run.operateSpecially
  refine .bind inferInstance fun _ => ?_
  split
  · split <;> infer_instance
  · infer_instance

instance Run.operate_quiet (line : Nat) (op : BinaryOp) (a b : Value) (da db : Description) :
    (Run.operate line op a b da db).Quiet := by
  unfold Run.operate
  split
  · split <;> infer_instance
  · infer_instance

instance Run.negate_quiet (line : Nat) (v : Value) (d : Description) :
    (Run.negate line v d).Quiet := by
  unfold Run.negate
  split
  · infer_instance
  · infer_instance
  · refine .bind inferInstance fun _ => ?_
    split <;> infer_instance

instance Run.complement_quiet (line : Nat) (v : Value) (d : Description) :
    (Run.complement line v d).Quiet := by
  unfold Run.complement
  split
  · infer_instance
  · refine .bind inferInstance fun _ => ?_
    split <;> infer_instance

instance Run.length_quiet (line : Nat) (v : Value) (d : Description) :
    (Run.length line v d).Quiet := by
  unfold Run.length
  split
  · infer_instance
  · refine .bind inferInstance fun _ => ?_
    split
    · split <;> infer_instance
    · infer_instance

instance Run.concatPair_quiet (line : Nat) (a b : Value) (da db : Description) :
    (Run.concatPair line a b da db).Quiet := by
  unfold Run.concatPair
  split
  · infer_instance
  · refine .bind inferInstance fun _ => ?_
    split <;> infer_instance

instance Run.concatBefore_quiet (line : Nat) (b : Value) (db : Description)
    (before : List (Value × Description)) : (Run.concatBefore line b db before).Quiet := by
  induction before generalizing b db with
  | nil => exact .pure b
  | cons first rest ih =>
    unfold Run.concatBefore
    infer_instance

instance Run.concatAll_quiet (line : Nat) (operands : List (Value × Description)) :
    (Run.concatAll line operands).Quiet := by
  unfold Run.concatAll
  split <;> infer_instance

instance Run.equals_quiet (line : Nat) (a b : Value) : (Run.equals line a b).Quiet := by
  unfold Run.equals
  split
  · infer_instance
  · split
    · refine .bind inferInstance fun _ => ?_
      split <;> infer_instance
    · refine .bind inferInstance fun _ => ?_
      split <;> infer_instance
    · infer_instance

instance Run.compareSpecially_quiet (line : Nat) (event : String) (a b : Value) :
    (Run.compareSpecially line event a b).Quiet := by
  unfold Run.compareSpecially
  refine .bind inferInstance fun _ => ?_
  split <;> infer_instance

instance Run.lessThan_quiet (line : Nat) (a b : Value) : (Run.lessThan line a b).Quiet := by
  unfold Run.lessThan
  split <;> infer_instance

instance Run.lessEqual_quiet (line : Nat) (a b : Value) : (Run.lessEqual line a b).Quiet := by
  unfold Run.lessEqual
  split <;> infer_instance

instance Run.binary_quiet (line : Nat) (op : BinaryOp) (a b : Value) (da db : Description) :
    (Run.binary line op a b da db).Quiet := by
  unfold Run.binary
  split <;> infer_instance

instance Run.unary_quiet (line : Nat) (op : UnaryOp) (v : Value) (d : Description) :
    (Run.unary line op v d).Quiet := by
  unfold Run.unary
  split <;> infer_instance

instance Run.textOf_quiet (v : Value) : (Run.textOf v).Quiet := by
  unfold Run.textOf
  refine .bind inferInstance fun _ => ?_
  split
  · infer_instance
  · refine .bind inferInstance fun _ => ?_
    split <;> infer_instance

/-! ## Requests -/

@[simp]
theorem Store.output_ask (s : Store) (request : Request) :
    (s.ask request).2.output = s.output := by
  unfold Store.ask
  extract_lets a
  split <;> rfl

instance Run.finalize_quiet (places : List Nat) : (Run.finalize places).Quiet := by
  induction places with
  | nil => exact .pure ()
  | cons place rest ih =>
    unfold Run.finalize
    infer_instance

instance Run.stall_quiet : Run.Quiet (Run.stall : Run α) := by
  unfold Run.stall
  infer_instance

instance Run.ask_quiet (request : Request) : (Run.ask request).Quiet := by
  unfold Run.ask
  exact .bind (.modifyGet fun s => s.output_ask request) fun _ => inferInstance

instance Run.request_quiet (subject : Bytes) (request : Request) :
    (Run.request subject request).Quiet := by
  unfold Run.request
  refine .bind inferInstance fun reply => ?_
  split
  · infer_instance
  · exact .bind (.modifyGet fun _ => rfl) fun _ => .pure _
  · infer_instance
  · infer_instance
  · infer_instance

/-! ## Arguments -/

instance Argument.refuse_quiet (n : Nat) (reason : Bytes) :
    Run.Quiet (Argument.refuse n reason : Run α) := by
  unfold Argument.refuse
  refine .bind inferInstance fun _ => ?_
  split
  · split <;> infer_instance

instance Argument.require_quiet (condition : Bool) (n : Nat) (reason : String) :
    (Argument.require condition n reason).Quiet := by
  unfold Argument.require
  infer_instance

instance Argument.refuseType_quiet (n : Nat) (expected : String) (vs : List Value) :
    Run.Quiet (Argument.refuseType n expected vs : Run α) := by
  unfold Argument.refuseType
  infer_instance

instance Argument.any_quiet (n : Nat) (vs : List Value) : (Argument.any n vs).Quiet := by
  unfold Argument.any
  infer_instance

instance Argument.number_quiet (n : Nat) (vs : List Value) : (Argument.number n vs).Quiet := by
  unfold Argument.number
  split <;> infer_instance

instance Argument.float_quiet (n : Nat) (vs : List Value) : (Argument.float n vs).Quiet := by
  unfold Argument.float
  infer_instance

instance Argument.integer_quiet (n : Nat) (vs : List Value) : (Argument.integer n vs).Quiet := by
  unfold Argument.integer
  split
  · split <;> infer_instance
  · infer_instance

instance Argument.integerOr_quiet (n : Nat) (vs : List Value) (otherwise : Int64) :
    (Argument.integerOr n vs otherwise).Quiet := by
  unfold Argument.integerOr
  infer_instance

instance Argument.string_quiet (n : Nat) (vs : List Value) : (Argument.string n vs).Quiet := by
  unfold Argument.string
  split <;> infer_instance

instance Argument.stringOr_quiet (n : Nat) (vs : List Value) (otherwise : Bytes) :
    (Argument.stringOr n vs otherwise).Quiet := by
  unfold Argument.stringOr
  infer_instance

instance Argument.option_quiet (n : Nat) (options : List String) (name : Bytes) :
    (Argument.option n options name).Quiet := by
  unfold Argument.option
  infer_instance

instance Argument.strings_quiet (vs : List Value) (count n : Nat) :
    (Argument.strings vs count n).Quiet := by
  induction count generalizing n with
  | zero => exact .pure ()
  | succ count ih =>
    unfold Argument.strings
    infer_instance

instance Argument.table_quiet (n : Nat) (vs : List Value) : (Argument.table n vs).Quiet := by
  unfold Argument.table
  split <;> infer_instance

instance Argument.function_quiet (n : Nat) (vs : List Value) : (Argument.function n vs).Quiet := by
  unfold Argument.function
  infer_instance

/-! ## Evaluation -/

@[simp]
theorem Store.output_storeItems (place i : Nat) (vs : List Value) (s : Store) :
    (storeItems place i vs s).output = s.output := by
  induction vs generalizing i s with
  | nil => rfl
  | cons v vs ih => exact ih (i + 1) _

theorem Run.storeLast_quiet (place next : Nat) (vs : List Value) :
    (Run.modify (storeLast place next vs)).Quiet :=
  .modify fun _ => Store.output_storeItems place next vs _

instance Operand.read_quiet (o : Operand) : o.read.Quiet := by
  cases o with
  | place c => exact ⟨fun s _ hk => hk (s.cell c) s⟩
  | value v => exact .pure v

instance Operand.ofExpr_quiet (env : Env) (e : Expr) {now : Run Value} [now.Quiet] :
    (Operand.ofExpr env e now).Quiet := by
  unfold Operand.ofExpr
  split <;> infer_instance

instance Target.assign_quiet (line : Nat) (v : Value) (t : Target) : (t.assign line v).Quiet := by
  cases t with
  | cell c => exact .modify fun _ => rfl
  | field object key d =>
    unfold Target.assign
    infer_instance

instance assignAll_quiet (line : Nat) (ts : List Target) (vs : List Value) :
    (assignAll line ts vs).Quiet := by
  induction ts generalizing vs with
  | nil => exact .pure ()
  | cons t ts ih =>
    unfold assignAll
    infer_instance

instance newCells_quiet (vs : List Value) : (newCells vs).Quiet := by
  induction vs with
  | nil => exact .pure []
  | cons v vs ih =>
    unfold newCells
    infer_instance

mutual

theorem Expr.eval_quiet (env : Env) : ∀ e, (Expr.eval env e).Quiet
  | .nil | .true | .false | .number _ | .string _ | .vararg => by
    unfold Expr.eval
    infer_instance
  | .function f => by
    unfold Expr.eval
    exact .modifyGet fun _ => rfl
  | .variable d _ _ => by
    unfold Expr.eval
    exact ⟨fun s _ hk => hk (s.cell (env.place d)) s⟩
  | .index object key line => by
    have hobject := Expr.eval_quiet env object
    have hkey := Expr.eval_quiet env key
    unfold Expr.eval
    infer_instance
  | .call c => by
    have hcall := Call.eval_quiet env c
    unfold Expr.eval
    infer_instance
  | .binary op left right line => by
    have hleft := Expr.eval_quiet env left
    have hright := Expr.eval_quiet env right
    unfold Expr.eval
    infer_instance
  | .concat operands line => by
    have hoperands := Expr.evalEach_quiet env operands
    unfold Expr.eval
    infer_instance
  | .unary op e line => by
    have he := Expr.eval_quiet env e
    unfold Expr.eval
    infer_instance
  | .and left right | .or left right => by
    have hleft := Expr.eval_quiet env left
    have hright := Expr.eval_quiet env right
    unfold Expr.eval
    infer_instance
  | .paren e => by
    unfold Expr.eval
    exact Expr.eval_quiet env e
  | .table items _ => by
    have hitems (place : Nat) := Item.store_quiet env place 1 [] items
    unfold Expr.eval
    exact .bind (.modifyGet fun _ => rfl) fun _ => inferInstance
termination_by e => sizeOf e

theorem Call.eval_quiet (env : Env) : ∀ c, (Call.eval env c).Quiet
  | .function callee args line => by
    have hcallee := Expr.eval_quiet env callee
    have hargs := Expr.evalList_quiet env args
    unfold Call.eval
    infer_instance
  | .method object name nameLine args line => by
    have hobject := Expr.eval_quiet env object
    have hargs := Expr.evalList_quiet env args
    unfold Call.eval
    infer_instance
termination_by c => sizeOf c

theorem Expr.evalEach_quiet (env : Env) : ∀ es, (Expr.evalEach env es).Quiet
  | [] => by
    unfold Expr.evalEach
    infer_instance
  | e :: es => by
    have he := Expr.eval_quiet env e
    have hes := Expr.evalEach_quiet env es
    unfold Expr.evalEach
    infer_instance
termination_by es => sizeOf es

theorem Expr.evalList_quiet (env : Env) (es : List Expr) : (Expr.evalList env es).Quiet := by
  unfold Expr.evalList
  split
  · infer_instance
  · infer_instance
  · next c => exact Call.eval_quiet env c
  · next e es _ _ =>
    have he := Expr.eval_quiet env e
    have hes := Expr.evalList_quiet env es
    infer_instance
termination_by sizeOf es

theorem Item.store_quiet (env : Env) (place next : Nat) (waiting : List Value)
    (items : List Item) : (Item.store env place next waiting items).Quiet := by
  unfold Item.store
  split
  · exact Run.storeLast_quiet place next _
  · exact Run.storeLast_quiet place next _
  · next c => exact .bind (Call.eval_quiet env c) fun _ => Run.storeLast_quiet place next _
  · next e items _ _ =>
    have he := Expr.eval_quiet env e
    have hstored := Item.store_quiet env place (next + 50) [] items
    have hwaiting (v : Value) := Item.store_quiet env place next (v :: waiting) items
    have hlast (vs : List Value) := Run.storeLast_quiet place next vs
    infer_instance
  · next key value line items =>
    have hkey := Expr.eval_quiet env key
    have hvalue := Expr.eval_quiet env value
    have hrest := Item.store_quiet env place next waiting items
    infer_instance
termination_by sizeOf items

end

attribute [instance] Expr.eval_quiet Call.eval_quiet Expr.evalEach_quiet Expr.evalList_quiet
  Item.store_quiet

instance Call.become_quiet (env : Env) (c : Call) : (c.become env).Quiet := by
  cases c <;> unfold Call.become <;> infer_instance

instance Expr.target_quiet (env : Env) (later : List Expr) (e : Expr) :
    (e.target env later).Quiet := by
  unfold Expr.target
  split
  · extract_lets field settle
    have hfield (o : Operand) : (field o).Quiet := by
      dsimp only [field]
      infer_instance
    clear_value field
    have hsettle (o : Operand) : (settle o).Quiet := by
      dsimp only [settle]
      split
      · split <;> infer_instance
      · infer_instance
    clear_value settle
    split <;> infer_instance
  · infer_instance
  · infer_instance

instance Expr.targets_quiet (env : Env) (es : List Expr) : (Expr.targets env es).Quiet := by
  induction es with
  | nil => exact .pure []
  | cons e es ih =>
    unfold Expr.targets
    infer_instance

instance loopNumber_quiet (line : Nat) (what : String) (v : Value) :
    (loopNumber line what v).Quiet := by
  unfold loopNumber
  split <;> infer_instance

instance prepareCount_quiet (line : Nat) (first last step : Value) :
    (prepareCount line first last step).Quiet := by
  unfold prepareCount
  split <;> infer_instance

instance Count.run_quiet {round : Value → Run Signal} [∀ v, (round v).Quiet] (count : Count) :
    (count.run round).Quiet := by
  cases count with
  | ints first step count =>
    refine @Run.Quiet.loop _ _ fun vs => ?_
    split <;> infer_instance
  | floats first last step =>
    refine @Run.Quiet.loop _ _ fun vs => ?_
    split <;> infer_instance

instance checkClosable_quiet (line : Nat) (name : Bytes) (v : Value) :
    (checkClosable line name v).Quiet := by
  unfold checkClosable
  infer_instance

instance closing_quiet (line : Nat) (name : Bytes) (v : Value) {body : Run Signal} [body.Quiet] :
    (closing line name v body).Quiet := by
  unfold closing
  infer_instance

instance passOn_quiet (env : Env) : (passOn env).Quiet := .pure _

instance execBlock.fromLabel_quiet (label : Bytes) {body : Run Signal} [body.Quiet] :
    (execBlock.fromLabel label body).Quiet := by
  refine @Run.Quiet.loop _ _ fun _ => .bind inferInstance fun how => ?_
  split <;> infer_instance

mutual

theorem Stmt.exec_quiet (env : Env) (stmt : Stmt) : (stmt.exec env).Quiet := by
  unfold Stmt.exec
  split
  · infer_instance
  · infer_instance
  · next body => exact execBlock_quiet env none inferInstance body
  · next condition body =>
    have hbody := execBlock_quiet env none passOn_quiet body
    infer_instance
  · next body condition =>
    have hfinal (env : Env) : Run.Quiet (do
        return if (← condition.eval env).truth then Signal.leave else .next) := inferInstance
    have hbody := execBlock_quiet env none hfinal body
    infer_instance
  · next condition thenBody elseBody =>
    have hthen := execBlock_quiet env none passOn_quiet thenBody
    have helse := execBlock_quiet env none passOn_quiet elseBody
    infer_instance
  · next first last step body line =>
    have hbody (c : Nat) := execBlock_quiet (env.push c) none passOn_quiet body
    infer_instance
  · next names values body line =>
    have hbody (env : Env) := execBlock_quiet env none passOn_quiet body
    refine .bind inferInstance fun vs => ?_
    infer_instance
  · split <;> infer_instance
  · infer_instance
  · infer_instance
  · infer_instance
  · infer_instance
  · infer_instance
termination_by sizeOf stmt

theorem execBlock_quiet (env : Env) (start : Option Bytes) {final : Env → Run Signal}
    (hfinal : ∀ env, (final env).Quiet) (body : List Stmt) :
    (execBlock env start final body).Quiet := by
  unfold execBlock
  split
  · infer_instance
  · next stmt rest =>
    have hstmt := Stmt.exec_quiet env stmt
    have hrest (env : Env) (start : Option Bytes) := execBlock_quiet env start hfinal rest
    split
    · infer_instance
    · infer_instance
    · infer_instance
    · refine .bind inferInstance fun vs => .bind inferInstance fun cs => ?_
      split <;> infer_instance
    · refine .bind inferInstance fun c => .bind (.modify fun _ => rfl) fun _ => inferInstance
    · refine .bind inferInstance fun how => ?_
      split <;> infer_instance
termination_by sizeOf body

end

attribute [instance] Stmt.exec_quiet

instance Closure.apply_quiet (c : Closure) (args : List Value) : (c.apply args).Quiet := by
  unfold Closure.apply
  refine .bind inferInstance fun cs => ?_
  extract_lets extra
  refine .bind (execBlock_quiet _ none passOn_quiet _) fun how => ?_
  split <;> infer_instance

end Stencil.Lua
