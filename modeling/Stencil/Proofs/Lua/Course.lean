import Stencil.Proofs.Lua.Output

/-!
# The course of writing

All that is in the output of a program was contributed by calls of writers, in order. A run is
followed from the body of a function until the function is left. A writer is entered only to ask for
texts, and everything it calls is left before it goes on: errors end in the writer, and no coroutine
is left from there.

* `Run.Brief`: parts that only call functions, and raise errors;
* `Run.Asks`: parts that come to a result, whatever happens in the functions they call;
* `Machine.Travels`: what happens up to the step that leaves a function;
* `travels`: every run that ends has such a course.
-/

namespace Stencil.Lua

variable {α β : Type}

/-! ## Parts that only call -/

/-- An action that calls functions, finds out about them, raises an error or ends, and leaves the
output as it is. -/
def Action.Brief : Action → Bytes → Prop
  | .finish _ s, x | .raise _ s, x => s.output = x
  | .call _ _ _ s k, x => s.output = x ∧ ∀ vs s', (k vs s').Brief s'.output
  | .inspect _ _ s k, x => s.output = x ∧ ∀ i s', (k i s').Brief s'.output
  | _, _ => False

/-- A part does no more than to call functions, as long as what comes after it does not. -/
class Run.Brief (r : Run α) : Prop where
  brief : ∀ s k, (∀ a s', (k a s' : Action).Brief s'.output) → (r s k).Brief s.output

namespace Run.Brief

variable {r : Run α} {g : α → Run β}

instance pure (a : α) : Brief (Pure.pure a : Run α) := ⟨fun s _ hk => hk a s⟩

theorem bind (hr : r.Brief) (hg : ∀ a, (g a).Brief) : (r >>= g).Brief :=
  ⟨fun s _ hk => hr.brief s _ fun a s' => (hg a).brief s' _ hk⟩

instance [hr : r.Brief] [hg : ∀ a, (g a).Brief] : (r >>= g).Brief := .bind hr hg

instance store : Brief Run.store := ⟨fun s _ hk => hk s s⟩

instance call (f : Value) (args : List Value) (site : Site) : (Run.call f args site).Brief :=
  ⟨fun _ _ hk => ⟨rfl, hk⟩⟩

instance raise (e : Value) : Brief (Run.raise e : Run α) := ⟨fun _ _ _ => rfl⟩

instance inspect (level line : Nat) : (Run.inspect level line).Brief := ⟨fun _ _ hk => ⟨rfl, hk⟩⟩

instance fault (line : Nat) (message : Bytes) : Brief (Run.fault line message : Run α) :=
  .bind (inspect 0 line) fun _ => raise _

instance complain (message : Bytes) : Brief (Run.complain message : Run α) :=
  .bind (inspect 1 0) fun _ => raise _

instance callOne (f : Value) (args : List Value) (site : Site) : (Run.callOne f args site).Brief :=
  .bind (call f args site) fun _ => pure _

instance ite {c : Prop} [Decidable c] {r r' : Run α} [hr : r.Brief] [hr' : r'.Brief] :
    Brief (if c then r else r') := by
  split
  · exact hr
  · exact hr'

end Run.Brief

instance Run.unsupported_brief (line : Nat) (operation : String) (v : Value) (d : Description) :
    Run.Brief (Run.unsupported line operation v d : Run α) := by
  unfold Run.unsupported
  infer_instance

instance Run.indexThrough_brief (line fuel : Nat) (d : Description) (v w : Value) :
    (Run.indexThrough line fuel d v w).Brief := by
  induction fuel generalizing d v w with
  | zero =>
    unfold Run.indexThrough
    infer_instance
  | succ fuel ih =>
    unfold Run.indexThrough
    refine .bind inferInstance fun _ => ?_
    extract_lets found handler
    clear_value found handler
    split
    · infer_instance
    · split <;> infer_instance

instance Run.index_brief (line : Nat) (d : Description) (object key : Value) :
    (Run.index line d object key).Brief := by
  unfold Run.index
  infer_instance

instance Run.textOf_brief (v : Value) : (Run.textOf v).Brief := by
  unfold Run.textOf
  refine .bind inferInstance fun _ => ?_
  split
  · infer_instance
  · refine .bind inferInstance fun _ => ?_
    split <;> infer_instance

/-! ## Leading on -/

/-- What a run comes to. -/
abbrev Machine.End : Type := Except Value (List Value) × Array Coroutine × Store

variable {e : Machine.End} {n i j : Nat} {m m₁ m' : Machine} {a a₁ a' : Action} {x y z : Bytes}

/-- A run that comes to an end leads from an action to another one. The output is `x` before that
and `y` after it, and what there is more was contributed by calls of writers. -/
structure Machine.Leads (e : End) (n : Nat) (m : Machine) (a : Action) (x : Bytes) (j : Nat)
    (m' : Machine) (a' : Action) (y : Bytes) : Prop where
  le : j ≤ n
  run : m'.run j a' = some e
  writes : ∃ b, y = x ++ b ∧ m.Writes a b m' a'

namespace Machine

namespace Leads

theorem refl (h : m.run n a = some e) (x : Bytes) : Leads e n m a x n m a x :=
  ⟨Nat.le_refl n, h, _, ByteArray.append_empty.symm, .done⟩

theorem trans (h : Leads e n m a x j m₁ a₁ y) (h' : Leads e j m₁ a₁ y i m' a' z) :
    Leads e n m a x i m' a' z := by
  obtain ⟨hle, -, b, rfl, hb⟩ := h
  obtain ⟨hle', hrun, b', rfl, hb'⟩ := h'
  exact ⟨Nat.le_trans hle' hle, hrun, b ++ b', ByteArray.append_assoc, hb.trans hb'⟩

end Leads

/-- A run that has not ended takes a step. -/
theorem exists_run (h : m.run n a = some e) : ∃ i, n = i + 1 := by
  cases n with
  | zero => cases h
  | succ i => exact ⟨i, rfl⟩

theorem run_next (hstep : m.step a = .next m₁ a₁) (h : m.run (i + 1) a = some e) :
    m₁.run i a₁ = some e := by
  rwa [run, hstep] at h

/-- A run that ends takes no notice of the fuel that is left. -/
theorem run_add (h : m.run n a = some e) (d : Nat) : m.run (n + d) a = some e := by
  induction n generalizing m a with
  | zero => cases h
  | succ n ih =>
    rw [Nat.succ_add, run]
    rw [run] at h
    split at h
    · exact ih h
    · exact h

/-- A run comes to one end. -/
theorem run_unique {e' : End} (h : m.run n a = some e) (h' : m.run j a = some e') : e = e' := by
  have := run_add h j
  rw [Nat.add_comm, run_add h' n] at this
  exact (Option.some.inj this).symm

/-- A step that calls no writer. -/
theorem Leads.one (ha : m.speaks a = false) (hstep : m.step a = .next m₁ a₁)
    (h : m.run (i + 1) a = some e) (x : Bytes) : Leads e (i + 1) m a x i m₁ a₁ x :=
  ⟨Nat.le_succ i, run_next hstep h, _, ByteArray.append_empty.symm, .one ha hstep⟩

/-! ## Courses -/

/-- An action whose step leaves a function. -/
structure Leaves (g : Ground) (x : Bytes) (m : Machine) (a : Action) : Prop where
  silent : m.speaks a = false
  exit : Exit Store.output g x (m.step a)

/-- Every part that writes nothing itself, in the extent of a function, leads to the step that
leaves it. -/
def Travels (e : End) (n : Nat) : Prop :=
  ∀ (g : Ground) (m : Machine) (a : Action) (x : Bytes), g.Firm → m.Inside Store.output g →
    a.Keeps Store.output x → m.run n a = some e →
    ∃ j m' a' y, Leads e n m a x (j + 1) m' a' y ∧ Leaves g y m' a'

/-- What is contributed from the body of a function on: by a writer itself, and by what is called. -/
inductive Performs (m : Machine) (f : Value) (args : List Value) (s : Store) (m' : Machine)
    (a' : Action) : Bytes → Prop
  | silent {b : Bytes} : f.writes = false → m.Writes (body s f args) b m' a' →
    Performs m f args s m' a' b
  | writer {w : Writer} {m₁ : Machine} {a₁ : Action} {b b' : Bytes} : f = .builtin w.builtin →
    w.Speaks true args m s b m₁ a₁ → m₁.Writes a₁ b' m' a' → Performs m f args s m' a' (b ++ b')

/-- A function that is entered contributes what is contributed from its body on. -/
theorem Performs.writes {f : Value} {args : List Value} {s : Store} {b : Bytes}
    (h : Performs m₁ f args s m' a' b) (hentry : m.entry a = some (f, args, s))
    (hstep : m.step a = .next m₁ (body s f args)) : m.Writes a b m' a' := by
  cases h with
  | silent hf h =>
    refine .step ?_ hstep h
    rw [speaks, hentry]
    exact hf
  | @writer w _ _ _ _ hf hspeaks h =>
    subst hf
    rw [Writer.body_builtin] at hstep
    exact .call hentry hstep hspeaks h

/-- Every function that is entered is left. -/
def Enters (e : End) (n : Nat) : Prop :=
  ∀ (g : Ground) (m : Machine) (f : Value) (args : List Value) (s : Store) (caller : Activation)
    (site : Site), g.Firm → m.Inside Store.output g → m.running = activate s caller f site →
    m.run n (body s f args) = some e →
    ∃ j m' a' b, j + 1 ≤ n ∧ m'.run (j + 1) a' = some e ∧ Performs m f args s m' a' b ∧
      Leaves g (s.output ++ b) m' a'

/-! ## Protected parts -/

variable {k : Except Value (List Value) → Store → Action} {rest : List Frame} {s : Store}

theorem step_finish_protect (hstack : m.stack = .protect none k :: rest) (how : Signal) :
    ∃ vs, m.step (.finish how s) = .next { m with stack := rest } (k (.ok vs) s) := by
  rw [step]
  unfold finish
  rw [hstack]
  exact ⟨_, rfl⟩

theorem step_raise_protect (hstack : m.stack = .protect none k :: rest) (v : Value) :
    m.step (.raise v s) = .next { m with stack := rest } (k (.error v) s) := by
  rw [step, raise, hstack]
  rfl

/-- A machine in which nothing that is called can leave the coroutine, if another one waits. -/
structure Calm (m : Machine) : Prop where
  stays : m.resumers ≠ [] → (m.running.yields && passesYields m.running) = false
  coroutines : Coroutine.AllKeep Store.output m.coroutines

/-- A run leads to a machine that is the same but for its coroutines. -/
def Regains (e : End) (n : Nat) (m : Machine) (a : Action) (x : Bytes) (m' : Machine) (a' : Action)
    (y : Bytes) : Prop :=
  ∃ coroutines j, Coroutine.AllKeep Store.output coroutines ∧
    Leads e n m a x j { m' with coroutines := coroutines } a' y

theorem Leads.regains (h : Leads e n m a x i m₁ a₁ y)
    (hthread : m₁.thread = m'.thread) (hrunning : m₁.running = m'.running)
    (hstack : m₁.stack = m'.stack) (hresumers : m₁.resumers = m'.resumers)
    (hkeep : Coroutine.AllKeep Store.output m₁.coroutines) : Regains e n m a x m' a₁ y := by
  refine ⟨m₁.coroutines, i, hkeep, ?_⟩
  rwa [← hthread, ← hrunning, ← hstack, ← hresumers]

theorem Regains.step {m₂ : Machine} (ha : m.speaks a = false) (hstep : m.step a = .next m₁ a₁)
    (hrun : m.run (i + 1) a = some e) (h : Regains e i m₁ a₁ x m₂ a' y) :
    Regains e (i + 1) m a x m₂ a' y := by
  obtain ⟨coroutines, j, hkeep, hleads⟩ := h
  exact ⟨coroutines, j, hkeep, (Leads.one ha hstep hrun x).trans hleads⟩

/-- Where a function stands that a part whose errors end calls. -/
def protectedGround (m : Machine) (line : Nat) (k' : List Value → Store → Action)
    (k : Except Value (List Value) → Store → Action) (rest : List Frame) : Ground :=
  ⟨m.thread, .call m.running line k' :: .protect none k :: rest, m.resumers⟩

section

variable {f : Value} {args : List Value} {site : Site} {k' : List Value → Store → Action}

/-- A function that is left goes back to the part that called it, or its error ends there. -/
theorem Leads.left (h : Leads e n m a x (j + 1) m' a' y)
    (hstack : m₁.stack = .protect none k :: rest)
    (hleaves : Leaves (protectedGround m₁ site.line k' k rest) y m' a') :
    (∃ vs s', Regains e n m a x m₁ (k' vs s') s'.output) ∨
      ∃ v s', Regains e n m a x { m₁ with stack := rest } (k (.error v) s') s'.output := by
  obtain ⟨hsilent, hexit⟩ := hleaves
  generalize hprogress : m'.step a' = progress at hexit
  cases hexit with
  | @returned m₂ s' how hback hstack' hx =>
    rw [← hx] at h
    obtain ⟨vs, hnext⟩ : ∃ vs, m₂.finish how s' = .next { m₂ with
        running := m₁.running
        stack := .protect none k :: rest } (k' vs s') := by
      unfold finish
      rw [hstack']
      exact ⟨_, rfl⟩
    exact .inl ⟨vs, s', (h.trans (.one hsilent (hprogress.trans hnext) h.run _)).regains
      hback.thread rfl hstack.symm hback.resumers hback.coroutines⟩
  | @thrown m₂ s' v hback hx =>
    rw [← hx] at h
    have hnext : m₂.unwind v s' (protectedGround m₁ site.line k' k rest).tail = .next { m₂ with
        running := m₁.running
        stack := rest } (k (.error v) s') := rfl
    exact .inr ⟨v, s', (h.trans (.one hsilent (hprogress.trans hnext) h.run _)).regains
      hback.thread rfl rfl hback.resumers hback.coroutines⟩
  | failed v coroutines _ hprotected hx => cases hprotected

/-- A function that cannot be called is an error. -/
theorem Calm.uncalled (hm : m.Calm) (hstack : m.stack = .protect none k :: rest)
    (hroom : ∀ entered args', callable s 100 f args = some (entered, args') →
      m.hasRoom entered site s = false)
    {message : Value} (hcall : m.call f args site s k' = (m, .raise message s))
    (hrun : m.run (i + 1) (.call f args site s k') = some e) :
    Regains e (i + 1) m (.call f args site s k') s.output { m with stack := rest }
      (k (.error message) s) s.output := by
  have hstep : m.step (.call f args site s k') = .next m (.raise message s) := by
    rw [step, hcall]
  have hsilent : m.speaks (.call f args site s k') = false := by
    rw [speaks, entry]
    cases hcallable : callable s 100 f args with
    | none => rfl
    | some found => simp only [hroom found.1 found.2 hcallable, Bool.false_eq_true, ↓reduceIte]
  obtain ⟨i, rfl⟩ := exists_run (run_next hstep hrun)
  have hraised := Leads.one rfl (step_raise_protect hstack message) (run_next hstep hrun) s.output
  exact Regains.step hsilent hstep hrun (hraised.regains rfl rfl rfl rfl hm.coroutines)

/-- A function that is called is left, with results or with an error. -/
theorem Calm.called (hE : ∀ j < n, Enters e j) (hm : m.Calm)
    (hstack : m.stack = .protect none k :: rest) (hi : i < n)
    (hrun : m.run (i + 1) (.call f args site s k') = some e) :
    (∃ vs s', Regains e (i + 1) m (.call f args site s k') s.output m (k' vs s') s'.output) ∨
      ∃ v s', Regains e (i + 1) m (.call f args site s k') s.output { m with stack := rest }
        (k (.error v) s') s'.output := by
  rcases call_cases m f args site s k' with ⟨entered, args', hcallable, hroom, hcall⟩ |
    ⟨hroom, message, hcall⟩
  · have hstep : m.step (.call f args site s k') =
        .next (m.entered entered site s k') (body s entered args') := by rw [step, hcall]
    have hentry : m.entry (.call f args site s k') = some (entered, args', s) := by
      rw [entry, hcallable]
      exact if_pos hroom
    let g := protectedGround m site.line k' k rest
    have hg : g.Firm := ⟨rfl, .inl rfl⟩
    have hinside : (m.entered entered site s k').Inside Store.output g :=
      ⟨true, [], g.tail, congrArg _ hstack, List.forall_mem_nil _, fun _ h => hm.stays h,
        .own rfl rfl, hm.coroutines⟩
    obtain ⟨j, m', a', b, hle, hrun', hperforms, hleaves⟩ :=
      hE i hi g _ entered args' s m.running site hg hinside rfl (run_next hstep hrun)
    have hleads : Leads e (i + 1) m (.call f args site s k') s.output (j + 1) m' a'
        (s.output ++ b) :=
      ⟨Nat.le_succ_of_le hle, hrun', b, rfl, hperforms.writes hentry hstep⟩
    exact hleads.left hstack hleaves
  · exact .inr ⟨message, s, hm.uncalled hstack hroom hcall hrun⟩

end

/-- A part that only calls functions comes to an end or an error, where its errors end. -/
theorem Calm.regains (hE : ∀ j < n, Enters e j) {a : Action} (ha : a.Brief x) (hm : m.Calm)
    (hstack : m.stack = .protect none k :: rest) (hi : i ≤ n) (hrun : m.run i a = some e) :
    ∃ r s', Regains e i m a x { m with stack := rest } (k r s') s'.output := by
  -- By induction on what the part does itself; what it calls is known to be left.
  induction a generalizing m i x with
  | finish how s =>
    obtain ⟨i, rfl⟩ := exists_run hrun
    obtain ⟨vs, hstep⟩ := step_finish_protect (s := s) hstack how
    refine ⟨.ok vs, s, m.coroutines, i, hm.coroutines, ?_⟩
    rw [show s.output = x from ha]
    exact .one rfl hstep hrun x
  | raise v s =>
    obtain ⟨i, rfl⟩ := exists_run hrun
    refine ⟨.error v, s, m.coroutines, i, hm.coroutines, ?_⟩
    rw [show s.output = x from ha]
    exact .one rfl (step_raise_protect hstack v) hrun x
  | inspect level line s k' ih =>
    obtain ⟨i, rfl⟩ := exists_run hrun
    obtain ⟨rfl, hk⟩ := ha
    obtain ⟨r, s', h⟩ := ih _ s (hk _ s) hm hstack (Nat.le_of_succ_le hi) (run_next rfl hrun)
    exact ⟨r, s', h.step rfl rfl hrun⟩
  | call f args site s k' ih =>
    obtain ⟨i, rfl⟩ := exists_run hrun
    obtain ⟨rfl, hk⟩ := ha
    rcases hm.called hE hstack hi hrun with ⟨vs, s', coroutines, j, hkeep, hleads⟩ | ⟨v, s', h⟩
    · have hcalm : Calm { m with coroutines := coroutines } := ⟨hm.stays, hkeep⟩
      obtain ⟨r, s'', coroutines', j', hkeep', hleads'⟩ :=
        ih vs s' (hk vs s') hcalm hstack (Nat.le_trans hleads.le hi) hleads.run
      exact ⟨r, s'', coroutines', j', hkeep', hleads.trans hleads'⟩
    · exact ⟨.error v, s', h⟩
  | _ => exact ha.elim

end Machine

/-! ## Asking -/

/-- A part comes to a result, whatever happens in the functions that it calls. -/
def Run.Asks (e : Machine.End) (n : Nat) (r : Run α) : Prop :=
  ∀ (m : Machine) (s : Store) (k : α → Store → Action) (i : Nat), m.Calm → i ≤ n →
    m.run i (r s k) = some e →
    ∃ x s', m.Regains e i (r s k) s.output m (k x s') s'.output

namespace Run.Asks

variable {r : Run α} {g : α → Run β}

theorem pure (x : α) : Asks e n (Pure.pure x : Run α) := fun m s _ i hm _ hrun =>
  ⟨x, s, m.coroutines, i, hm.coroutines, .refl hrun _⟩

theorem store : Asks e n Run.store := fun m s _ i hm _ hrun =>
  ⟨s, s, m.coroutines, i, hm.coroutines, .refl hrun _⟩

theorem bind (hr : Asks e n r) (hg : ∀ x, Asks e n (g x)) : Asks e n (r >>= g) := by
  intro m s k i hm hi hrun
  obtain ⟨x, s', coroutines, j, hkeep, hleads⟩ := hr m s _ i hm hi hrun
  obtain ⟨y, s'', coroutines', j', hkeep', hleads'⟩ := hg x { m with coroutines := coroutines } s' k j
    ⟨hm.stays, hkeep⟩ (Nat.le_trans hleads.le hi) hleads.run
  exact ⟨y, s'', coroutines', j', hkeep', hleads.trans hleads'⟩

theorem protect (hE : ∀ j < n, Machine.Enters e j) (r : Run (List Value)) [hr : r.Brief] :
    Asks e n (Run.protect r none) := by
  intro m s k i hm hi hrun
  obtain ⟨i, rfl⟩ := Machine.exists_run hrun
  have hbrief : (r.toAction s).Brief s.output := hr.brief s _ fun _ _ => rfl
  have hrun' : Machine.run i { m with stack := .protect none k :: m.stack } (r.toAction s) = some e :=
    Machine.run_next rfl hrun
  have hcalm : Machine.Calm { m with stack := .protect none k :: m.stack } :=
    ⟨hm.stays, hm.coroutines⟩
  obtain ⟨x, s', h⟩ := hcalm.regains hE hbrief rfl (Nat.le_of_succ_le hi) hrun'
  exact ⟨x, s', h.step rfl rfl hrun⟩

end Run.Asks

namespace Engine

theorem failureOf_asks (hE : ∀ j < n, Machine.Enters e j) (v : Value) :
    (failureOf v).Asks e n := by
  unfold failureOf
  refine .bind .store fun s => ?_
  extract_lets raised
  have hraised : raised.Asks e n := by
    refine .bind (.protect hE _) fun r => ?_
    split <;> exact .pure _
  clear_value raised
  split
  · split
    · exact .pure _
    · exact hraised
  · exact hraised

theorem functionField_asks (hE : ∀ j < n, Machine.Enters e j) (place : Nat) (name : String) :
    (functionField place name).Asks e n := by
  rw [functionField]
  refine .bind (.protect hE _) fun r => ?_
  split
  · exact .bind (failureOf_asks hE _) fun _ => .pure _
  · dsimp only
    split
    · exact .pure _
    · exact .bind .store fun _ => .pure _

/-- Asking for the text of a value comes to a text or to the reason why there is none. -/
theorem globalText_asks (hE : ∀ j < n, Machine.Enters e j) (v : Value) :
    (globalText v).Asks e n := by
  rw [globalText]
  refine .bind (functionField_asks hE _ _) fun r => ?_
  split
  · exact .pure _
  · refine .bind (.protect hE _) fun r => ?_
    split
    · exact .bind (failureOf_asks hE _) fun _ => .pure _
    · dsimp only
      split
      · exact .pure _
      · exact .bind .store fun _ => .pure _

end Engine

/-! ## Following a run -/

/-- A writer that is called contributes what its arguments ask for, and then ends or raises an
error. -/
theorem Writer.exists_speaks (hE : ∀ j < n, Machine.Enters e j) (w : Writer) (vs : List Value)
    {s : Store} {first : Bool} (hm : m.Calm) (hi : i ≤ n)
    (hrun : m.run i ((w.speak first vs).toAction s) = some e) :
    ∃ b coroutines a' j, w.Speaks first vs m s b { m with coroutines := coroutines } a' ∧
      a'.Keeps Store.output (s.output ++ b) ∧ Coroutine.AllKeep Store.output coroutines ∧ j ≤ i ∧
      Machine.run j { m with coroutines := coroutines } a' = some e := by
  -- From one argument to the next the machine is the same but for its coroutines.
  induction vs generalizing first m s i with
  | nil =>
    exact ⟨w.ending, m.coroutines, .finish (.ret []) (s.emit w.ending), i, .ended, rfl,
      hm.coroutines, Nat.le_refl i, hrun⟩
  | cons v vs ih =>
    cases hskips : w.skips v with
    | true =>
      rw [speak_skips hskips] at hrun
      obtain ⟨b, coroutines, a', j, hspeaks, h⟩ := ih hm hi hrun
      exact ⟨b, coroutines, a', j, .skipped hskips hspeaks, h⟩
    | false =>
      rw [toAction_speak hskips] at hrun
      obtain ⟨answer, s', coroutines, j, hkeep, hle, hrun', nested, houtput, hwrites⟩ :=
        Engine.globalText_asks hE v m _ (w.answer vs) i hm hi hrun
      cases answer with
      | error cause =>
        refine ⟨w.separator first ++ nested, coroutines, w.answer vs (.error cause) s', j,
          .refused hskips hwrites, ?_, hkeep, hle, hrun'⟩
        obtain ⟨place, s'', hanswer, hs''⟩ := w.answer_error vs cause s'
        rw [hanswer, ← ByteArray.append_assoc]
        exact hs''.trans houtput
      | ok text =>
        have hcalm : Machine.Calm { m with coroutines := coroutines } := ⟨hm.stays, hkeep⟩
        obtain ⟨b, coroutines', a', j', hspeaks, hkeeps, hkeep', hle', hrun''⟩ :=
          ih hcalm (Nat.le_trans hle hi) hrun'
        refine ⟨w.separator first ++ nested ++ text ++ b, coroutines', a', j',
          .told hskips hwrites houtput hspeaks, ?_, hkeep', Nat.le_trans hle' hle, hrun''⟩
        have hsum : s.output ++ (w.separator first ++ nested ++ text ++ b) =
            (s'.emit text).output ++ b := by
          show _ = s'.output ++ text ++ b
          rw [houtput]
          show _ = s.output ++ w.separator first ++ nested ++ text ++ b
          simp only [ByteArray.append_assoc]
        rwa [hsum]

namespace Machine

variable {g : Ground}

/-- A machine in the extent of a function that a library function called is calm. -/
theorem calm_of_inside (hm : m.Inside Store.output g)
    (hstays : passesYields m.running = false) : m.Calm := by
  obtain ⟨own, frames, base, hm⟩ := hm
  exact ⟨fun _ => by rw [hstays, Bool.and_false], hm.coroutines⟩

/-- Nothing that a writer calls leaves the coroutine. -/
theorem passesYields_writer (w : Writer) (s : Store) (caller : Activation) (site : Site) :
    passesYields (activate s caller (.builtin w.builtin) site) = false := by
  cases w <;> rfl

/-- A function that writes is entered by an action that calls a writer. -/
theorem exists_entry (h : m.speaks a = true) :
    ∃ w args s, m.entry a = some (.builtin (Writer.builtin w), args, s) := by
  rw [speaks] at h
  split at h
  · next f args s hentry =>
    obtain ⟨w, rfl⟩ := Writer.exists_of_writes h
    exact ⟨w, args, s, hentry⟩
  · cases h

theorem travels_succ (h : ∀ j < n, Travels e j ∧ Enters e j) : Travels e n := by
  intro g m a x hg hm ha hrun
  obtain ⟨i, rfl⟩ := exists_run hrun
  obtain ⟨htravels, henters⟩ := h i (Nat.lt_succ_self i)
  cases hspeaks : m.speaks a with
  | false =>
    have hbody : ∀ callee args s, m.entry a = some (callee, args, s) →
        (body s callee args).Keeps Store.output s.output := by
      intro callee args s hentry
      rw [speaks, hentry] at hspeaks
      exact body_quiet hspeaks s args
    have houtcome := hm.outcome_step hg ha hbody
    generalize hstep : m.step a = progress at houtcome
    cases houtcome with
    | @inside m₁ a₁ hm₁ ha₁ =>
      obtain ⟨j, m', a', y, hleads, hleaves⟩ :=
        htravels g m₁ a₁ x hg hm₁ ha₁ (run_next hstep hrun)
      exact ⟨j, m', a', y, (Leads.one hspeaks hstep hrun x).trans hleads, hleaves⟩
    | exit hexit =>
      rw [← hstep] at hexit
      exact ⟨i, m, a, x, .refl hrun x, hspeaks, hexit⟩
  | true =>
    obtain ⟨w, args, s, hentry⟩ := exists_entry hspeaks
    obtain ⟨caller, site, m₁, hstep, hm₁, hrunning, rfl⟩ := hm.entered ha hentry fun _ => nofun
    obtain ⟨j, m', a', b, hle, hrun', hperforms, hleaves⟩ :=
      henters g m₁ _ args s caller site hg hm₁ hrunning (run_next hstep hrun)
    exact ⟨j, m', a', s.output ++ b,
      ⟨Nat.le_succ_of_le hle, hrun', b, rfl, hperforms.writes hentry hstep⟩, hleaves⟩

theorem enters_of_travels (hT : ∀ j ≤ n, Travels e j) (hE : ∀ j < n, Enters e j) :
    Enters e n := by
  intro g m f args s caller site hg hm hrunning hrun
  cases hwrites : f.writes with
  | false =>
    obtain ⟨j, m', a', y, ⟨hle, hrun', b, rfl, hb⟩, hleaves⟩ :=
      hT n (Nat.le_refl n) g m _ s.output hg hm (body_quiet hwrites s args) hrun
    exact ⟨j, m', a', b, hle, hrun', .silent hwrites hb, hleaves⟩
  | true =>
    obtain ⟨w, rfl⟩ := Writer.exists_of_writes hwrites
    rw [Writer.body_builtin] at hrun
    have hcalm : m.Calm := calm_of_inside hm (hrunning ▸ passesYields_writer w s caller site)
    obtain ⟨b, coroutines, a₁, j, hspeaks, hkeeps, hkeep, hle, hrun'⟩ :=
      w.exists_speaks hE args hcalm (Nat.le_refl n) hrun
    have hm₁ : Machine.Inside Store.output g { m with coroutines := coroutines } := by
      obtain ⟨own, frames, base, hstack, hfits, hadmitted, hbelow, -⟩ := hm
      exact ⟨own, frames, base, hstack, hfits, hadmitted, hbelow, hkeep⟩
    obtain ⟨j', m', a', y, ⟨hle', hrun'', b', rfl, hb'⟩, hleaves⟩ :=
      hT j hle g _ a₁ (s.output ++ b) hg hm₁ hkeeps hrun'
    rw [ByteArray.append_assoc] at hleaves
    exact ⟨j', m', a', b ++ b', Nat.le_trans hle' hle, hrun'', .writer rfl hspeaks hb', hleaves⟩

/-- In every run that ends, functions are left, and what is in the output then was contributed by
calls of writers. -/
theorem travels (e : End) (n : Nat) : Travels e n ∧ Enters e n := by
  -- A writer asks for texts in fewer steps than it takes itself, and goes on in as many at most.
  induction n using Nat.strongRecOn with
  | _ n ih =>
    have htravels : Travels e n := travels_succ ih
    refine ⟨htravels, enters_of_travels (fun j hj => ?_) fun j hj => (ih j hj).2⟩
    rcases Nat.lt_or_eq_of_le hj with hlt | rfl
    · exact (ih j hlt).1
    · exact htravels

end Machine

end Stencil.Lua
