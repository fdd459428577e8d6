import Stencil.Proofs.Lua.Extent
import Stencil.Proofs.Lua.Quiet.Library

/-!
# What writers contribute

Three functions write to the output of a program. A call of one of them contributes the texts of its
arguments, as the global `tostring` gives them, with separators between them and an ending. Finding
a text may call other functions, and these may write as well: what they contribute comes before the
text that they were called for.

* `Writer.speak`: the three functions, as one;
* `Machine.Writes`: what the calls of writers contribute, between two actions of a run;
* `Writer.Speaks`: what one call of a writer contributes;
* `Writes.steps`: what is between the two actions is what the machine does.
-/

namespace Stencil.Lua

theorem Store.emit_empty (s : Store) : s.emit ByteArray.empty = s := by
  rw [emit, ByteArray.append_empty]

/-! ## Writers -/

/-- A function that writes to the output. -/
inductive Writer where
  | write
  | writeln
  | print

namespace Writer

/-- The function in the library. -/
def builtin : Writer → Builtin
  | write => .write
  | writeln => .writeln
  | print => .print

/-- Whether an argument is passed over. -/
def skips : Writer → Value → Bool
  | write, v | writeln, v => v.isNil
  | print, _ => false

/-- What comes before the text of an argument. -/
def separator : Writer → Bool → Bytes
  | print, false => bytesOf "\t"
  | _, _ => ByteArray.empty

/-- What comes after the texts of all arguments. -/
def ending : Writer → Bytes
  | write => ByteArray.empty
  | writeln | print => bytesOf "\n"

/-- Writes the texts of arguments, the first one or later ones, and then the ending. -/
def speak (w : Writer) : Bool → List Value → Run (List Value)
  | _, [] => do
    Run.modify fun s => s.emit w.ending
    return []
  | first, v :: vs =>
    if w.skips v then w.speak first vs
    else do
      Run.modify fun s => s.emit (w.separator first)
      let b ← Engine.textOf v
      Run.modify fun s => s.emit b
      w.speak false vs

/-- What a writer does once it knows the text of an argument, or why there is none. -/
def answer (w : Writer) (vs : List Value) (r : Except ScriptError Bytes) : Store → Action :=
  match r with
  | .ok b => fun s => (w.speak false vs).toAction (s.emit b)
  | .error cause => (Engine.fail cause : Run (List Value)).toAction

variable {w : Writer} {v : Value} {first : Bool} {vs : List Value} {s : Store}

theorem speak_skips (h : w.skips v = true) (first : Bool) (vs : List Value) :
    w.speak first (v :: vs) = w.speak first vs := by
  rw [speak, if_pos h]

theorem speak_cons (h : w.skips v = false) (first : Bool) (vs : List Value) (s : Store)
    (k : List Value → Store → Action) :
    w.speak first (v :: vs) s k =
      Engine.textOf v (s.emit (w.separator first)) fun b s => w.speak false vs (s.emit b) k := by
  rw [speak, if_neg (by simp [h])]
  rfl

/-- A writer asks for the text of an argument. -/
theorem toAction_speak (h : w.skips v = false) (first : Bool) (vs : List Value) (s : Store) :
    (w.speak first (v :: vs)).toAction s =
      Engine.globalText v (s.emit (w.separator first)) (w.answer vs) := by
  rw [Run.toAction, speak_cons h]
  show Engine.globalText v (s.emit (w.separator first)) _ = _
  congr 1
  funext r
  cases r <;> rfl

theorem answer_error (w : Writer) (vs : List Value) (cause : ScriptError) (s : Store) :
    ∃ place s', w.answer vs (.error cause) s = .raise (.object place) s' ∧ s'.output = s.output :=
  ⟨_, _, rfl, rfl⟩

/-- Texts are written as they are asked for, one after another. -/
theorem writeValues_eq_speak (hskips : ∀ v, w.skips v = v.isNil)
    (hseparator : ∀ first, w.separator first = ByteArray.empty) (first : Bool) (vs : List Value)
    (s : Store) (k : List Value → Store → Action) :
    Engine.writeValues vs s (fun _ s => w.speak first [] s k) = w.speak first vs s k := by
  induction vs generalizing first s with
  | nil => rfl
  | cons v vs ih =>
    show Engine.writeValue v s (fun _ s => Engine.writeValues vs s _) = _
    cases hnil : v.isNil with
    | true =>
      have hvalue : Engine.writeValue v = pure () := by
        rw [Engine.writeValue, hnil]
        rfl
      rw [hvalue, speak_skips ((hskips v).trans hnil)]
      exact ih first s
    | false =>
      have hvalue : Engine.writeValue v = (do
          let b ← Engine.textOf v
          Run.modify fun s => s.emit b) := by
        rw [Engine.writeValue, hnil]
        rfl
      rw [hvalue, speak_cons ((hskips v).trans hnil), hseparator, s.emit_empty]
      show Engine.textOf v s _ = Engine.textOf v s _
      congr 1
      funext b s
      exact ih false _

theorem printRest_eq_speak (vs : List Value) (s : Store) (k : List Value → Store → Action) :
    Engine.printRest vs s (fun _ s => print.speak false [] s k) = print.speak false vs s k := by
  induction vs generalizing s with
  | nil => rfl
  | cons v vs ih =>
    rw [speak_cons rfl]
    show Engine.textOf v _ _ = Engine.textOf v _ _
    congr 1
    funext b s
    exact ih _

/-- The three functions are one. -/
theorem apply_builtin (w : Writer) (vs : List Value) : w.builtin.apply vs = w.speak true vs := by
  funext s k
  cases w with
  | write =>
    rw [← writeValues_eq_speak (w := write) (fun _ => rfl) fun first => by cases first <;> rfl]
    show Engine.writeValues vs s (fun _ s => k [] s) =
      Engine.writeValues vs s (fun _ s => k [] (s.emit ByteArray.empty))
    simp only [Store.emit_empty]
  | writeln =>
    exact writeValues_eq_speak (w := writeln) (fun _ => rfl)
      (fun first => by cases first <;> rfl) true vs s k
  | print =>
    cases vs with
    | nil => rfl
    | cons v vs =>
      show Engine.textOf v s (fun b s => Engine.printRest vs (s.emit b)
        (fun _ s => print.speak false [] s k)) = Engine.textOf v (s.emit ByteArray.empty) _
      rw [s.emit_empty]
      congr 1
      funext b s
      exact printRest_eq_speak vs _ k

theorem body_builtin (w : Writer) (s : Store) (vs : List Value) :
    Machine.body s (.builtin w.builtin) vs = (w.speak true vs).toAction s := by
  rw [← apply_builtin]
  rfl

/-- A function that writes is one of the three. -/
theorem exists_of_writes {f : Value} (h : f.writes = true) : ∃ w : Writer, f = .builtin w.builtin := by
  cases f with
  | builtin b =>
    cases b with
    | write => exact ⟨write, rfl⟩
    | writeln => exact ⟨writeln, rfl⟩
    | print => exact ⟨print, rfl⟩
    | _ => cases h
  | _ => cases h

end Writer

/-! ## Contributions -/

/-- Whether an action enters a function that writes. -/
def Machine.speaks (m : Machine) (a : Action) : Bool :=
  match m.entry a with
  | some (f, _, _) => f.writes
  | none => false

mutual

/-- What the calls of writers contribute from an action on, up to another one. -/
inductive Machine.Writes : Machine → Action → Bytes → Machine → Action → Prop
  | done {m : Machine} {a : Action} : Machine.Writes m a ByteArray.empty m a
  /-- A step that calls no writer contributes nothing. -/
  | step {m m₁ m' : Machine} {a a₁ a' : Action} {b : Bytes} :
    m.speaks a = false → m.step a = .next m₁ a₁ → Machine.Writes m₁ a₁ b m' a' →
    Machine.Writes m a b m' a'
  /-- A call of a writer. -/
  | call {m m₁ m₂ m' : Machine} {a a₂ a' : Action} {w : Writer} {args : List Value} {s : Store}
    {b b' : Bytes} :
    m.entry a = some (.builtin w.builtin, args, s) →
    m.step a = .next m₁ ((w.speak true args).toAction s) →
    Writer.Speaks w true args m₁ s b m₂ a₂ → Machine.Writes m₂ a₂ b' m' a' →
    Machine.Writes m a (b ++ b') m' a'

/-- What a call of a writer contributes for arguments, the first one or later ones. -/
inductive Writer.Speaks : Writer → Bool → List Value → Machine → Store → Bytes →
    Machine → Action → Prop
  /-- After the arguments comes the ending. -/
  | ended {w : Writer} {first : Bool} {m : Machine} {s : Store} :
    Writer.Speaks w first [] m s w.ending m (.finish (.ret []) (s.emit w.ending))
  /-- An argument that is passed over contributes nothing. -/
  | skipped {w : Writer} {first : Bool} {v : Value} {vs : List Value} {m m' : Machine} {s : Store}
    {b : Bytes} {a' : Action} :
    w.skips v = true → Writer.Speaks w first vs m s b m' a' → Writer.Speaks w first (v :: vs) m s b m' a'
  /-- Any other one contributes the separator, what is written while its text is found, and its
  text. The writer goes on where it stood, with all that was contributed before the text in the
  output; other coroutines may have changed. -/
  | told {w : Writer} {first : Bool} {v : Value} {vs : List Value} {m m' : Machine}
    {coroutines : Array Coroutine} {s s₁ : Store} {nested text b : Bytes} {a' : Action} :
    w.skips v = false →
    Machine.Writes m (Engine.globalText v (s.emit (w.separator first)) (w.answer vs)) nested
      { m with coroutines := coroutines } (w.answer vs (.ok text) s₁) →
    s₁.output = s.output ++ w.separator first ++ nested →
    Writer.Speaks w false vs { m with coroutines := coroutines } (s₁.emit text) b m' a' →
    Writer.Speaks w first (v :: vs) m s (w.separator first ++ nested ++ text ++ b) m' a'
  /-- If there is no text, the call ends there with an error. -/
  | refused {w : Writer} {first : Bool} {v : Value} {vs : List Value} {m : Machine}
    {coroutines : Array Coroutine} {s s₁ : Store} {nested : Bytes} {cause : ScriptError} :
    w.skips v = false →
    Machine.Writes m (Engine.globalText v (s.emit (w.separator first)) (w.answer vs)) nested
      { m with coroutines := coroutines } (w.answer vs (.error cause) s₁) →
    Writer.Speaks w first (v :: vs) m s (w.separator first ++ nested)
      { m with coroutines := coroutines } (w.answer vs (.error cause) s₁)

end

/-- What is contributed in two parts is contributed one part after the other. -/
theorem Machine.Writes.trans {m m₁ m' : Machine} {a a₁ a' : Action} {b b' : Bytes} :
    m.Writes a b m₁ a₁ → m₁.Writes a₁ b' m' a' → m.Writes a (b ++ b') m' a'
  | .done, h' => by rwa [ByteArray.empty_append]
  | .step ha hstep h, h' => .step ha hstep (h.trans h')
  | .call hentry hstep hspeaks h, h' => by
    rw [ByteArray.append_assoc]
    exact .call hentry hstep hspeaks (h.trans h')

theorem Machine.Writes.one {m m₁ : Machine} {a a₁ : Action} (ha : m.speaks a = false)
    (hstep : m.step a = .next m₁ a₁) : m.Writes a ByteArray.empty m₁ a₁ :=
  .step ha hstep .done

mutual

/-- The machine comes from the one action to the other. -/
theorem Machine.Writes.steps {m m' : Machine} {a a' : Action} {b : Bytes} :
    m.Writes a b m' a' → ∃ n, Machine.Steps n m a m' a'
  | .done => ⟨0, .refl _ _⟩
  | .step _ hstep h => by
    obtain ⟨n, hn⟩ := h.steps
    exact ⟨1 + n, (Machine.Steps.one hstep).trans hn⟩
  | .call _ hstep hspeaks h => by
    obtain ⟨n, hn⟩ := hspeaks.steps
    obtain ⟨n', hn'⟩ := h.steps
    exact ⟨1 + n + n', ((Machine.Steps.one hstep).trans hn).trans hn'⟩

theorem Writer.Speaks.steps {w : Writer} {first : Bool} {vs : List Value} {m m' : Machine}
    {s : Store} {b : Bytes} {a' : Action} :
    w.Speaks first vs m s b m' a' →
      ∃ n, Machine.Steps n m ((w.speak first vs).toAction s) m' a'
  | .ended => ⟨0, .refl _ _⟩
  | .skipped hskips h => by
    rw [Writer.speak_skips hskips]
    exact h.steps
  | .told hskips hasked _ h => by
    rw [Writer.toAction_speak hskips]
    obtain ⟨n, hn⟩ := hasked.steps
    obtain ⟨n', hn'⟩ := h.steps
    exact ⟨n + n', hn.trans hn'⟩
  | .refused hskips hasked => by
    rw [Writer.toAction_speak hskips]
    exact hasked.steps

end

end Stencil.Lua
