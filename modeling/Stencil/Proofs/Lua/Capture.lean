import Stencil.Proofs.Lua.Compiling
import Stencil.Proofs.Lua.Course

/-!
# Captured output

The output of a program is what its calls of writers contributed, in the order in which they were
made: while its imports were loaded, while its environment was made, while it ran, and while its
first result was asked for its text. That text is the end of it. A program whose run ends in an error
has no output. All of this is so on any system, whatever that replies to what it is asked.

* `Session.Ran`: a part of a program that came to its end, with what it contributed;
* `Session.Loads`: imports that were loaded, with what they contributed;
* `Session.Surrounds`: an environment that was made, with what was contributed;
* `Program.Completes`: a unit that came to its end, with what it contributed and its text;
* `output_captured`: the output of a program.
-/

namespace Stencil.Lua

open Machine (Gives Room)

variable {t t' : Session} {thread size : Nat} {yields : Bool} {r : Run (List Value)} {b : Bytes}

/-! ## Parts of programs -/

namespace Session

/-- The machine that starts a part of a program in a coroutine. -/
def machine (t : Session) (thread : Nat) (yields : Bool) : Machine :=
  ⟨thread, .base yields 3, [], [], t.coroutines⟩

/-- A part of a program came to its end in a coroutine, and calls of writers contributed to the
output until then. -/
def Ran (t : Session) (thread : Nat) (yields : Bool) (r : Run (List Value)) (b : Bytes)
    (outcome : Except Value (List Value)) (t' : Session) : Prop :=
  ∃ m a, (t.machine thread yields).Writes (r.toAction t.store) b m a ∧
    m.step a = .halt outcome t'.coroutines t'.store

/-- Nothing that waits in a session writes to the output itself. -/
def Silent (t : Session) : Prop := Coroutine.AllKeep Store.output t.coroutines

theorem Silent.inside (h : t.Silent) (thread : Nat) (yields : Bool) :
    (t.machine thread yields).Inside Store.output ⟨thread, [], []⟩ :=
  ⟨true, [], [], rfl, List.forall_mem_nil _, fun _ h => absurd rfl h, .own rfl rfl, h⟩

theorem Silent.calm (h : t.Silent) (thread : Nat) (yields : Bool) :
    (t.machine thread yields).Calm :=
  ⟨fun h => absurd rfl h, h⟩

/-- A part of a program is run to the end that the machine comes to, if there is room for it. -/
theorem runIn_cases (t : Session) (thread : Nat) (yields : Bool) (size : Nat)
    (r : Run (List Value)) :
    (∃ outcome t', t.runIn thread yields size r = (outcome, t') ∧
      (t.machine thread yields).run (budget size) (r.toAction t.store) =
        some (outcome, t'.coroutines, t'.store)) ∨
      t.runIn thread yields size r = (.error (.text "not enough memory"), t) ∧
        (t.machine thread yields).run (budget size) (r.toAction t.store) = none := by
  cases hrun : (t.machine thread yields).run (budget size) (r.toAction t.store) with
  | some found =>
    refine .inl ⟨found.1, ⟨found.2.2, found.2.1⟩, ?_, rfl⟩
    rw [machine] at hrun
    rw [runIn]
    simp only [hrun]
  | none =>
    refine .inr ⟨?_, rfl⟩
    rw [machine] at hrun
    rw [runIn]
    simp only [hrun]

theorem run_of_runIn {vs : List Value} (h : t.runIn thread yields size r = (.ok vs, t')) :
    (t.machine thread yields).run (budget size) (r.toAction t.store) =
      some (.ok vs, t'.coroutines, t'.store) := by
  rcases t.runIn_cases thread yields size r with ⟨outcome, t₁, heq, hrun⟩ | ⟨heq, -⟩
  · cases h.symm.trans heq
    exact hrun
  · cases h.symm.trans heq

/-- A part that ran is run to the same end, if there is room for it. -/
theorem Ran.runIn {outcome : Except Value (List Value)} (h : t.Ran thread yields r b outcome t')
    (size : Nat) : t.runIn thread yields size r = (outcome, t') ∨
      t.runIn thread yields size r = (.error (.text "not enough memory"), t) := by
  obtain ⟨m, a, hwrites, hhalt⟩ := h
  obtain ⟨n, hsteps⟩ := hwrites.steps
  have hend : (t.machine thread yields).run (n + 1) (r.toAction t.store) =
      some (outcome, t'.coroutines, t'.store) := by
    rw [hsteps 1, Machine.run, hhalt]
  rcases t.runIn_cases thread yields size r with ⟨outcome', t₁, heq, hrun⟩ | ⟨heq, -⟩
  · obtain ⟨s, coroutines⟩ := t'
    obtain ⟨s₁, coroutines₁⟩ := t₁
    cases Machine.run_unique hend hrun
    exact .inl heq
  · exact .inr heq

/-- A part that writes nothing itself contributed what is in the output at its end. -/
theorem Silent.ran {outcome : Except Value (List Value)} {n : Nat} (ht : t.Silent) (hr : r.Quiet)
    (h : (t.machine thread yields).run n (r.toAction t.store) =
      some (outcome, t'.coroutines, t'.store)) :
    ∃ b, t.Ran thread yields r b outcome t' ∧ t'.store.output = t.store.output ++ b ∧
      ∀ vs, outcome = .ok vs → t'.Silent := by
  obtain ⟨s', coroutines'⟩ := t'
  obtain ⟨j, m, a, y, ⟨-, hrun, b, rfl, hwrites⟩, -, hexit⟩ :=
    (Machine.travels _ _).1 ⟨thread, [], []⟩ _ _ t.store.output (Ground.firm_base thread)
      (ht.inside thread yields) (hr.keeps.toAction t.store) h
  rw [Machine.run] at hrun
  generalize hprogress : m.step a = progress at hexit hrun
  cases hexit with
  | @returned m₁ s how hback hstack hx =>
    have hresumers : m₁.resumers = [] := hback.resumers
    obtain ⟨vs', hhalt⟩ : ∃ vs', m₁.finish how s =
        .halt (.ok vs') (m₁.coroutines.setIfInBounds m₁.thread .finished) s := by
      unfold Machine.finish
      rw [hstack]
      simp only [Machine.deliver, hresumers]
      exact ⟨_, rfl⟩
    rw [hhalt] at hrun hprogress
    cases hrun
    exact ⟨b, ⟨m, a, hwrites, hprogress⟩, hx, fun _ _ => hback.coroutines.set _ trivial⟩
  | @thrown m₁ s v hback hx =>
    have hresumers : m₁.resumers = [] := hback.resumers
    simp only [Machine.unwind, Machine.deliver, hresumers] at hrun hprogress
    cases hrun
    exact ⟨b, ⟨m, a, hwrites, hprogress⟩, hx, fun _ h => by cases h⟩
  | failed v coroutines _ _ hx =>
    cases hrun
    exact ⟨b, ⟨m, a, hwrites, hprogress⟩, hx, fun _ h => by cases h⟩

/-- What is done with the answer to the question for the text of a returned value. -/
def giveText (answer : Except ScriptError Bytes) : Store → Action :=
  match answer with
  | .ok b => .finish (.ret [.string b])
  | .error e => (Engine.throw e : Run (List Value)).toAction

theorem toAction_returnedText (v : Value) (s : Store) :
    (returnedText v).toAction s = Engine.globalText v s giveText := by
  show Engine.globalText v s _ = _
  congr 1
  funext answer s
  cases answer <;> rfl

/-- Asking for the text of a returned value comes to a text or an error. -/
theorem Silent.asked {outcome : Except Value (List Value)} {n : Nat} (ht : t.Silent) (v : Value)
    (h : (t.machine 0 false).run n ((returnedText v).toAction t.store) =
      some (outcome, t'.coroutines, t'.store)) :
    ∃ b, t.Ran 0 false (returnedText v) b outcome t' ∧ t'.store.output = t.store.output ++ b ∧
      ((∃ text, outcome = .ok [.string text]) ∨ ∃ e, outcome = .error e) := by
  obtain ⟨s', coroutines'⟩ := t'
  rw [toAction_returnedText] at h
  obtain ⟨answer, s, coroutines, j, hkeep, -, hend, b, houtput, hwrites⟩ :=
    Engine.globalText_asks (fun j _ => (Machine.travels _ j).2) v _ t.store giveText n
      (ht.calm 0 false) (Nat.le_refl n) h
  obtain ⟨j, rfl⟩ := Machine.exists_run hend
  rw [← toAction_returnedText] at hwrites
  cases answer with
  | error e =>
    cases hend
    exact ⟨b, ⟨_, _, hwrites, rfl⟩, houtput, .inr ⟨_, rfl⟩⟩
  | ok text =>
    cases hend
    exact ⟨b, ⟨_, _, hwrites, rfl⟩, houtput, .inl ⟨text, rfl⟩⟩

end Session

/-! ## Imports -/

namespace Session

/-- Imports were loaded, and calls of writers contributed to the output while they were. -/
inductive Loads : Session → List String → Bytes → Session → Prop
  | nil {t : Session} : Loads t [] ByteArray.empty t
  /-- The namespace leads to a table among the globals. -/
  | found {t t₁ t' : Session} {ns : String} {rest : List String} {b b' : Bytes} {p : Nat}
    {vs : List Value} : t.Ran 0 false (walkGlobals ns) b (.ok (.table p :: vs)) t₁ →
    Loads t₁ rest b' t' → Loads t (ns :: rest) (b ++ b') t'
  /-- Otherwise `require` loads it. -/
  | required {t t₁ t₂ t' : Session} {ns : String} {rest : List String} {b b₁ b' : Bytes} {p : Nat}
    {vs ws : List Value} : t.Ran 0 false (walkGlobals ns) b (.ok vs) t₁ →
    (∀ q, Value.first vs ≠ .table q) →
    t₁.Ran 0 false (requireNamespace ns) b₁ (.ok (.table p :: ws)) t₂ →
    Loads t₂ rest b' t' → Loads t (ns :: rest) (b ++ b₁ ++ b') t'

instance follow_quiet (v : Value) (parts : List String) : (follow v parts).Quiet := by
  induction parts generalizing v with
  | nil =>
    cases v <;> exact .pure _
  | cons part rest ih =>
    cases v with
    | table p => exact .bind (Run.index_quiet ..) fun v => ih v
    | _ => exact ih .nil

instance walkGlobals_quiet (ns : String) : (walkGlobals ns).Quiet := by
  unfold walkGlobals
  infer_instance

instance requireNamespace_quiet (ns : String) : (requireNamespace ns).Quiet := by
  unfold requireNamespace
  refine .bind inferInstance fun found => ?_
  split <;> infer_instance

/-- How a namespace that is resolved was found. -/
theorem resolveImport_cases {ns : String} {p : Nat} (h : t.resolveImport ns = .ok (p, t')) :
    (∃ vs, t.runMain (walkGlobals ns) = (.ok (.table p :: vs), t')) ∨
      ∃ vs t₁ ws, t.runMain (walkGlobals ns) = (.ok vs, t₁) ∧ (∀ q, Value.first vs ≠ .table q) ∧
        t₁.runMain (requireNamespace ns) = (.ok (.table p :: ws), t') := by
  have hfirst : (t.runMain do return [← follow (.table Store.globals) (Text.pieces '.' ns)]) =
      t.runMain (walkGlobals ns) := rfl
  rw [resolveImport, hfirst] at h
  split at h
  · cases h
  · next q vs t₁ heq =>
    cases h
    exact .inl ⟨vs, heq⟩
  · next vs t₁ hother heq =>
    split at h
    · cases h
    · next q ws t₂ heq' =>
      cases h
      refine .inr ⟨vs, t₁, ws, heq, fun q hq => ?_, heq'⟩
      cases vs with
      | nil => cases hq
      | cons v rest => exact hother q rest (by rw [← show v = .table q from hq])
    · cases h

/-- Imports that are resolved contributed what is in the output then. -/
theorem Silent.loads {names : List String} {imports : List Nat} (ht : t.Silent)
    (h : t.resolveImports names = .ok (imports, t')) :
    ∃ b, t.Loads names b t' ∧ t'.store.output = t.store.output ++ b ∧ t'.Silent := by
  induction names generalizing t imports with
  | nil =>
    cases h
    exact ⟨_, .nil, ByteArray.append_empty.symm, ht⟩
  | cons ns rest ih =>
    rw [resolveImports] at h
    cases hresolved : t.resolveImport ns with
    | error e =>
      rw [hresolved] at h
      cases h
    | ok found =>
      obtain ⟨p, t₂⟩ := found
      rw [hresolved] at h
      cases hrest : t₂.resolveImports rest with
      | error e =>
        simp only [hrest] at h
        cases h
      | ok found =>
        obtain ⟨ps, t₃⟩ := found
        simp only [hrest] at h
        cases h
        rcases resolveImport_cases hresolved with ⟨vs, hwalk⟩ | ⟨vs, t₁, ws, hwalk, hnone, hrequire⟩
        · obtain ⟨b, hran, houtput, ht₂⟩ := ht.ran inferInstance (run_of_runIn hwalk)
          obtain ⟨b', hloads, houtput', ht'⟩ := ih (ht₂ _ rfl) hrest
          refine ⟨b ++ b', .found hran hloads, ?_, ht'⟩
          rw [houtput', houtput, ByteArray.append_assoc]
        · obtain ⟨b, hran, houtput, ht₁⟩ := ht.ran inferInstance (run_of_runIn hwalk)
          obtain ⟨b₁, hran₁, houtput₁, ht₂⟩ := (ht₁ _ rfl).ran inferInstance (run_of_runIn hrequire)
          obtain ⟨b', hloads, houtput', ht'⟩ := ih (ht₂ _ rfl) hrest
          refine ⟨b ++ b₁ ++ b', .required hran hnone hran₁ hloads, ?_, ht'⟩
          rw [houtput', houtput₁, houtput, ByteArray.append_assoc, ByteArray.append_assoc,
            ByteArray.append_assoc]

end Session

/-! ## Environments -/

namespace Session

/-- The environment of a unit was made, for the list of its imported tables, and calls of writers
contributed to the output while it was. -/
structure Surrounds (t : Session) (imports : List Nat) (b : Bytes) (own : Nat) (t' : Session) :
    Prop where
  ran : ∃ f s results,
    (t.store.newTable (Table.ofList (imports.map .table) 0)).2.load (bytesOf "=t4 environment")
      (bytesOf environmentSource) (.table Store.globals) = .ok (f, s) ∧
    Ran ⟨s, t.coroutines⟩ 0 false
      (Run.call f [.table t.store.tables.size, .table Store.globals] ⟨0, none⟩) b (.ok results) t' ∧
    Value.first results = .table own

/-- Making an environment contributed what is in the output then. -/
theorem Silent.surrounds {imports : List Nat} {own : Nat} (ht : t.Silent)
    (h : t.unitEnvironment imports = .ok (own, t')) :
    ∃ b, t.Surrounds imports b own t' ∧ t'.store.output = t.store.output ++ b ∧ t'.Silent := by
  unfold unitEnvironment at h
  simp only [Store.newTable] at h
  split at h
  · cases h
  · next f s hload =>
    have houtput := Store.output_load hload
    split at h
    · cases h
    · next results t₁ hrun =>
      split at h
      · next p hfirst =>
        cases h
        obtain ⟨b, hran, hwritten, ht'⟩ := Silent.ran (t := ⟨s, t.coroutines⟩) ht inferInstance
          (run_of_runIn hrun)
        exact ⟨b, ⟨f, s, results, hload, hran, hfirst⟩, hwritten.trans (by rw [houtput]), ht' _ rfl⟩
      · cases h

end Session

/-! ## Units -/

namespace Program

/-- The session in which a program is run, in a coroutine of its own. -/
def launch (p : Program) : Session :=
  { p.session with coroutines := p.session.coroutines.push .active }

/-- A program was run to its end. -/
def Ran (p : Program) (b : Bytes) (outcome : Except Value (List Value)) (t : Session) : Prop :=
  p.launch.Ran p.session.coroutines.size true (Run.call p.function [] ⟨0, none⟩) b outcome t

/-- A program comes to its end: calls of writers contribute to the output while it runs, and while
its first result is asked for its text, which comes after that. Nil has none. -/
inductive Completes (p : Program) : Bytes → Prop
  | silent {called : Bytes} {results : List Value} {t : Session} :
    p.Ran called (.ok results) t → Value.first results = .nil → Completes p called
  | told {called asked text : Bytes} {results : List Value} {t t' : Session} :
    p.Ran called (.ok results) t → Value.first results ≠ .nil →
    t.Ran 0 false (returnedText (Value.first results)) asked (.ok [.string text]) t' →
    Completes p (called ++ asked ++ text)

/-- The run of a program ends in an error, or the text of its first result does. -/
inductive Fails (p : Program) : Prop
  | raised {called : Bytes} {e : Value} {t : Session} : p.Ran called (.error e) t → Fails p
  | untold {called asked : Bytes} {results : List Value} {e : Value} {t t' : Session} :
    p.Ran called (.ok results) t → Value.first results ≠ .nil →
    t.Ran 0 false (returnedText (Value.first results)) asked (.error e) t' → Fails p

/-- A program takes more steps than there is room for. -/
inductive Exhausts (p : Program) : Prop
  | running : (p.launch.machine p.session.coroutines.size true).run (Session.budget p.size)
      ((Run.call p.function [] ⟨0, none⟩).toAction p.launch.store) = none → Exhausts p
  | asking {called : Bytes} {results : List Value} {t : Session} :
    p.Ran called (.ok results) t → Value.first results ≠ .nil →
    (t.machine 0 false).run (Session.budget 0)
      ((returnedText (Value.first results)).toAction t.store) = none → Exhausts p

variable {p : Program} {results rs : List Value} {e : Value} {text : Bytes}

theorem run_raised (h : p.launch.runIn p.session.coroutines.size true p.size
      (Run.call p.function [] ⟨0, none⟩) = (.error e, t)) :
    run p = .error (.runtime (.script (t.failure e))) := by
  rw [launch] at h
  rw [run]
  dsimp only
  rw [h]

theorem run_silent (h : p.launch.runIn p.session.coroutines.size true p.size
      (Run.call p.function [] ⟨0, none⟩) = (.ok results, t)) (hv : Value.first results = .nil) :
    run p = .ok t.store.output := by
  rw [launch] at h
  rw [run]
  dsimp only
  rw [h]
  dsimp only
  rw [hv]

theorem run_told (h : p.launch.runIn p.session.coroutines.size true p.size
      (Run.call p.function [] ⟨0, none⟩) = (.ok results, t)) (hv : Value.first results ≠ .nil)
    (htext : t.runMain (returnedText (Value.first results)) = (.ok [.string text], t')) :
    run p = .ok (t'.store.output ++ text) := by
  rw [launch] at h
  rw [run]
  dsimp only
  rw [h]
  dsimp only
  split
  · next hnil => exact absurd hnil hv
  · rw [htext]

theorem run_untold (h : p.launch.runIn p.session.coroutines.size true p.size
      (Run.call p.function [] ⟨0, none⟩) = (.ok results, t)) (hv : Value.first results ≠ .nil)
    (htext : t.runMain (returnedText (Value.first results)) = (.error e, t')) :
    run p = .error (.runtime (.script (t'.failure e))) := by
  rw [launch] at h
  rw [run]
  dsimp only
  rw [h]
  dsimp only
  split
  · next hnil => exact absurd hnil hv
  · rw [htext]

/-- What a program comes to: it gives what it contributed, after what was in the output before, or
it fails, or there is no room for it. -/
theorem run_cases (hp : p.session.Silent) :
    (∃ b, p.Completes b ∧ run p = .ok (p.session.store.output ++ b)) ∨
      (p.Fails ∨ p.Exhausts) ∧ ∃ cause, run p = .error (.runtime cause) := by
  have hlaunch : p.launch.Silent := hp.push trivial
  rcases p.launch.runIn_cases p.session.coroutines.size true p.size
    (Run.call p.function [] ⟨0, none⟩) with ⟨outcome, t, heq, hrun⟩ | ⟨heq, hnone⟩
  · obtain ⟨called, hran, houtput, ht⟩ := hlaunch.ran inferInstance hrun
    cases outcome with
    | error e => exact .inr ⟨.inl (.raised hran), _, run_raised heq⟩
    | ok results =>
      by_cases hv : Value.first results = .nil
      · refine .inl ⟨called, .silent hran hv, ?_⟩
        rw [run_silent heq hv, houtput]
        rfl
      · rcases t.runIn_cases 0 false 0 (returnedText (Value.first results)) with
          ⟨outcome, t', heq', hrun'⟩ | ⟨heq', hnone⟩
        · obtain ⟨asked, hasked, houtput', ⟨text, rfl⟩ | ⟨e, rfl⟩⟩ := (ht _ rfl).asked _ hrun'
          · refine .inl ⟨called ++ asked ++ text, .told hran hv hasked, ?_⟩
            rw [run_told heq hv heq', houtput', houtput]
            show Except.ok (p.session.store.output ++ called ++ asked ++ text) = _
            simp only [ByteArray.append_assoc]
          · exact .inr ⟨.inl (.untold hran hv hasked), _, run_untold heq hv heq'⟩
        · exact .inr ⟨.inr (.asking hran hv hnone), _, run_untold heq hv heq'⟩
  · exact .inr ⟨.inr (.running hnone), _, run_raised heq⟩

/-- A program that fails gives no output. -/
theorem Fails.run (h : p.Fails) : ∃ cause, run p = .error (.runtime cause) := by
  cases h with
  | raised hran =>
    rcases hran.runIn p.size with heq | heq <;> exact ⟨_, run_raised heq⟩
  | untold hran hv hasked =>
    rcases hran.runIn p.size with heq | heq
    · rcases hasked.runIn 0 with heq' | heq' <;> exact ⟨_, run_untold heq hv heq'⟩
    · exact ⟨_, run_raised heq⟩

end Program

/-- The names of the functions that write, and `tostring`, stand for what they should. -/
structure Store.Voiced (s : Store) : Prop where
  write : s.rawGet globals (.text "write") = .builtin Writer.write.builtin
  writeln : s.rawGet globals (.text "writeln") = .builtin Writer.writeln.builtin
  print : s.rawGet globals (.text "print") = .builtin Writer.print.builtin
  engine : s.rawGet globals (.text "t4") = .table 16
  engineWrite : s.rawGet 16 (.text "write") = .builtin Writer.write.builtin
  tostring : s.rawGet globals (.text "tostring") = .builtin .tostring

theorem Session.start_voiced (system : System) (files : FileSystem) (path : String) :
    (Session.start system files path).store.Voiced := by
  have hstocked := Session.start_stocked system files path
  have hglobals (k : Key) : (Session.start system files path).store.rawGet Store.globals k =
      Store.globalTable.get k := by
    rw [start]
    split
    · rfl
    · rw [Store.rawGet, Store.table_rawSet _ _ _ (by decide)]
      rfl
  refine ⟨?_, ?_, ?_, hstocked.engine, hstocked.write, hstocked.tostring⟩
  · rw [hglobals, Store.globalTable, get_withFields]
    rfl
  · rw [hglobals, Store.globalTable, get_withFields]
    rfl
  · rw [hglobals, Store.globalTable, get_withFields]
    rfl

/-- The output of a unit is what the calls of the writers contributed, in order, while its imports
were loaded, while its environment was made and while it ran, and then the text of its first result,
on any system. The writers are found under their names, and the text of nil by Lua's `tostring` is
`nil`. A unit that fails has no output. -/
theorem output_captured (system : System) (files : FileSystem) (path : String)
    (unit : CompilationUnit) :
    (Session.start system files path).store.Voiced ∧
    (∀ (m : Machine) (s : Store), s.rawGet Store.globals (.text "tostring") = .builtin .tostring →
      Room 1 m → Gives m s (Engine.globalText .nil) 6 (.ok (bytesOf "nil")) s) ∧
    ∀ p, compile system files path unit = .ok p →
      ∃ imports loaded t made own t',
        (Session.start system files path).resolveImports unit.imports = .ok (imports, t) ∧
        (Session.start system files path).Loads unit.imports loaded t ∧
        t.Surrounds imports made own t' ∧
        p.session.coroutines = t'.coroutines ∧ p.session.store.output = loaded ++ made ∧
        (∀ output, run p = .ok output → ∃ b, p.Completes b ∧ output = loaded ++ made ++ b) ∧
        (p.Fails → ∃ cause, run p = .error (.runtime cause)) ∧
        ((∃ output, run p = .ok output) ∨ p.Fails ∨ p.Exhausts) := by
  refine ⟨Session.start_voiced system files path, fun m s htostring hroom =>
    gives_globalText htostring rfl hroom, fun p h => ?_⟩
  obtain ⟨imports, t, own, t', f, himports, henv, rfl⟩ := compile_ok h
  have hstart : (Session.start system files path).Silent := by
    rw [Session.Silent, Session.start_coroutines]
    intro c hc
    cases List.mem_singleton.mp (Array.mem_toList_iff.mpr hc)
    trivial
  obtain ⟨loaded, hloads, hloaded, ht⟩ := hstart.loads himports
  obtain ⟨made, hsurrounds, hmade, ht'⟩ := ht.surrounds henv
  rw [Session.start_output, ByteArray.empty_append] at hloaded
  let p := t'.program own f unit.source.utf8ByteSize
  have hp : p.session.Silent := ht'
  have hsession : p.session.store.output = loaded ++ made := hloaded ▸ hmade
  refine ⟨imports, loaded, t, made, own, t', himports, hloads, hsurrounds, rfl, hsession,
    fun output hrun => ?_, Program.Fails.run, ?_⟩
  · rcases Program.run_cases hp with ⟨b, hcompletes, heq⟩ | ⟨-, cause, heq⟩
    · rw [hsession] at heq
      cases hrun.symm.trans heq
      exact ⟨b, hcompletes, rfl⟩
    · cases hrun.symm.trans heq
  · rcases Program.run_cases hp with ⟨b, -, heq⟩ | ⟨hcause, -⟩
    · exact .inl ⟨_, heq⟩
    · exact .inr hcause

/-- A unit that writes two texts completes with both of them. -/
theorem output_captured_texts :
    (∃ p, compile .isolated default "" ⟨writesSource "" ["a", "b"], []⟩ = .ok p ∧
      run p = .ok "ab".toUTF8 ∧ p.Completes "ab".toUTF8) ∧
    let t := Session.start .isolated default ""
    Gives (t.machine 0 false) t.store (Engine.globalText .nil) 6 (.ok (bytesOf "nil")) t.store := by
  obtain ⟨hvoiced, hnil, hcaptured⟩ :=
    output_captured .isolated default "" ⟨writesSource "" ["a", "b"], []⟩
  have hpath : '\x00' ∉ "".toList := by decide
  have hcompile := compile_writes .isolated default ["a", "b"] hpath
  have hrun := run_writes .isolated default "" ["a", "b"]
  refine ⟨?_, hnil _ _ hvoiced.tostring ((Machine.room_base _ _ _).mono (by decide))⟩
  obtain ⟨imports, loaded, t, made, own, t', himports, hloads, hsurrounds, -, hsession, hcompletes,
    -⟩ :=
    hcaptured _ hcompile
  obtain ⟨b, hb, houtput⟩ := hcompletes _ hrun
  have hbefore : loaded ++ made = ByteArray.empty :=
    hsession.symm.trans (Session.start_output .isolated default "")
  rw [hbefore, ByteArray.empty_append] at houtput
  subst houtput
  exact ⟨_, hcompile, hrun, hb⟩

end Stencil.Lua
