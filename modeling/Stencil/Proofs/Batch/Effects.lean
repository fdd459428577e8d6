import Stencil.Batch.Transform

/-!
# Recorded calls

An interpreter is called to compile units and to run programs. One that also keeps a record of its
calls does all else as before, so whatever is found on the record holds of the calls of every
interpreter.

* `Call`: what an interpreter is called for, and when;
* `Interpreter.recorded`: an interpreter with a record of its calls;
* `runBatch_recorded`: the record changes nothing else.
-/

namespace Stencil

/-- What an interpreter is called for. -/
inductive Stage where
  | compile
  | run
  deriving DecidableEq

/-- A call of an interpreter: what for, the template of the unit, and the events before it. -/
structure Call where
  stage : Stage
  template : String
  before : List Event
  deriving DecidableEq

namespace Interpreter

variable {σ : Type} {I : Interpreter σ} {d : Disk} {options : Options} {mode : Mode}

/-- An interpreter that also keeps a record of its calls. -/
def recorded (I : Interpreter σ) : Interpreter (σ × List Call) where
  dialect := I.dialect
  Program := String × I.Program
  compile w x path u :=
    let r := I.compile w x.1 path u
    ((r.1.1, (r.1.2, x.2 ++ [⟨.compile, path, w.log⟩])), r.2.map (path, ·))
  run w x program :=
    let r := I.run w x.1 program.2
    ((r.1.1, (r.1.2, x.2 ++ [⟨.run, program.1, w.log⟩])), r.2)

/-- What stays of a result without the record. -/
def unrecorded {α : Type} (r : (World × σ × List Call) × α) : (World × σ) × α :=
  ((r.1.1, r.1.2.1), r.2)

variable (x : World × σ × List Call)

theorem execute_recorded (path : String) (u : CompilationUnit) :
    unrecorded (I.recorded.execute path u x) = I.execute path u (x.1, x.2.1) := by
  simp only [execute, recorded]
  obtain ⟨⟨files, s⟩, result⟩ := I.compile (x.1.enter path .compiling) x.2.1 path u
  cases result with
  | error e => rfl
  | ok program =>
    simp only [Except.map]
    obtain ⟨⟨files', s'⟩, result⟩ :=
      I.run (((x.1.enter path .compiling).withFiles files).enter path .running) s program
    cases result <;> rfl

theorem render_recorded (template : Template) :
    unrecorded (I.recorded.render d options template x) = I.render d options template (x.1, x.2.1) := by
  have hdialect : I.recorded.dialect = I.dialect := rfl
  rw [render, render, hdialect]
  cases prepare I.dialect template with
  | error e => rfl
  | ok prepared =>
    have hexecute :=
      execute_recorded (I := I) (x.1.reportAll prepared.2, x.2) template.path prepared.1
    simp only [unrecorded] at hexecute ⊢
    rw [← hexecute]

theorem generate_recorded (path : String) (target : Target) :
    unrecorded (I.recorded.generate d options path target x) =
      I.generate d options path target (x.1, x.2.1) := by
  rw [generate, generate]
  cases loadTemplate x.1.files path with
  | error e => rfl
  | ok template => simp only [unrecorded, ← render_recorded]

theorem processFile_recorded (path : String) :
    unrecorded (I.recorded.processFile d options mode path x) =
      I.processFile d options mode path (x.1, x.2.1) := by
  rw [processFile, processFile]
  cases targetOf options mode path with
  | none => rfl
  | some target =>
    simp only
    cases isFresh options x.1.files path target with
    | error e => rfl
    | ok fresh =>
      cases fresh with
      | true => rfl
      | false => exact generate_recorded _ path target

/-- Batches are the same with a record of calls and without. -/
theorem runBatch_recorded (files : List String) :
    unrecorded (I.recorded.runBatch d options mode files x) =
      I.runBatch d options mode files (x.1, x.2.1) := by
  induction files generalizing x with
  | nil => rfl
  | cons path rest ih =>
    rw [runBatch, runBatch, ← processFile_recorded]
    obtain ⟨y, attempt⟩ := I.recorded.processFile d options mode path x
    cases attempt with
    | completed outcome => simp only [unrecorded, ← ih]
    | failed e => rfl
    | abandoned => rfl

end Interpreter

end Stencil
