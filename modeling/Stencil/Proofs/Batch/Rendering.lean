import Stencil.Batch.Transform
import Stencil.Proofs.Batch.Delivery
import Stencil.Proofs.Text.Utf8

/-!
# What a template comes to

A template has an output, or no end to one of its blocks, or a unit that fails. That alone decides
how its transform ends and which file it writes, as long as the paths can be written to.

* `Interpreter.work`: what a template comes to, and the world that its program leaves;
* `Interpreter.render_eq`: rendering goes by what the template comes to;
* `Interpreter.Inert`: a language whose snippets leave the files alone;
* `Language.rendering`: what a template comes to in a language without effects;
* `generate_spec`: what a file that is not skipped gives and leaves.
-/

namespace Stencil

/-- What the text of a template comes to. -/
inductive Rendering where
  | output (bytes : ByteArray)
  | unterminated (e : Unterminated)
  /-- Compiling or running the unit with this source fails. -/
  | broken (source : String) (e : ExecutionError)

@[simp] theorem World.files_enter (w : World) (path : String) (state : RunState) :
    (w.enter path state).files = w.files := rfl

@[simp] theorem World.files_reportAll (w : World) (es : List Event) :
    (w.reportAll es).files = w.files := rfl

@[simp] theorem World.files_report (w : World) (e : Event) : (w.report e).files = w.files := rfl

/-! ## Languages with effects -/

section

variable {σ : Type} {I : Interpreter σ} {d : Disk} {options : Options} {template : Template}
  {x : World × σ}

/-- What a template comes to, and the world and the state that its program leaves. -/
def Interpreter.work (I : Interpreter σ) (template : Template) (x : World × σ) :
    (World × σ) × Rendering :=
  match prepare I.dialect template with
  | .error e => (x, .unterminated e)
  | .ok (u, events) =>
    match I.execute template.path u (x.1.reportAll events, x.2) with
    | (y, .ok bytes) => (y, .output bytes)
    | (y, .error e) => (y, .broken u.source e)

/-- Rendering a template goes by what it comes to. -/
theorem Interpreter.render_eq (I : Interpreter σ) (d : Disk) (options : Options)
    (template : Template) (x : World × σ) :
    I.render d options template x =
      match I.work template x with
      | (y, .output bytes) => (y, .completed bytes)
      | (y, .unterminated e) => (y, .failed (.markup template.path e))
      | (y, .broken source e) =>
        match Host.debugPath template.path options.debugSuffix options.extension with
        | none => (y, .abandoned)
        | some saved =>
          match saveSource d y.1.files saved source with
          | (files, .ok _) =>
            ((y.1.withFiles files, y.2), .failed (.execution template.path e (some saved)))
          | (files, .error io) =>
            (((y.1.withFiles files).report (.sourceUnsaved template.path io.message), y.2),
              .failed (.execution template.path e none)) := by
  rw [render, work]
  cases prepare I.dialect template with
  | error e => rfl
  | ok prepared =>
    obtain ⟨u, events⟩ := prepared
    simp only
    obtain ⟨⟨w, s⟩, result⟩ := I.execute template.path u (x.1.reportAll events, x.2)
    cases result with
    | ok bytes => rfl
    | error e =>
      simp only [settle]
      cases Host.debugPath template.path options.debugSuffix options.extension with
      | none => rfl
      | some saved =>
        simp only
        obtain ⟨files, result⟩ := saveSource d w.files saved u.source
        cases result <;> rfl

/-- A template is rendered exactly if it comes to an output. -/
theorem Interpreter.render_completed_iff {bytes : ByteArray} :
    (I.render d options template x).2 = .completed bytes ↔
      (I.work template x).2 = .output bytes := by
  rw [render_eq]
  obtain ⟨y, r⟩ := I.work template x
  cases r with
  | output bytes' =>
    constructor
    · rintro ⟨⟩
      rfl
    · rintro ⟨⟩
      rfl
  | unterminated e => exact ⟨nofun, nofun⟩
  | broken source e =>
    refine ⟨fun h => ?_, nofun⟩
    simp only at h
    split at h
    · cases h
    · split at h
      · cases h
      · cases h

/-- A program reaches the files and nothing else of the world. -/
theorem Interpreter.execute_frame (I : Interpreter σ) (path : String) (u : CompilationUnit)
    (x : World × σ) :
    (I.execute path u x).1.1.outlets.shared = x.1.outlets.shared ∧
      (I.execute path u x).1.1.diagnostics = x.1.diagnostics := by
  rw [execute]
  simp only
  split
  · exact ⟨rfl, rfl⟩
  · split
    · exact ⟨rfl, rfl⟩
    · exact ⟨rfl, rfl⟩

theorem Interpreter.work_frame (I : Interpreter σ) (template : Template) (x : World × σ) :
    (I.work template x).1.1.outlets.shared = x.1.outlets.shared ∧
      (I.work template x).1.1.diagnostics = x.1.diagnostics := by
  rw [work]
  cases prepare I.dialect template with
  | error e => exact ⟨rfl, rfl⟩
  | ok prepared =>
    have hframe := I.execute_frame template.path prepared.1 (x.1.reportAll prepared.2, x.2)
    simp only
    split
    · rename_i h
      rw [h] at hframe
      exact hframe
    · rename_i h
      rw [h] at hframe
      exact hframe

/-- A language whose snippets leave the files as they are. -/
structure Interpreter.Inert (I : Interpreter σ) : Prop where
  compile (w : World) (s : σ) (path : String) (u : CompilationUnit) :
    (I.compile w s path u).1.1 = w.files
  run (w : World) (s : σ) (program : I.Program) : (I.run w s program).1.1 = w.files

theorem Interpreter.Inert.execute_files (h : I.Inert) (path : String) (u : CompilationUnit)
    (x : World × σ) : (I.execute path u x).1.1.files = x.1.files := by
  rw [execute]
  have hcompile := h.compile (x.1.enter path .compiling) x.2 path u
  simp only
  split
  · rename_i heq
    rw [heq] at hcompile
    exact hcompile
  · rename_i files s program heq
    rw [heq] at hcompile
    have hrun := h.run (((x.1.enter path .compiling).withFiles files).enter path .running) s program
    split
    · rename_i heq'
      rw [heq'] at hrun
      exact hrun.trans hcompile
    · rename_i heq'
      rw [heq'] at hrun
      exact hrun.trans hcompile

theorem Interpreter.Inert.work_outlets (h : I.Inert) (template : Template) (x : World × σ) :
    (I.work template x).1.1.outlets = x.1.outlets := by
  refine Outlets.ext ?_ (I.work_frame template x).1
  rw [work]
  cases prepare I.dialect template with
  | error e => rfl
  | ok prepared =>
    have hsame := h.execute_files template.path prepared.1 (x.1.reportAll prepared.2, x.2)
    simp only
    split
    · rename_i heq
      rw [heq] at hsame
      exact hsame
    · rename_i heq
      rw [heq] at hsame
      exact hsame

end

/-! ## Languages without effects -/

/-- Compiles a unit and runs it, with nothing reported. -/
def Language.perform (language : Language) (files : FileSystem) (path : String)
    (u : CompilationUnit) : Except ExecutionError ByteArray :=
  match language.compile files path u with
  | .error e => .error e
  | .ok program => language.run program

/-- What a template comes to where there are these files. -/
def Language.rendering (language : Language) (files : FileSystem) (template : Template) :
    Rendering :=
  match prepare language.dialect template with
  | .error e => .unterminated e
  | .ok (u, _) =>
    match language.perform files template.path u with
    | .ok bytes => .output bytes
    | .error e => .broken u.source e

/-- A template whose unit is compiled and run to its end comes to its output. -/
theorem Language.rendering_of_runs {language : Language} {files : FileSystem} {path text : String}
    {markup : Markup} {program : language.Program} {bytes : ByteArray}
    (hparse : Markup.parse text = .ok markup)
    (hcompile : language.compile files path (assemble language.dialect path markup) = .ok program)
    (hrun : language.run program = .ok bytes) :
    language.rendering files ⟨path, text⟩ = .output bytes := by
  rw [Language.rendering, prepare, hparse]
  simp only [Language.perform, hcompile, hrun]

/-- What a template comes to does not depend on the files: its path and text decide it. -/
def Language.Steady (language : Language) (template : Template) : Prop :=
  ∀ files files', language.rendering files template = language.rendering files' template

/-- How the transform of a template ends. -/
def Rendering.verdict (options : Options) (path : String) : Rendering → Attempt ByteArray
  | .output bytes => .completed bytes
  | .unterminated e => .failed (.markup path e)
  | .broken _ e =>
    match Host.debugPath path options.debugSuffix options.extension with
    | none => .abandoned
    | some saved => .failed (.execution path e (some saved))

/-- The file that a transform writes: the artifact, or the saved source. -/
def Rendering.change (options : Options) (path : String) (artifact source : Address) :
    Rendering → Option (Address × ByteArray)
  | .output bytes => some (artifact, bytes)
  | .unterminated _ => none
  | .broken text _ =>
    (Host.debugPath path options.debugSuffix options.extension).map fun _ => (source, text.toUTF8)

/-- The file system after at most one file was written. -/
def FileSystem.Changed (fs : FileSystem) : Option (Address × ByteArray) → FileSystem → Prop
  | none, fs' => fs' = fs
  | some (a, content), fs' => fs.Wrote a content fs'

/-- An attempt without its value. -/
def Attempt.ending {α : Type} : Attempt α → Attempt Unit
  | .completed _ => .completed ()
  | .failed e => .failed e
  | .abandoned => .abandoned

section

variable {language : Language} {options : Options} {w : World} {a : Address}

theorem Language.interpreter_inert (language : Language) : language.interpreter.Inert where
  compile _ _ _ _ := rfl
  run _ _ _ := rfl

/-- A template is loaded from a path that leads to its text. -/
theorem loadTemplate_of_text {fs : FileSystem} {path text : String} {time : Time}
    (h : fs.Leads path a) (ht : fs.root.sightAt a = some (.file text.toUTF8 time)) :
    loadTemplate fs path = .ok ⟨FileSystem.pathOf a, text⟩ := by
  rw [loadTemplate, FileSystem.readText, h.readBytes_file ht, h.canonical_file ht]
  simp only [Utf8.fromUTF8?_toUTF8]

theorem eq_of_stateless {α : Type} {r : (World × Unit) × α} {a : α} (h : stateless r = (w, a)) :
    r = ((w, ()), a) := by
  cases h
  rfl

theorem execute_spec (language : Language) (path : String) (u : CompilationUnit) (w : World) :
    ∃ w', execute language path u w = (w', language.perform w.files path u) ∧
      w'.outlets = w.outlets := by
  simp only [execute, stateless, Interpreter.execute, Language.interpreter, Language.perform,
    World.files_enter]
  cases language.compile w.files path u with
  | error e => exact ⟨_, rfl, rfl⟩
  | ok program =>
    simp only
    cases language.run program with
    | error e => exact ⟨_, rfl, rfl⟩
    | ok output => exact ⟨_, rfl, rfl⟩

/-- What a template comes to is decided by the files alone. -/
theorem Language.work_eq (language : Language) (template : Template) (w : World) :
    ∃ w', language.interpreter.work template (w, ()) =
        ((w', ()), language.rendering w.files template) ∧ w'.outlets = w.outlets := by
  refine ⟨(language.interpreter.work template (w, ())).1.1, ?_,
    language.interpreter_inert.work_outlets template (w, ())⟩
  have hdialect : language.interpreter.dialect = language.dialect := rfl
  rw [Interpreter.work, Language.rendering, hdialect]
  cases prepare language.dialect template with
  | error e => rfl
  | ok prepared =>
    obtain ⟨u, events⟩ := prepared
    obtain ⟨w', hexecute, -⟩ := execute_spec language template.path u (w.reportAll events)
    simp only [eq_of_stateless hexecute, World.files_reportAll]
    cases language.perform w.files template.path u <;> rfl

/-- What a program without effects leaves, and what its template comes to. -/
theorem Language.of_work {template : Template} {y : World × Unit} {r : Rendering}
    (h : language.interpreter.work template (w, ()) = (y, r)) :
    y.1.outlets = w.outlets ∧ language.rendering w.files template = r := by
  obtain ⟨v, hwork, houtlets⟩ := language.work_eq template w
  cases hwork.symm.trans h
  exact ⟨houtlets, rfl⟩

/-- Rendering a template goes by what it comes to; only a saved source changes the outlets. -/
theorem render_eq (language : Language) (options : Options) (template : Template) (w : World) :
    ∃ w', w'.outlets = w.outlets ∧ render language options template w =
      match language.rendering w.files template with
      | .output bytes => (w', .completed bytes)
      | .unterminated e => (w', .failed (.markup template.path e))
      | .broken source e =>
        match Host.debugPath template.path options.debugSuffix options.extension with
        | none => (w', .abandoned)
        | some saved =>
          match saveSource .sound w'.files saved source with
          | (files, .ok _) =>
            (w'.withFiles files, .failed (.execution template.path e (some saved)))
          | (files, .error io) =>
            ((w'.withFiles files).report (.sourceUnsaved template.path io.message),
              .failed (.execution template.path e none)) := by
  obtain ⟨w', hwork, houtlets⟩ := language.work_eq template w
  refine ⟨w', houtlets, ?_⟩
  rw [render, Interpreter.render_eq, hwork]
  cases language.rendering w.files template with
  | output bytes => rfl
  | unterminated e => rfl
  | broken source e =>
    simp only
    cases Host.debugPath template.path options.debugSuffix options.extension with
    | none => rfl
    | some saved =>
      simp only
      obtain ⟨files, result⟩ := saveSource .sound w'.files saved source
      cases result <;> rfl

/-- A template that has an output gives it and changes no outlet. -/
theorem render_output (options : Options) {template : Template} {bytes : ByteArray}
    (h : language.rendering w.files template = .output bytes) :
    ∃ w', render language options template w = (w', .completed bytes) ∧
      w'.outlets = w.outlets := by
  obtain ⟨w', houtlets, heq⟩ := render_eq language options template w
  rw [h] at heq
  exact ⟨w', heq, houtlets⟩

/-- What a template comes to is all that its output depends on. -/
theorem Language.render_completed_iff {d : Disk} {template : Template} {bytes : ByteArray} :
    (language.interpreter.render d options template (w, ())).2 = .completed bytes ↔
      language.rendering w.files template = .output bytes := by
  obtain ⟨w', hwork, -⟩ := language.work_eq template w
  have hrendering : (language.interpreter.work template (w, ())).2 =
    language.rendering w.files template := by rw [hwork]
  rw [← hrendering]
  exact Interpreter.render_completed_iff

theorem render_completed_iff {template : Template} {bytes : ByteArray} :
    (render language options template w).2 = .completed bytes ↔
      language.rendering w.files template = .output bytes :=
  Language.render_completed_iff

/-- A template that has none says how it fails, and the source of its unit is saved. -/
theorem render_failed {template : Template} {r : Rendering} {artifact source : Address}
    (hr : language.rendering w.files template = r) (hfail : ∀ bytes, r ≠ .output bytes)
    (hsource : ∀ saved, Host.debugPath template.path options.debugSuffix options.extension =
      some saved → w.files.Leads saved source) :
    ∃ w', render language options template w = (w', r.verdict options template.path) ∧
      w.files.Changed (r.change options template.path artifact source) w'.files := by
  obtain ⟨w', houtlets, heq⟩ := render_eq language options template w
  have hfiles : w'.files = w.files := congrArg Outlets.files houtlets
  rw [hr] at heq
  cases r with
  | output bytes => exact absurd rfl (hfail bytes)
  | unterminated e => exact ⟨w', heq, hfiles⟩
  | broken text e =>
    simp only at heq
    simp only [Rendering.verdict, Rendering.change]
    cases hpath : Host.debugPath template.path options.debugSuffix options.extension with
    | none =>
      rw [hpath] at heq
      exact ⟨w', heq, hfiles⟩
    | some saved =>
      obtain ⟨files, hsave, hput⟩ := Disk.save_sound (hsource saved hpath) text.toUTF8
      rw [hpath] at heq
      simp only [saveSource, hfiles, hsave] at heq
      exact ⟨_, heq, hput.wrote⟩

/-- The attempt to make an artifact, from the attempt to render. -/
def Attempt.deliver (artifact : String) : Attempt ByteArray → Attempt Outcome
  | .completed _ => .completed (.generated (some artifact))
  | .failed e => .failed e
  | .abandoned => .abandoned

/-- Making a file goes by how its template was rendered. -/
theorem generate_eq (language : Language) (options : Options) (path : String) (target : Target)
    (w : World) :
    generate language options path target w =
      match loadTemplate w.files path with
      | .error e => (w, .failed (.read path e))
      | .ok template =>
        conclude .sound path target (render language options template w).1
          (render language options template w).2 := by
  rw [generate, Interpreter.generate]
  cases loadTemplate w.files path <;> rfl

/-- A file goes by whether it can be left alone. -/
theorem processFile_eq (language : Language) (options : Options) (mode : Mode) (path : String)
    (w : World) :
    processFile language options mode path w =
      match targetOf options mode path with
      | none => (w, .abandoned)
      | some target =>
        match isFresh options w.files path target with
        | .error e => (w, .failed (.read path e))
        | .ok true => (w.report (.skipped path), .completed .skipped)
        | .ok false => generate language options path target (w.report (.processing path)) := by
  rw [processFile, Interpreter.processFile]
  cases targetOf options mode path with
  | none => rfl
  | some target =>
    simp only
    cases isFresh options w.files path target with
    | error e => rfl
    | ok fresh => cases fresh <;> rfl

/-- A batch goes by its first file. -/
theorem runBatch_cons (language : Language) (options : Options) (mode : Mode) (path : String)
    (rest : List String) (w : World) :
    runBatch language options mode (path :: rest) w =
      match processFile language options mode path w with
      | (w, .completed outcome) =>
        ((runBatch language options mode rest w).1,
          (runBatch language options mode rest w).2.cons ⟨path, outcome⟩)
      | (w, .failed e) => (w.diagnose e, ⟨[], some e, false⟩)
      | (w, .abandoned) => (w, ⟨[], none, true⟩) := by
  rw [runBatch, Interpreter.runBatch, processFile]
  obtain ⟨⟨v, ⟨⟩⟩, attempt⟩ :=
    language.interpreter.processFile .sound options mode path (w, ())
  cases attempt <;> rfl

/-- A batch over one file that does not fail. -/
theorem runBatch_singleton {mode : Mode} {path : String} {v : World} {outcome : Outcome}
    (h : processFile language options mode path w = (v, .completed outcome)) :
    runBatch language options mode [path] w = (v, ⟨[⟨path, outcome⟩], none, false⟩) := by
  rw [runBatch_cons, h]
  rfl

/-- A batch over two files that do not fail. -/
theorem runBatch_pair {mode : Mode} {p q : String} {u v : World} {first second : Outcome}
    (hfirst : processFile language options mode p w = (u, .completed first))
    (hsecond : processFile language options mode q u = (v, .completed second)) :
    runBatch language options mode [p, q] w = (v, ⟨[⟨p, first⟩, ⟨q, second⟩], none, false⟩) := by
  rw [runBatch_cons, hfirst]
  simp only [runBatch_singleton hsecond]
  rfl

/-- What becomes of a file that is not skipped. -/
theorem generate_spec (language : Language) (options : Options) {path artifact text : String}
    {time : Time} {template target source : Address} (htemplate : w.files.Leads path template)
    (htext : w.files.root.sightAt template = some (.file text.toUTF8 time))
    (htarget : w.files.Leads artifact target)
    (hsource : ∀ saved, Host.debugPath (FileSystem.pathOf template) options.debugSuffix
      options.extension = some saved → w.files.Leads saved source) :
    ∃ w', generate language options path (.artifact artifact) w =
        (w', ((language.rendering w.files ⟨FileSystem.pathOf template, text⟩).verdict options
          (FileSystem.pathOf template)).deliver artifact) ∧
      w.files.Changed
        ((language.rendering w.files ⟨FileSystem.pathOf template, text⟩).change options
          (FileSystem.pathOf template) target source) w'.files := by
  rw [generate_eq, loadTemplate_of_text htemplate htext]
  simp only
  cases hr : language.rendering w.files ⟨FileSystem.pathOf template, text⟩ with
  | output bytes =>
    obtain ⟨w₁, hrender, houtlets⟩ := render_output options hr
    have hfiles : w₁.outlets.files = w.files := congrArg Outlets.files houtlets
    obtain ⟨files, hdeliver, hput⟩ := Outlets.deliver_sound (hfiles ▸ htarget) bytes
    simp only [hrender, conclude, hdeliver]
    exact ⟨_, rfl, hfiles ▸ hput.wrote⟩
  | unterminated e =>
    obtain ⟨w₁, hrender, hchanged⟩ := render_failed hr (fun _ => nofun) hsource
    rw [hrender]
    exact ⟨w₁, rfl, hchanged⟩
  | broken unit e =>
    obtain ⟨w₁, hrender, hchanged⟩ := render_failed hr (fun _ => nofun) hsource
    rw [hrender]
    simp only [Rendering.verdict]
    cases Host.debugPath (FileSystem.pathOf template) options.debugSuffix options.extension with
    | none => exact ⟨w₁, rfl, hchanged⟩
    | some saved => exact ⟨w₁, rfl, hchanged⟩

end

end Stencil
