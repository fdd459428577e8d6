import Stencil.Proofs.Files.Plain
import Stencil.Proofs.Lua.Fidelity

/-!
# What one file leaves behind

A file of a batch is skipped, fails or is generated, and each way out leaves the files and the
shared writer in a known state: output is delivered after everything else succeeded, and a failed
program leaves nothing but its saved source. Only a disk that stops in the midst of an output can
leave an artifact that is neither the one from before nor the whole new one.

* `Handled`, `Interpreter.processFile_handled`: everything a file can come to;
* `processFile_output`, `processFile_broken`: when it has an output, and when its program fails;
* `processFile_contained`: what the transform of a file may change, on every disk;
* `output_cut_off`: an artifact that fails and is changed all the same.
-/

namespace Stencil

open FileSystem (pathOf)

/-! ## Paths and templates -/

section

variable {options : Options} {path : String} {fs : FileSystem}

theorem Path.withExtension_ne_none {p ext : String} (h : '/' ∉ ext.toList) :
    Path.withExtension p ext ≠ none := by
  rw [Path.withExtension, if_neg h]
  simp only
  split
  · intro h
    cases h
  · intro h
    cases h

/-- The extension of a saved source has a separator only if the suffix or the extension has one. -/
theorem slash_mem_debug {suffix ext : String} (h : '/' ∈ (suffix ++ "." ++ ext).toList) :
    '/' ∈ ext.toList ∨ '/' ∈ suffix.toList := by
  rw [String.toList_append, String.toList_append, List.mem_append, List.mem_append] at h
  rcases h with (h | h) | h
  · exact .inr h
  · exact absurd h (by decide)
  · exact .inl h

/-- A template is the text of a file, and its path is the canonical one. -/
theorem loadTemplate_ok {template : Template} (h : loadTemplate fs path = .ok template) :
    ∃ a time, fs.locate path = .ok (.found a) ∧
      fs.root.sightAt a = some (.file template.text.toUTF8 time) ∧ template.path = pathOf a := by
  rw [loadTemplate, FileSystem.readText, FileSystem.readBytes, FileSystem.canonical,
    FileSystem.find] at h
  cases hloc : fs.locate path with
  | error e => rw [hloc] at h; cases h
  | ok place =>
    rw [hloc] at h
    cases place with
    | absent dir name => cases h
    | found a =>
      simp only at h
      cases hget : fs.root.get? a with
      | none => rw [hget] at h; cases h
      | some node =>
        rw [hget] at h
        cases node with
        | directory entries time => cases h
        | link target => cases h
        | file content time =>
          simp only at h
          cases htext : String.fromUTF8? content with
          | none => rw [htext] at h; cases h
          | some text =>
            rw [htext] at h
            cases h
            refine ⟨a, time, rfl, ?_, rfl⟩
            rw [Node.sightAt, hget, Utf8.toUTF8_of_fromUTF8? htext]
            rfl

end

/-! ## What a file can come to -/

section

variable {σ : Type} {I : Interpreter σ} {d : Disk} {options : Options} {mode : Mode}
  {path : String} {x y : World × σ}

/-- The situation in which a file is read and rendered: it was reported that this starts. -/
def starting (path : String) (x : World × σ) : World × σ :=
  (x.1.report (.processing path), x.2)

/-- What a file of a batch can come to, with the situation that it leaves. -/
inductive Handled (I : Interpreter σ) (d : Disk) (options : Options) (mode : Mode) (path : String)
    (x : World × σ) : World × σ → Attempt Outcome → Prop
  /-- The extension or the suffix has a separator in it. -/
  | refused {y : World × σ} :
    '/' ∈ options.extension.toList ∨ '/' ∈ options.debugSuffix.toList →
    Handled I d options mode path x y .abandoned
  /-- The file or the age of its artifact cannot be read. -/
  | unreadable {y : World × σ} (e : IoError) : y.1.outlets = x.1.outlets →
    Handled I d options mode path x y (.failed (.read path e))
  /-- Its artifact is up to date. -/
  | skipped {y : World × σ} {artifact : String} : mode = .artifact → options.force = false →
    Host.artifactPath path options.extension = some artifact →
    isUpToDate x.1.files path artifact = .ok true → y.1.outlets = x.1.outlets →
    Handled I d options mode path x y (.completed .skipped)
  /-- A region of its markup is not closed. -/
  | unterminated {y : World × σ} {template : Template} {e : Unterminated} :
    loadTemplate x.1.files path = .ok template →
    I.work template (starting path x) = (y, .unterminated e) → y.1.outlets = x.1.outlets →
    Handled I d options mode path x y (.failed (.markup template.path e))
  /-- Its program fails, and the source of the program is saved. -/
  | broken {y v : World × σ} {template : Template} {source saved : String} {e : ExecutionError}
    {files : FileSystem} : loadTemplate x.1.files path = .ok template →
    I.work template (starting path x) = (v, .broken source e) →
    Host.debugPath template.path options.debugSuffix options.extension = some saved →
    saveSource d v.1.files saved source = (files, .ok ()) →
    y.1.outlets = { v.1.outlets with files } →
    Handled I d options mode path x y (.failed (.execution template.path e (some saved)))
  /-- Its program fails, and the source of the program cannot be saved. -/
  | unsaved {y v : World × σ} {template : Template} {source saved : String} {e : ExecutionError}
    {io : IoError} {files : FileSystem} : loadTemplate x.1.files path = .ok template →
    I.work template (starting path x) = (v, .broken source e) →
    Host.debugPath template.path options.debugSuffix options.extension = some saved →
    saveSource d v.1.files saved source = (files, .error io) →
    y.1.outlets = { v.1.outlets with files } →
    Handled I d options mode path x y (.failed (.execution template.path e none))
  /-- Its output cannot be delivered. -/
  | undelivered {y v : World × σ} {template : Template} {bytes : ByteArray} {target : Target}
    {e : IoError} : loadTemplate x.1.files path = .ok template →
    I.work template (starting path x) = (v, .output bytes) →
    targetOf options mode path = some target →
    v.1.outlets.deliver d target bytes = (y.1.outlets, .error e) →
    Handled I d options mode path x y (.failed (.output path e))
  /-- Its output is delivered. -/
  | generated {y v : World × σ} {template : Template} {bytes : ByteArray} {target : Target} :
    loadTemplate x.1.files path = .ok template →
    I.work template (starting path x) = (v, .output bytes) →
    targetOf options mode path = some target →
    v.1.outlets.deliver d target bytes = (y.1.outlets, .ok ()) →
    Handled I d options mode path x y (.completed (.generated target.artifact?))

/-- A template with an open region has no program, so nothing changes. -/
theorem Interpreter.work_unterminated {template : Template} {e : Unterminated}
    (h : I.work template x = (y, .unterminated e)) : y = x := by
  rw [work] at h
  split at h
  · cases h
    rfl
  · split at h
    · cases h
    · cases h

theorem Interpreter.generate_handled (I : Interpreter σ) (d : Disk) {target : Target}
    (htarget : targetOf options mode path = some target) (x : World × σ) :
    Handled I d options mode path x (I.generate d options path target (starting path x)).1
      (I.generate d options path target (starting path x)).2 := by
  have hfiles : (starting path x).1.files = x.1.files := rfl
  rw [generate, hfiles]
  cases hload : loadTemplate x.1.files path with
  | error e => exact .unreadable e rfl
  | ok template =>
    simp only [I.render_eq]
    cases hwork : I.work template (starting path x) with
    | mk v r =>
      cases r with
      | output bytes =>
        simp only [conclude]
        cases hdeliver : v.1.outlets.deliver d target bytes with
        | mk outlets result =>
          cases result with
          | error e => exact .undelivered hload hwork htarget hdeliver
          | ok _ => exact .generated hload hwork htarget hdeliver
      | unterminated e =>
        have hv : v = starting path x := work_unterminated hwork
        exact .unterminated hload hwork (by rw [hv]; rfl)
      | broken source e =>
        simp only
        cases hpath : Host.debugPath template.path options.debugSuffix options.extension with
        | none =>
          refine .refused (slash_mem_debug ?_)
          by_contra hno
          exact Path.withExtension_ne_none hno hpath
        | some saved =>
          simp only
          cases hsave : saveSource d v.1.files saved source with
          | mk files result =>
            cases result with
            | error io => exact .unsaved hload hwork hpath hsave rfl
            | ok _ => exact .broken hload hwork hpath hsave rfl

/-- A file that is not up to date is made anew. -/
theorem Interpreter.processFile_stale {artifact : String}
    (hartifact : Host.artifactPath path options.extension = some artifact)
    (hfresh : isFresh options x.1.files path (.artifact artifact) = .ok false) :
    I.processFile d options .artifact path x =
      I.generate d options path (.artifact artifact) (starting path x) := by
  simp only [processFile, targetOf, hartifact, Option.map_some, hfresh, starting]

theorem Interpreter.processFile_handled (I : Interpreter σ) (d : Disk) (options : Options)
    (mode : Mode) (path : String) (x : World × σ) :
    Handled I d options mode path x (I.processFile d options mode path x).1
      (I.processFile d options mode path x).2 := by
  rw [processFile]
  cases htarget : targetOf options mode path with
  | none =>
    refine .refused (.inl ?_)
    by_contra hno
    cases mode with
    | stream => cases htarget
    | artifact => exact Path.withExtension_ne_none hno (Option.map_eq_none_iff.mp htarget)
  | some target =>
    simp only
    cases hfresh : isFresh options x.1.files path target with
    | error e => exact .unreadable e rfl
    | ok fresh =>
      cases fresh with
      | false => exact I.generate_handled d htarget x
      | true =>
        cases mode with
        | stream => cases htarget; cases hfresh
        | artifact =>
          obtain ⟨artifact, hartifact, rfl⟩ := Option.map_eq_some_iff.mp htarget
          rw [isFresh] at hfresh
          split at hfresh
          · cases hfresh
          · rename_i hforce
            exact .skipped rfl (Bool.eq_false_iff.mpr hforce) hartifact hfresh rfl

theorem conclude_ne_skipped (d : Disk) (path : String) (target : Target) (w : World)
    (attempt : Attempt ByteArray) : (conclude d path target w attempt).2 ≠ .completed .skipped := by
  fun_cases conclude d path target w attempt <;> exact nofun

/-- Making a file never skips it. -/
theorem Interpreter.generate_ne_skipped (I : Interpreter σ) (d : Disk) (options : Options)
    (path : String) (target : Target) (x : World × σ) :
    (I.generate d options path target x).2 ≠ .completed .skipped := by
  rw [generate]
  split
  · intro hskip
    cases hskip
  · exact conclude_ne_skipped d path target _ _

/-- Output for the shared writer is that of the template, and the files are as the program left
them. -/
theorem Handled.stream {outcome : Outcome}
    (h : Handled I d options .stream path x y (.completed outcome)) :
    ∃ template bytes v, outcome = .generated none ∧ loadTemplate x.1.files path = .ok template ∧
      I.work template (starting path x) = (v, .output bytes) ∧
      y.1.outlets.shared.written = x.1.outlets.shared.written ++ bytes ∧
      y.1.files = v.1.files := by
  cases h with
  | skipped hmode => cases hmode
  | @generated v template bytes target hload hwork htarget hdeliver =>
    cases htarget
    obtain ⟨hfiles, hwritten⟩ := Outlets.deliver_shared_ok hdeliver
    have hshared := (I.work_frame template (starting path x)).1
    rw [hwork] at hshared
    refine ⟨template, bytes, v, rfl, hload, hwork, ?_, hfiles⟩
    rw [hwritten, hshared]
    rfl

theorem settle_diagnostics (d : Disk) (options : Options) (template : Template)
    (u : CompilationUnit) (w : World) (result : Except ExecutionError ByteArray) :
    (settle d options template u w result).1.diagnostics = w.diagnostics := by
  fun_cases settle d options template u w result <;> rfl

theorem conclude_diagnostics (d : Disk) (path : String) (target : Target) (w : World)
    (attempt : Attempt ByteArray) :
    (conclude d path target w attempt).1.diagnostics = w.diagnostics := by
  fun_cases conclude d path target w attempt <;> rfl

/-- The transform of a file reports no failure; that is for the batch to do. -/
theorem Interpreter.processFile_diagnostics (I : Interpreter σ) (d : Disk) (options : Options)
    (mode : Mode) (path : String) (x : World × σ) :
    (I.processFile d options mode path x).1.1.diagnostics = x.1.diagnostics := by
  rw [processFile]
  split
  · rfl
  · split
    · rfl
    · rfl
    · rw [generate]
      split
      · rfl
      · rename_i template _
        refine (conclude_diagnostics ..).trans ?_
        rw [render]
        split
        · rfl
        · exact (settle_diagnostics ..).trans (I.execute_frame ..).2

end

/-! ### Languages without effects -/

section

variable {language : Language} {options : Options} {path : String} {w : World}

theorem processFile_handled (language : Language) (options : Options) (mode : Mode) (path : String)
    (w : World) :
    Handled language.interpreter .sound options mode path (w, ())
      ((processFile language options mode path w).1, ())
      (processFile language options mode path w).2 :=
  language.interpreter.processFile_handled .sound options mode path (w, ())

/-- A file with a newer artifact is skipped. -/
theorem processFile_fresh {artifact : String} {time changed : Time} (hforce : options.force = false)
    (hartifact : Host.artifactPath path options.extension = some artifact)
    (htime : w.files.modifiedAt path = .ok time)
    (hchanged : w.files.modifiedAt artifact = .ok changed) (hlt : time < changed) :
    processFile language options .artifact path w =
      (w.report (.skipped path), .completed .skipped) := by
  have hfresh : isUpToDate w.files path artifact = .ok true := by
    rw [isUpToDate, hchanged, htime]
    exact congrArg Except.ok (decide_eq_true hlt)
  simp only [processFile_eq, targetOf, hartifact, Option.map_some, isFresh, hforce, hfresh,
    Bool.false_eq_true, if_false]

/-- A file whose artifact is not up to date is made anew. -/
theorem processFile_stale {artifact : String}
    (hartifact : Host.artifactPath path options.extension = some artifact)
    (hfresh : isFresh options w.files path (.artifact artifact) = .ok false) :
    processFile language options .artifact path w =
      generate language options path (.artifact artifact) (w.report (.processing path)) := by
  rw [processFile, Interpreter.processFile_stale hartifact hfresh]
  rfl

/-- A template that has an output is as good as its delivery. -/
theorem processFile_delivered (d : Disk) {artifact : String} {template : Template}
    {bytes : ByteArray} (hartifact : Host.artifactPath path options.extension = some artifact)
    (hfresh : isFresh options w.files path (.artifact artifact) = .ok false)
    (hload : loadTemplate w.files path = .ok template)
    (hr : language.rendering w.files template = .output bytes) :
    ∃ v, language.interpreter.processFile d options .artifact path (w, ()) =
        ((v, ()), match (w.outlets.deliver d (.artifact artifact) bytes).2 with
          | .ok _ => .completed (.generated (some artifact))
          | .error e => .failed (.output path e)) ∧
      v.outlets = (w.outlets.deliver d (.artifact artifact) bytes).1 := by
  obtain ⟨u, hwork, houtlets⟩ := language.work_eq template (w.report (.processing path))
  have houtlets : u.outlets = w.outlets := houtlets
  have hload : loadTemplate (starting path (w, ())).1.files path = .ok template := hload
  rw [World.files_report, hr] at hwork
  rw [Interpreter.processFile_stale hartifact hfresh, Interpreter.generate, hload]
  simp only [Interpreter.render_eq, starting, hwork, conclude, houtlets]
  cases w.outlets.deliver d (.artifact artifact) bytes with
  | mk outlets result => cases result <;> exact ⟨_, rfl, rfl⟩

/-- A template that has an output has it written to its artifact. -/
theorem processFile_output {artifact text : String} {time : Time} {bytes : ByteArray}
    {template target : Address} (htemplate : w.files.Leads path template)
    (htext : w.files.root.sightAt template = some (.file text.toUTF8 time))
    (hartifact : Host.artifactPath path options.extension = some artifact)
    (htarget : w.files.Leads artifact target)
    (hfresh : isFresh options w.files path (.artifact artifact) = .ok false)
    (hr : language.rendering w.files ⟨pathOf template, text⟩ = .output bytes) :
    ∃ v, processFile language options .artifact path w =
        (v, .completed (.generated (some artifact))) ∧ w.files.Wrote target bytes v.files := by
  obtain ⟨v, hfile, houtlets⟩ := processFile_delivered .sound hartifact hfresh
    (loadTemplate_of_text htemplate htext) hr
  obtain ⟨files, hdeliver, hput⟩ := Outlets.deliver_sound (o := w.outlets) htarget bytes
  rw [hdeliver] at hfile houtlets
  have hfiles : v.files = files := congrArg Outlets.files houtlets
  exact ⟨v, by rw [processFile, hfile]; rfl, hfiles ▸ hput.wrote⟩

/-- A template with an open region fails. -/
theorem processFile_unterminated {artifact : String} {template : Template} {e : Unterminated}
    (hartifact : Host.artifactPath path options.extension = some artifact)
    (hfresh : isFresh options w.files path (.artifact artifact) = .ok false)
    (hload : loadTemplate w.files path = .ok template)
    (hr : language.rendering w.files template = .unterminated e) :
    (processFile language options .artifact path w).2 = .failed (.markup template.path e) := by
  obtain ⟨u, -, hrender⟩ := render_eq language options template (w.report (.processing path))
  have hload : loadTemplate (w.report (.processing path)).files path = .ok template := hload
  rw [World.files_report, hr] at hrender
  rw [processFile_stale hartifact hfresh, generate_eq, hload]
  simp only [hrender]
  rfl

/-- A template whose program fails has the source of the program saved. -/
theorem processFile_broken {mode : Mode} {target : Target} {saved text unit : String} {time : Time}
    {e : ExecutionError} {template source : Address} (htemplate : w.files.Leads path template)
    (htext : w.files.root.sightAt template = some (.file text.toUTF8 time))
    (htarget : targetOf options mode path = some target)
    (hfresh : isFresh options w.files path target = .ok false)
    (hr : language.rendering w.files ⟨pathOf template, text⟩ = .broken unit e)
    (hsaved : Host.debugPath (pathOf template) options.debugSuffix options.extension = some saved)
    (hsource : w.files.Leads saved source) :
    ∃ v, processFile language options mode path w =
        (v, .failed (.execution (pathOf template) e (some saved))) ∧
      w.files.Wrote source unit.toUTF8 v.files := by
  have hload : loadTemplate (w.report (.processing path)).files path = .ok ⟨pathOf template, text⟩ :=
    loadTemplate_of_text htemplate htext
  obtain ⟨u, houtlets, hrender⟩ := render_eq language options ⟨pathOf template, text⟩
    (w.report (.processing path))
  have hfiles : u.files = w.files := congrArg Outlets.files houtlets
  obtain ⟨files, hsave, hput⟩ := Disk.save_sound hsource unit.toUTF8
  have hr : language.rendering (w.report (.processing path)).files ⟨pathOf template, text⟩ =
    .broken unit e := hr
  rw [hr] at hrender
  simp only [hsaved, saveSource, hfiles, hsave] at hrender
  have hprocess : processFile language options mode path w =
      generate language options path target (w.report (.processing path)) := by
    simp only [processFile_eq, htarget, hfresh]
  rw [hprocess, generate_eq, hload]
  simp only [hrender]
  exact ⟨_, rfl, hput.wrote⟩

end

/-! ## What the transform of a file may change -/

/-- Whether an attempt has no output to deliver: the file was skipped, or failed before. -/
def Attempt.Quiet : Attempt Outcome → Prop
  | .completed .skipped | .failed (.read ..) | .failed (.markup ..) | .failed (.execution ..) => True
  | _ => False

section

variable {σ : Type} {I : Interpreter σ} {d : Disk} {options : Options} {mode : Mode}
  {path : String} {x y : World × σ} {fs : FileSystem}

/-- What the transform of a file may change, by how it ends. -/
structure Contained (I : Interpreter σ) (d : Disk) (options : Options) (mode : Mode)
    (path : String) (x y : World × σ) (r : Attempt Outcome) : Prop where
  /-- Without output the shared writer stays as it is, and so does the artifact: whether it is
  there, its content and its time. -/
  quiet : r.Quiet → y.1.outlets.shared = x.1.outlets.shared ∧
    ∀ artifact, Host.artifactPath path options.extension = some artifact →
      y.1.files.look artifact = x.1.files.look artifact
  /-- An artifact that was made holds the output, and the shared writer stays as it is. -/
  artifact : mode = .artifact → ∀ made, r = .completed (.generated made) →
    ∃ artifact template bytes, made = some artifact ∧
      Host.artifactPath path options.extension = some artifact ∧
      loadTemplate x.1.files path = .ok template ∧
      (I.render d options template (starting path x)).2 = .completed bytes ∧
      y.1.files.readBytes artifact = .ok bytes ∧ y.1.outlets.shared = x.1.outlets.shared
  /-- An artifact that could not be made was not opened, or it holds the first of the output. -/
  undelivered : mode = .artifact → ∀ e, r = .failed (.output path e) →
    ∃ artifact template bytes, Host.artifactPath path options.extension = some artifact ∧
      loadTemplate x.1.files path = .ok template ∧
      (I.render d options template (starting path x)).2 = .completed bytes ∧
      (y.1.files = x.1.files ∨
        ∃ part rest, y.1.files.readBytes artifact = .ok part ∧ part ++ rest = bytes) ∧
      y.1.outlets.shared = x.1.outlets.shared
  /-- Output for the shared writer is added at its end, and no file changes. -/
  stream : mode = .stream → ∀ made, r = .completed (.generated made) →
    ∃ template bytes, made = none ∧ loadTemplate x.1.files path = .ok template ∧
      (I.render d options template (starting path x)).2 = .completed bytes ∧
      y.1.outlets.shared.written = x.1.outlets.shared.written ++ bytes ∧
      y.1.files = x.1.files
  /-- The only file that can look different is the artifact that was made, or that failed as it was
  made, or the source of a failed program. -/
  frame : ∀ a, y.1.files.root.sightAt a ≠ x.1.files.root.sightAt a →
    (∃ artifact, Host.artifactPath path options.extension = some artifact ∧
      x.1.files.Leads artifact a ∧ mode = .artifact ∧
      (r = .completed (.generated (some artifact)) ∨ ∃ e, r = .failed (.output path e))) ∨
      ∃ template e saved p, r = .failed (.execution template.path e saved) ∧
        loadTemplate x.1.files path = .ok template ∧
        Host.debugPath template.path options.debugSuffix options.extension = some p ∧
        x.1.files.Leads p a
  unskipped : mode = .stream → r ≠ .completed .skipped
  finished : r ≠ .abandoned

/-- An attempt without output that changes no outlet is contained. -/
theorem Contained.of_outlets {r : Attempt Outcome} (h : y.1.outlets = x.1.outlets) (hr : r.Quiet)
    (hskip : mode = .stream → r ≠ .completed .skipped) :
    Contained I d options mode path x y r where
  quiet _ := by
    have hfiles : y.1.files = x.1.files := congrArg Outlets.files h
    exact ⟨congrArg Outlets.shared h, fun _ _ => by rw [hfiles]⟩
  artifact _ made hmade := by rw [hmade] at hr; cases hr
  undelivered _ e he := by rw [he] at hr; cases hr
  stream _ made hmade := by rw [hmade] at hr; cases hr
  frame a ha := absurd (congrArg (fun o => o.files.root.sightAt a) h) ha
  unskipped := hskip
  finished hnone := by rw [hnone] at hr; cases hr

/-- The source of a failed program stands beside its template, and not where the artifact does. -/
theorem FileSystem.Plain.look_saved {template : Template} {saved artifact : String}
    {content : ByteArray} {files : FileSystem} {result : Except IoError Unit} (h : fs.Plain)
    (hext : '/' ∉ options.extension.toList) (hsuffix : '/' ∉ options.debugSuffix.toList)
    (hload : loadTemplate fs path = .ok template)
    (hsaved : Host.debugPath template.path options.debugSuffix options.extension = some saved)
    (htried : fs.Tried saved content files result)
    (hartifact : Host.artifactPath path options.extension = some artifact) :
    files.look artifact = fs.look artifact := by
  rcases htried.cases_put with ⟨rfl, -⟩ | ⟨b, part, hleads, hput⟩
  · rfl
  obtain ⟨a, time, hloc, hsight, hpath⟩ := loadTemplate_ok hload
  have hfile : fs.root.shapeAt a = some .file := by rw [Node.shapeAt, hsight]; rfl
  have hlong : '/' ∉ (options.debugSuffix ++ "." ++ options.extension).toList := fun hmem =>
    (slash_mem_debug hmem).elim hext hsuffix
  rw [Host.debugPath, hpath] at hsaved
  have hb := h.leads_withExtension (h.locate_pathOf hloc hfile) hfile hlong hsaved hleads
  have hlt : options.extension.length <
      (options.debugSuffix ++ "." ++ options.extension).length := by
    rw [String.length_append, String.length_append, show ".".length = 1 from rfl]
    omega
  exact h.look_withExtension hloc hfile hext hlt hartifact (hb ▸ hput.wrote)

/-- A program that failed is contained, whatever came of saving its source. -/
theorem Contained.of_failed {template : Template} {e : ExecutionError} {p : String}
    {saved : Option String} {content : ByteArray} {files : FileSystem}
    {result : Except IoError Unit} (hplain : x.1.files.Plain)
    (hext : '/' ∉ options.extension.toList) (hsuffix : '/' ∉ options.debugSuffix.toList)
    (hload : loadTemplate x.1.files path = .ok template)
    (hpath : Host.debugPath template.path options.debugSuffix options.extension = some p)
    (htried : x.1.files.Tried p content files result)
    (houtlets : y.1.outlets = { x.1.outlets with files }) :
    Contained I d options mode path x y (.failed (.execution template.path e saved)) where
  quiet _ := by
    have hfiles : y.1.files = files := congrArg Outlets.files houtlets
    rw [hfiles]
    exact ⟨by rw [houtlets], fun artifact hartifact =>
      hplain.look_saved hext hsuffix hload hpath htried hartifact⟩
  artifact _ := nofun
  undelivered _ := nofun
  stream _ := nofun
  frame a ha := by
    have hfiles : y.1.files = files := congrArg Outlets.files houtlets
    refine .inr ⟨template, e, saved, p, rfl, hload, hpath, ?_⟩
    by_contra hno
    exact ha (hfiles ▸ htried.sightAt hno)
  unskipped _ := nofun
  finished := nofun

/-- Output that the shared writer did not take leaves the files alone. -/
theorem Contained.of_refused {e : IoError} (hfiles : y.1.files = x.1.files) :
    Contained I d options .stream path x y (.failed (.output path e)) where
  quiet := nofun
  artifact := nofun
  undelivered := nofun
  stream _ := nofun
  frame a ha := absurd (by rw [hfiles]) ha
  unskipped _ := nofun
  finished := nofun

/-- An output that failed on the disk is contained: its artifact was tried, and nothing else. -/
theorem Contained.of_tried {template : Template} {bytes : ByteArray} {artifact : String}
    {e : IoError} (hartifact : Host.artifactPath path options.extension = some artifact)
    (hload : loadTemplate x.1.files path = .ok template)
    (hrender : (I.render d options template (starting path x)).2 = .completed bytes)
    (hshared : y.1.outlets.shared = x.1.outlets.shared)
    (htried : x.1.files.Tried artifact bytes y.1.files (.error e)) :
    Contained I d options .artifact path x y (.failed (.output path e)) where
  quiet := nofun
  artifact _ := nofun
  undelivered _ _ _ := by
    refine ⟨artifact, template, bytes, hartifact, hload, hrender, ?_, hshared⟩
    refine htried.of_error.imp id ?_
    rintro ⟨a, part, rest, hleads, hput, hbytes⟩
    exact ⟨part, rest, (hput.wrote.leads hleads).readBytes_file hput.wrote.sightAt_self, hbytes⟩
  stream := nofun
  frame a ha := by
    refine .inl ⟨artifact, hartifact, ?_, rfl, .inr ⟨e, rfl⟩⟩
    by_contra hno
    exact ha (htried.sightAt hno)
  unskipped _ := nofun
  finished := nofun

/-- Output that the shared writer took is contained. -/
theorem Contained.of_streamed {template : Template} {bytes : ByteArray}
    (hload : loadTemplate x.1.files path = .ok template)
    (hrender : (I.render d options template (starting path x)).2 = .completed bytes)
    (hwritten : y.1.outlets.shared.written = x.1.outlets.shared.written ++ bytes)
    (hfiles : y.1.files = x.1.files) :
    Contained I d options .stream path x y (.completed (.generated none)) where
  quiet := nofun
  artifact := nofun
  undelivered := nofun
  stream _ made hmade := by
    cases hmade
    exact ⟨template, bytes, rfl, hload, hrender, hwritten, hfiles⟩
  frame a ha := absurd (by rw [hfiles]) ha
  unskipped _ := nofun
  finished := nofun

/-- An artifact that was made is contained. -/
theorem Contained.of_made {template : Template} {bytes : ByteArray} {artifact : String}
    (hartifact : Host.artifactPath path options.extension = some artifact)
    (hload : loadTemplate x.1.files path = .ok template)
    (hrender : (I.render d options template (starting path x)).2 = .completed bytes)
    (hshared : y.1.outlets.shared = x.1.outlets.shared)
    (htried : x.1.files.Tried artifact bytes y.1.files (.ok ())) :
    Contained I d options .artifact path x y (.completed (.generated (some artifact))) where
  quiet := nofun
  artifact _ made hmade := by
    cases hmade
    obtain ⟨b, hleads, hput⟩ := htried.of_ok
    exact ⟨artifact, template, bytes, rfl, hartifact, hload, hrender,
      (hput.wrote.leads hleads).readBytes_file hput.wrote.sightAt_self, hshared⟩
  undelivered _ := nofun
  stream := nofun
  frame a ha := by
    refine .inl ⟨artifact, hartifact, ?_, rfl, .inl rfl⟩
    by_contra hno
    exact ha (htried.sightAt hno)
  unskipped _ := nofun
  finished := nofun

theorem Handled.contained {r : Attempt Outcome} (h : Handled I d options mode path x y r)
    (hI : I.Inert) (hplain : x.1.files.Plain) (hext : '/' ∉ options.extension.toList)
    (hsuffix : '/' ∉ options.debugSuffix.toList) : Contained I d options mode path x y r := by
  -- The program leaves the outlets as they are.
  have hinert {template : Template} {v : World × σ} {r : Rendering}
      (hwork : I.work template (starting path x) = (v, r)) : v.1.outlets = x.1.outlets := by
    have hsame := hI.work_outlets template (starting path x)
    rw [hwork] at hsame
    exact hsame
  have hrender {template : Template} {v : World × σ} {bytes : ByteArray}
      (hwork : I.work template (starting path x) = (v, .output bytes)) :
      (I.render d options template (starting path x)).2 = .completed bytes :=
    Interpreter.render_completed_iff.mpr (by rw [hwork])
  cases h with
  | refused hslash => exact absurd hslash (not_or_intro hext hsuffix)
  | unreadable e houtlets => exact .of_outlets houtlets trivial fun _ hskip => by cases hskip
  | skipped hmode _ _ _ houtlets =>
    refine .of_outlets houtlets trivial fun hstream => ?_
    rw [hmode] at hstream
    cases hstream
  | unterminated _ _ houtlets => exact .of_outlets houtlets trivial fun _ hskip => by cases hskip
  | @broken v template source saved e files hload hwork hpath hsave houtlets =>
    have htried := d.save_tried v.1.files saved source.toUTF8
    rw [← saveSource, hsave, World.files, hinert hwork] at htried
    rw [hinert hwork] at houtlets
    exact .of_failed hplain hext hsuffix hload hpath htried houtlets
  | @unsaved v template source saved e io files hload hwork hpath hsave houtlets =>
    have htried := d.save_tried v.1.files saved source.toUTF8
    rw [← saveSource, hsave, World.files, hinert hwork] at htried
    rw [hinert hwork] at houtlets
    exact .of_failed hplain hext hsuffix hload hpath htried houtlets
  | @undelivered v template bytes target e hload hwork htarget hdeliver =>
    rw [hinert hwork] at hdeliver
    cases mode with
    | stream =>
      cases htarget
      exact .of_refused (Outlets.deliver_shared_error hdeliver).1
    | artifact =>
      obtain ⟨artifact, hartifact, rfl⟩ := Option.map_eq_some_iff.mp htarget
      obtain ⟨hshared, htried⟩ := x.1.outlets.deliver_tried d artifact bytes
      rw [hdeliver] at hshared htried
      exact .of_tried hartifact hload (hrender hwork) hshared htried
  | @generated v template bytes target hload hwork htarget hdeliver =>
    rw [hinert hwork] at hdeliver
    cases mode with
    | stream =>
      cases htarget
      obtain ⟨hfiles, hwritten⟩ := Outlets.deliver_shared_ok hdeliver
      exact .of_streamed hload (hrender hwork) hwritten hfiles
    | artifact =>
      obtain ⟨artifact, hartifact, rfl⟩ := Option.map_eq_some_iff.mp htarget
      obtain ⟨hshared, htried⟩ := x.1.outlets.deliver_tried d artifact bytes
      rw [hdeliver] at hshared htried
      exact .of_made hartifact hload (hrender hwork) hshared htried

/-- Where there are no links, and for a language whose snippets leave the files alone, the transform
of a file changes what its ending allows, and nothing else, whatever goes wrong on the disk. -/
theorem processFile_contained (I : Interpreter σ) (hI : I.Inert) (d : Disk) (options : Options)
    (mode : Mode) (path : String) (x : World × σ) (hplain : x.1.files.Plain)
    (hext : '/' ∉ options.extension.toList) (hsuffix : '/' ∉ options.debugSuffix.toList) :
    Contained I d options mode path x (I.processFile d options mode path x).1
      (I.processFile d options mode path x).2 :=
  (I.processFile_handled d options mode path x).contained hI hplain hext hsuffix

end

/-- A world with a template whose program does not compile, and an artifact from before. -/
def brokenWorld : World where
  outlets := ⟨⟨.directory [("a.tt", .file "<#)#>".toUTF8 3), ("a.rs", .file "old".toUTF8 2)] 0,
    "/", 5⟩, {}⟩
  diagnostics := {}
  log := []

theorem brokenWorld_plain : brokenWorld.files.Plain where
  root := rfl
  linkless := Node.linkless_files (by decide)

/-- The failed program's source is saved, and the artifact from before stays. -/
theorem processFile_contained_broken :
    let r := Lua.language.interpreter.processFile .sound {} .artifact "/a.tt" (brokenWorld, ())
    (∃ path e, r.2 = .failed (.execution path e (some "/a.debug_error.rs"))) ∧
      r.1.1.outlets.shared = brokenWorld.outlets.shared ∧
      r.1.1.files.look "/a.rs" = .ok (.file "old".toUTF8 2) ∧
      ∀ a, a ≠ ["a.debug_error.rs"] →
        r.1.1.files.root.sightAt a = brokenWorld.files.root.sightAt a := by
  intro r
  have hfile : brokenWorld.files.Leads "/a.tt" ["a.tt"] := .file (by decide) (by decide)
  obtain ⟨e, hr⟩ := Lua.rendering_unopened brokenWorld.files
  have hsaved : Host.debugPath (pathOf ["a.tt"]) "debug_error" "rs" = some "/a.debug_error.rs" := by
    decide
  have hsource : brokenWorld.files.Leads "/a.debug_error.rs" ["a.debug_error.rs"] :=
    @FileSystem.Leads.free _ _ [] "a.debug_error.rs" (by decide)
  have htarget : targetOf {} .artifact "/a.tt" = some (.artifact "/a.rs") := by decide
  obtain ⟨v, hprocess, -⟩ := processFile_broken hfile rfl htarget rfl hr hsaved hsource
  have hfailed : r.2 = .failed (.execution "/a.tt" e (some "/a.debug_error.rs")) :=
    congrArg Prod.snd (eq_of_stateless hprocess)
  have hcontained : Contained Lua.language.interpreter .sound {} .artifact "/a.tt" (brokenWorld, ())
      r.1 r.2 :=
    processFile_contained Lua.language.interpreter Lua.language.interpreter_inert .sound {} .artifact
      "/a.tt" (brokenWorld, ()) brokenWorld_plain (by decide) (by decide)
  obtain ⟨hshared, hlook⟩ := hcontained.quiet (by rw [hfailed]; trivial)
  refine ⟨⟨_, e, hfailed⟩, hshared, (hlook "/a.rs" (by decide)).trans rfl, fun a ha => ?_⟩
  by_contra hne
  rcases hcontained.frame a hne with
    ⟨artifact, -, -, -, hmade | ⟨_, hundelivered⟩⟩ | ⟨template, e', saved, p, -, hload, hp, hleads⟩
  · cases hfailed.symm.trans hmade
  · cases hfailed.symm.trans hundelivered
  · cases hload.symm.trans (loadTemplate_of_text hfile rfl)
    cases hsaved.symm.trans hp
    have hloc : brokenWorld.files.locate "/a.debug_error.rs" =
      .ok (.absent [] "a.debug_error.rs") := by decide
    exact ha (hleads.address_eq hloc)

/-- A world with a template in a directory, and an artifact from before. -/
def cutWorld : World where
  outlets := ⟨⟨.directory [("d", .directory [("a.tt", .file "x".toUTF8 3),
    ("a.rs", .file "old".toUTF8 2), ("b.tt", .file "y".toUTF8 3)] 1)] 0, "/", 5⟩, {}⟩
  diagnostics := {}
  log := []

theorem cutWorld_plain : cutWorld.files.Plain where
  root := rfl
  linkless := by
    refine Node.linkless_directory fun e he => ?_
    rw [List.mem_singleton.mp he]
    exact Node.linkless_files (by decide)

/-- On a full disk the artifact from before is lost to an output that fails; and where an artifact is
new, making it changes the directory that it is in. -/
theorem output_cut_off :
    let cut := Lua.language.interpreter.processFile (.withRoom 0) {} .artifact "/d/a.tt"
      (cutWorld, ())
    let made := processFile Lua.language {} .artifact "/d/b.tt" cutWorld
    cutWorld.files.Plain ∧
    (cut.2 = .failed (.output "/d/a.tt" (.os 28)) ∧
      cutWorld.files.readBytes "/d/a.rs" = .ok "old".toUTF8 ∧
      cut.1.1.files.readBytes "/d/a.rs" = .ok ByteArray.empty) ∧
    (made.2 = .completed (.generated (some "/d/b.rs")) ∧
      cutWorld.files.modifiedAt "/d" = .ok 1 ∧ made.1.files.modifiedAt "/d" = .ok 5) := by
  intro cut made
  have ha : cutWorld.files.Leads "/d/a.tt" ["d", "a.tt"] := .file (by decide) (by decide)
  have hb : cutWorld.files.Leads "/d/b.tt" ["d", "b.tt"] := .file (by decide) (by decide)
  refine ⟨cutWorld_plain, ?_, ?_⟩
  · have hr : Lua.language.rendering cutWorld.files ⟨pathOf ["d", "a.tt"], "x"⟩ =
        .output "x".toUTF8 := Lua.rendering_markerFree .isolated _ (by decide) (by decide)
    have hresult : (cutWorld.outlets.deliver (.withRoom 0) (.artifact "/d/a.rs")
        "x".toUTF8).2 = .error (.os 28) := by
      decide +kernel
    have hread : (cutWorld.outlets.deliver (.withRoom 0) (.artifact "/d/a.rs")
        "x".toUTF8).1.files.readBytes "/d/a.rs" = .ok ByteArray.empty := by
      decide +kernel
    obtain ⟨v, hfile, houtlets⟩ := @processFile_delivered Lua.language {} "/d/a.tt" cutWorld
      (.withRoom 0) "/d/a.rs" _ _ (by decide) rfl (loadTemplate_of_text ha rfl) hr
    rw [hresult] at hfile
    simp only [cut, hfile, World.files, houtlets]
    exact ⟨trivial, rfl, hread⟩
  · have hr : Lua.language.rendering cutWorld.files ⟨pathOf ["d", "b.tt"], "y"⟩ =
        .output "y".toUTF8 := Lua.rendering_markerFree .isolated _ (by decide) (by decide)
    have hresult : (cutWorld.outlets.deliver .sound (.artifact "/d/b.rs")
        "y".toUTF8).2 = .ok () := by
      decide +kernel
    have hchanged : (cutWorld.outlets.deliver .sound (.artifact "/d/b.rs")
        "y".toUTF8).1.files.modifiedAt "/d" = .ok 5 := by
      decide +kernel
    obtain ⟨v, hfile, houtlets⟩ := @processFile_delivered Lua.language {} "/d/b.tt" cutWorld
      .sound "/d/b.rs" _ _ (by decide) rfl (loadTemplate_of_text hb rfl) hr
    rw [hresult] at hfile
    simp only [made, processFile, hfile, stateless, World.files, houtlets]
    exact ⟨trivial, rfl, hchanged⟩

end Stencil
