import Stencil.Proofs.Batch.Outcome
import Stencil.Proofs.Lua.Unit

/-!
# Saving the source of a failed program

The source of a failed program is saved on the way out of a failure, and saving can itself fail: in
front of its file, or once part of the source was written. Neither may hide why the program failed.

* `Saving`, `Saving.Lawful`: how a file is saved, and what saving can come to;
* `Saving.onDisk_lawful`, `Saving.onDisk_render`: every disk is such a way, and renders that save on it
  are those of the batch;
* `Saving.Lawful.changes_only`: whatever comes of saving, no other file changes;
* `Saving.render_settled`: how a render ends and which file it may write, whatever comes of saving.
-/

namespace Stencil

/-- How the content of a file is saved. A save that fails may have changed files before. -/
def Saving : Type :=
  FileSystem → String → ByteArray → FileSystem × Except IoError Unit

namespace Saving

/-- Files are saved on a disk. -/
def onDisk (d : Disk) : Saving :=
  d.save

/-- The output of a template, with the source of a failed program saved in this way. -/
def render (s : Saving) (language : Language) (options : Options) (template : Template)
    (w : World) : World × Attempt ByteArray :=
  match prepare language.dialect template with
  | .error e => (w, .failed (.markup template.path e))
  | .ok (u, events) =>
    match execute language template.path u (w.reportAll events) with
    | (w, .ok output) => (w, .completed output)
    | (w, .error e) =>
      match Host.debugPath template.path options.debugSuffix options.extension with
      | none => (w, .abandoned)
      | some path =>
        match s w.files path u.source.toUTF8 with
        | (files, .ok _) => (w.withFiles files, .failed (.execution template.path e (some path)))
        | (files, .error io) =>
          ((w.withFiles files).report (.sourceUnsaved template.path io.message),
            .failed (.execution template.path e none))

/-- On a disk, a render is that of the batch on this disk. -/
theorem onDisk_render (d : Disk) (language : Language) (options : Options) (template : Template)
    (w : World) :
    (onDisk d).render language options template w =
      stateless (language.interpreter.render d options template (w, ())) := by
  have hdialect : language.interpreter.dialect = language.dialect := rfl
  rw [render, Interpreter.render, hdialect]
  cases prepare language.dialect template with
  | error e => rfl
  | ok prepared =>
    obtain ⟨u, events⟩ := prepared
    simp only [execute, stateless]
    obtain ⟨⟨w', ⟨⟩⟩, result⟩ :=
      language.interpreter.execute template.path u (w.reportAll events, ())
    cases result with
    | ok output => rfl
    | error e =>
      cases hpath : Host.debugPath template.path options.debugSuffix options.extension with
      | none => simp only [settle, hpath]
      | some path =>
        obtain ⟨⟨files, result⟩, hsave⟩ : ∃ r, d.save w'.files path u.source.toUTF8 = r := ⟨_, rfl⟩
        cases result with
        | ok v => simp only [settle, saveSource, onDisk, hpath, hsave]
        | error io => simp only [settle, saveSource, onDisk, hpath, hsave]

/-- What saving can come to: a save that succeeds leaves the whole content at the path; one that
fails leaves the files alone, or leaves some other content there. -/
structure Lawful (s : Saving) : Prop where
  saved {fs fs' : FileSystem} {p : String} {content : ByteArray} :
    s fs p content = (fs', .ok ()) → ∃ a, fs.Leads p a ∧ fs.Wrote a content fs'
  unsaved {fs fs' : FileSystem} {p : String} {content : ByteArray} {e : IoError} :
    s fs p content = (fs', .error e) →
      fs' = fs ∨ ∃ a part, fs.Leads p a ∧ fs.Wrote a part fs'

variable {s : Saving} {fs fs' : FileSystem} {p : String} {content : ByteArray}

/-- Whatever goes wrong on a disk, saving on it is lawful. -/
theorem onDisk_lawful (d : Disk) : (onDisk d).Lawful where
  saved {fs fs' p content} h := by
    have htried := d.save_tried fs p content
    rw [show d.save fs p content = (fs', .ok ()) from h] at htried
    obtain ⟨a, hleads, hput⟩ := htried.of_ok
    exact ⟨a, hleads, hput.wrote⟩
  unsaved {fs fs' p content e} h := by
    have htried := d.save_tried fs p content
    rw [show d.save fs p content = (fs', .error e) from h] at htried
    rcases htried.of_error with hsame | ⟨a, part, rest, hleads, hput, -⟩
    · exact .inl hsame
    · exact .inr ⟨a, part, hleads, hput.wrote⟩

namespace Lawful

/-- A file that was saved holds the content. -/
theorem readBytes (hs : s.Lawful) (h : s fs p content = (fs', .ok ())) :
    fs'.readBytes p = .ok content := by
  obtain ⟨a, hleads, hwrote⟩ := hs.saved h
  exact (hwrote.leads hleads).readBytes_file hwrote.sightAt_self

/-- Whatever comes of saving, only what the path leads to can look different. -/
theorem changes_only (hs : s.Lawful) (fs : FileSystem) (p : String) (content : ByteArray)
    {a : Address} (ha : ¬ fs.Leads p a) :
    (s fs p content).1.root.sightAt a = fs.root.sightAt a := by
  have of_wrote {b : Address} {part : ByteArray} {fs' : FileSystem} (hleads : fs.Leads p b)
      (hwrote : fs.Wrote b part fs') : fs'.root.sightAt a = fs.root.sightAt a :=
    hwrote.sightAt_other fun hab => ha (hab ▸ hleads)
  cases hsave : s fs p content with
  | mk fs' result =>
    cases result with
    | ok _ =>
      obtain ⟨b, hleads, hwrote⟩ := hs.saved hsave
      exact of_wrote hleads hwrote
    | error e =>
      rcases hs.unsaved hsave with rfl | ⟨b, part, hleads, hwrote⟩
      · rfl
      · exact of_wrote hleads hwrote

end Lawful

/-! ## Renders -/

/-- How a render ends and what it leaves, with the source of a failed program saved in this way. -/
structure Settled (s : Saving) (language : Language) (options : Options) (template : Template)
    (w w' : World) (r : Attempt ByteArray) : Prop where
  /-- Markup with an open region is the failure, and nothing is written. -/
  unterminated {e : Unterminated} : Markup.parse template.text = .error e →
    r = .failed (.markup template.path e) ∧ w'.outlets = w.outlets
  /-- A program that runs to its end gives its output, and nothing is written. -/
  output {u : CompilationUnit} {events : List Event} {program : language.Program}
    {bytes : ByteArray} : prepare language.dialect template = .ok (u, events) →
    language.compile w.files template.path u = .ok program → language.run program = .ok bytes →
    r = .completed bytes ∧ w'.outlets = w.outlets
  /-- The failure of a program is reported whether or not its source could be saved; the source is
  that of the unit that was compiled. -/
  broken {u : CompilationUnit} {events : List Event} {e : ExecutionError} :
    prepare language.dialect template = .ok (u, events) →
    (language.compile w.files template.path u = .error e ∨
      ∃ program, language.compile w.files template.path u = .ok program ∧
        language.run program = .error e) →
    ∃ p saved, Path.withExtension template.path (options.debugSuffix ++ "." ++ options.extension) =
        some p ∧
      r = .failed (.execution template.path e saved) ∧
      (saved = some p ↔ (s w.files p u.source.toUTF8).2 = .ok ()) ∧
      (saved = none ↔ (s w.files p u.source.toUTF8).2 ≠ .ok ()) ∧
      (saved = some p → w'.files.readBytes p = .ok u.source.toUTF8) ∧
      w'.outlets.shared = w.outlets.shared ∧
      ∀ a, ¬ w.files.Leads p a → w'.files.root.sightAt a = w.files.root.sightAt a

variable {language : Language} {options : Options} {template : Template} {w : World}

/-- A unit that fails to compile or to run has its source saved, and the failure is kept. -/
theorem render_failed (s : Saving) {u : CompilationUnit} {events : List Event}
    {e : ExecutionError} {saved : String}
    (hprepare : prepare language.dialect template = .ok (u, events))
    (hperform : language.perform w.files template.path u = .error e)
    (hpath : Host.debugPath template.path options.debugSuffix options.extension = some saved) :
    (s.render language options template w).2 = .failed (.execution template.path e
        (match (s w.files saved u.source.toUTF8).2 with
        | .ok _ => some saved
        | .error _ => none)) ∧
      (s.render language options template w).1.outlets =
        { w.outlets with files := (s w.files saved u.source.toUTF8).1 } := by
  obtain ⟨w', hexecute, houtlets⟩ := execute_spec language template.path u (w.reportAll events)
  have houtlets : w'.outlets = w.outlets := houtlets
  have hfiles : w'.files = w.files := congrArg Outlets.files houtlets
  rw [World.files_reportAll, hperform] at hexecute
  simp only [render, hprepare, hexecute, hpath, hfiles]
  cases hsave : s w.files saved u.source.toUTF8 with
  | mk files result =>
    cases result with
    | ok _ => exact ⟨rfl, by simp only [World.withFiles, houtlets]⟩
    | error io => exact ⟨rfl, by simp only [World.withFiles, World.report, houtlets]⟩

/-- A unit that is compiled and run to its end gives its output; only the log grows. -/
theorem render_completed (s : Saving) {u : CompilationUnit} {events : List Event}
    {bytes : ByteArray} (options : Options)
    (hprepare : prepare language.dialect template = .ok (u, events))
    (hperform : language.perform w.files template.path u = .ok bytes) :
    (s.render language options template w).2 = .completed bytes ∧
      (s.render language options template w).1.outlets = w.outlets := by
  obtain ⟨w', hexecute, houtlets⟩ := execute_spec language template.path u (w.reportAll events)
  rw [World.files_reportAll, hperform] at hexecute
  simp only [render, hprepare, hexecute]
  exact ⟨trivial, houtlets⟩

/-- However the source of a failed program is saved, a render keeps to what its template comes to:
the failure is the program's own, the file that is reported as saved holds the source that was
compiled, and no other file changes. -/
theorem render_settled (s : Saving) (hs : s.Lawful) (language : Language) (options : Options)
    (template : Template) (w : World) (hext : '/' ∉ options.extension.toList)
    (hsuffix : '/' ∉ options.debugSuffix.toList) :
    Settled s language options template w (s.render language options template w).1
      (s.render language options template w).2 where
  unterminated {e} hparse := by
    have hprepare : prepare language.dialect template = .error e := by rw [prepare, hparse]
    simp only [render, hprepare]
    exact ⟨trivial, trivial⟩
  output {u events program bytes} hprepare hcompile hrun := by
    refine render_completed s options hprepare ?_
    rw [Language.perform, hcompile]
    exact hrun
  broken {u events e} hprepare hfail := by
    have hperform : language.perform w.files template.path u = .error e := by
      rcases hfail with hcompile | ⟨program, hcompile, hrun⟩
      · rw [Language.perform, hcompile]
      · rw [Language.perform, hcompile]
        exact hrun
    have hlong : '/' ∉ (options.debugSuffix ++ "." ++ options.extension).toList := fun hmem =>
      (slash_mem_debug hmem).elim hext hsuffix
    obtain ⟨p, hp⟩ : ∃ p,
        Host.debugPath template.path options.debugSuffix options.extension = some p :=
      Option.ne_none_iff_exists'.mp (Path.withExtension_ne_none hlong)
    obtain ⟨hresult, houtlets⟩ := render_failed s hprepare hperform hp
    have hfiles : (s.render language options template w).1.files =
      (s w.files p u.source.toUTF8).1 := congrArg Outlets.files houtlets
    have hshared : (s.render language options template w).1.outlets.shared = w.outlets.shared := by
      rw [houtlets]
    have hframe {a : Address} (ha : ¬ w.files.Leads p a) :
        (s.render language options template w).1.files.root.sightAt a = w.files.root.sightAt a :=
      hfiles ▸ hs.changes_only w.files p _ ha
    refine ⟨p, _, hp, hresult, ?_⟩
    cases hsave : s w.files p u.source.toUTF8 with
    | mk files result =>
      rw [hsave] at hfiles
      cases result with
      | ok _ =>
        refine ⟨by simp, by simp, fun _ => ?_, hshared, fun a => hframe⟩
        rw [hfiles]
        exact hs.readBytes hsave
      | error io => exact ⟨by simp, by simp, by simp, hshared, fun a => hframe⟩

/-- Of a program that does not compile the failure is the same, whether its source can be saved or
only the first of it can. -/
theorem render_settled_cut :
    let u := Lua.unopened
    let saved := (onDisk .sound).render Lua.language {} ⟨"/a.tt", "<#)#>"⟩ brokenWorld
    let cut := (onDisk (.withRoom 3)).render Lua.language {} ⟨"/a.tt", "<#)#>"⟩ brokenWorld
    ∃ e, Lua.language.compile brokenWorld.files "/a.tt" u = .error e ∧
      saved.2 = .failed (.execution "/a.tt" e (some "/a.debug_error.rs")) ∧
      saved.1.files.readBytes "/a.debug_error.rs" = .ok u.source.toUTF8 ∧
      cut.2 = .failed (.execution "/a.tt" e none) := by
  intro u saved cut
  obtain ⟨events, hprepare⟩ := Lua.prepare_unopened
  obtain ⟨e, hcompile⟩ := Lua.compile_unopened
  have hcompile := hcompile brokenWorld.files
  have hpath : Path.withExtension "/a.tt" "debug_error.rs" = some "/a.debug_error.rs" := by decide
  obtain ⟨p, place, hp, hsaved, hplace, -, hread, -⟩ := (render_settled (onDisk .sound)
    (onDisk_lawful .sound) Lua.language {} ⟨"/a.tt", "<#)#>"⟩ brokenWorld (by decide)
    (by decide)).broken hprepare (.inl hcompile)
  obtain ⟨p', place', hp', hcut, -, hnone, -⟩ := (render_settled (onDisk (.withRoom 3))
    (onDisk_lawful (.withRoom 3)) Lua.language {} ⟨"/a.tt", "<#)#>"⟩ brokenWorld (by decide)
    (by decide)).broken hprepare (.inl hcompile)
  cases hpath.symm.trans hp
  cases hpath.symm.trans hp'
  have hfits : (onDisk .sound brokenWorld.files "/a.debug_error.rs" u.source.toUTF8).2 = .ok () := by
    decide +kernel
  have hshort : (onDisk (.withRoom 3) brokenWorld.files "/a.debug_error.rs" u.source.toUTF8).2 ≠
      .ok () := by
    decide +kernel
  rw [hplace.mpr hfits] at hsaved
  rw [hnone.mpr hshort] at hcut
  exact ⟨e, hcompile, hsaved, hread (hplace.mpr hfits), hcut⟩

end Saving

end Stencil
