import Stencil.Proofs.Batch.Run
import Stencil.Proofs.Batch.Skip

/-!
# After an output that failed

An output fails because its artifact cannot be opened, or later, when it is written or flushed. The
next run goes by what then stands at the path of the artifact. What could not be opened is what was
there before; what was opened is as new as the run that failed. Either can be newer than the
template, and then the file is skipped although it has no output.

* `Interpreter.processFile_skipped_iff`: whether a file is skipped is decided before it is read;
* `Interpreter.processFile_output_failed`: what went before an output that failed;
* `skipped_after_failed_output`: when a file whose output failed is skipped;
* `failed_output_skipped`: a file that is skipped although its output was never written.
-/

namespace Stencil

section

variable {σ : Type} {I : Interpreter σ} {d : Disk} {options : Options} {p q artifact : String}
  {x y z : World × σ} {now : Time} {e : IoError}

/-! ## Transforms that fail -/

/-- Whether a file is skipped is decided before it is read. -/
theorem Interpreter.processFile_skipped_iff (I : Interpreter σ) (d : Disk) (x : World × σ)
    (hartifact : Host.artifactPath p options.extension = some artifact) :
    (I.processFile d options .artifact p x).2 = .completed .skipped ↔
      isFresh options x.1.files p (.artifact artifact) = .ok true := by
  rw [processFile, targetOf, hartifact]
  simp only [Option.map_some]
  cases isFresh options x.1.files p (.artifact artifact) with
  | error e =>
    constructor
    · intro hskip
      cases hskip
    · intro hfresh
      cases hfresh
  | ok fresh =>
    cases fresh with
    | true => exact ⟨fun _ => rfl, fun _ => rfl⟩
    | false =>
      constructor
      · intro hskip
        exact absurd hskip (I.generate_ne_skipped d options p _ _)
      · intro hfresh
        cases hfresh

/-- An output that fails is that of a file that was not up to date, or was forced, and whose template
was run to its end. -/
theorem Interpreter.processFile_output_failed
    (h : I.processFile d options .artifact p x = (y, .failed (.output q e))) :
    ∃ artifact template bytes v, Host.artifactPath p options.extension = some artifact ∧
      isFresh options x.1.files p (.artifact artifact) = .ok false ∧
      loadTemplate x.1.files p = .ok template ∧
      I.work template (starting p x) = (v, .output bytes) ∧
      v.1.outlets.deliver d (.artifact artifact) bytes = (y.1.outlets, .error e) := by
  have hhandled := I.processFile_handled d options .artifact p x
  rw [h] at hhandled
  cases hhandled with
  | @undelivered v template bytes target _ hload hwork htarget hdeliver =>
    obtain ⟨artifact, hartifact, rfl⟩ := Option.map_eq_some_iff.mp htarget
    refine ⟨artifact, template, bytes, v, hartifact, ?_, hload, hwork, hdeliver⟩
    rw [processFile, htarget] at h
    simp only at h
    split at h
    · cases h
    · cases h
    · assumption

/-! ## The next run -/

/-- Let the output of a file fail, whatever its snippets did and whatever went wrong, and let nothing
change but the clock. The next run that is not forced skips the file exactly if what stands at the
path of its artifact is newer. If that could not be opened, it is what the snippets left; so where
they leave the files alone, it was newer before, and the run that failed was forced. If it was
opened, it is as new as that run. -/
theorem skipped_after_failed_output (I : Interpreter σ) (d d' : Disk) (options : Options)
    (hfailed : I.processFile d options .artifact p x = (y, .failed (.output q e)))
    (hz : z.1.files = { y.1.files with now }) :
    ∃ artifact template bytes v, Host.artifactPath p options.extension = some artifact ∧
      loadTemplate x.1.files p = .ok template ∧
      I.work template (starting p x) = (v, .output bytes) ∧
      let skipped := (I.processFile d' { options with force := false } .artifact p z).2 =
        .completed .skipped
      (skipped ↔ y.1.files.Outdates artifact p) ∧
      (∀ io, d.create v.1.files artifact = .error io → y.1.files = v.1.files ∧
        (I.Inert → (skipped ↔ options.force = true ∧ x.1.files.Outdates artifact p))) ∧
      ∀ opened, d.create v.1.files artifact = .ok opened →
        (skipped ↔ ∃ time, y.1.files.modifiedAt p = .ok time ∧ time < v.1.files.now) := by
  obtain ⟨artifact, template, bytes, v, hartifact, hstale, hload, hwork, hdeliver⟩ :=
    Interpreter.processFile_output_failed hfailed
  refine ⟨artifact, template, bytes, v, hartifact, hload, hwork, ?_⟩
  have hnow : isUpToDate z.1.files p artifact = isUpToDate y.1.files p artifact := by
    rw [hz]
    rfl
  have hskipped : (I.processFile d' { options with force := false } .artifact p z).2 =
      .completed .skipped ↔ y.1.files.Outdates artifact p := by
    rw [@Interpreter.processFile_skipped_iff _ { options with force := false } _ _ I d' z hartifact,
      isFresh, if_neg Bool.false_ne_true, hnow, isUpToDate_iff]
  refine ⟨hskipped, fun io hcreate => ?_, fun opened hcreate => ?_⟩
  · rw [Outlets.deliver_unopened hcreate] at hdeliver
    have houtlets : v.1.outlets = y.1.outlets := congrArg Prod.fst hdeliver
    have hsame : y.1.files = v.1.files := congrArg Outlets.files houtlets.symm
    refine ⟨hsame, fun hI => hskipped.trans ?_⟩
    have hinert := hI.work_outlets template (starting p x)
    rw [hwork] at hinert
    have hbefore : y.1.files = x.1.files := hsame.trans (congrArg Outlets.files hinert)
    rw [hbefore]
    refine ⟨fun h => ⟨?_, h⟩, And.right⟩
    -- A run that was not forced found the artifact older, and so it still is.
    by_contra hforce
    rw [isFresh, if_neg hforce, isUpToDate_iff.mpr h] at hstale
    cases hstale
  · obtain ⟨o, a, part, rest, result, hdeliver', -, hleads, hput, -, -⟩ :=
      Outlets.deliver_opened hcreate bytes
    cases hdeliver'.symm.trans hdeliver
    have hage : y.1.files.modifiedAt artifact = .ok v.1.files.now :=
      (hput.wrote.leads hleads).modifiedAt_file hput.wrote.sightAt_self
    refine hskipped.trans ⟨?_, ?_⟩
    · rintro ⟨time, changed, htime, hchanged, hlt⟩
      cases hage.symm.trans hchanged
      exact ⟨time, htime, hlt⟩
    · rintro ⟨time, htime, hlt⟩
      exact ⟨time, _, htime, hage, hlt⟩

end

/-! ### A directory in the place of an artifact, and a full disk -/

/-- A world with a directory in the place of an artifact. -/
def blockedWorld (changed : Time) : World where
  outlets := ⟨⟨.directory [("a.tt", .file "x\n".toUTF8 3), ("a.rs", .directory [] changed)] 0, "/",
    5⟩, {}⟩
  diagnostics := {}
  log := []

/-- The directory cannot be opened, and stays as it is. -/
theorem blockedWorld_fails {force : Bool} {changed : Time}
    (hstale : isFresh { force } (blockedWorld changed).files "/a.tt" (.artifact "/a.rs") =
      .ok false) :
    ∃ v, Lua.language.interpreter.processFile .sound { force } .artifact "/a.tt"
        (blockedWorld changed, ()) = ((v, ()), .failed (.output "/a.tt" .isADirectory)) ∧
      v.files = (blockedWorld changed).files := by
  have hleads : (blockedWorld changed).files.Leads "/a.tt" ["a.tt"] := .file rfl rfl
  have hartifact : Host.artifactPath "/a.tt" "rs" = some "/a.rs" := by decide
  have hr : Lua.language.rendering (blockedWorld changed).files
      ⟨FileSystem.pathOf ["a.tt"], "x\n"⟩ = .output "x\n".toUTF8 :=
    Lua.rendering_markerFree .isolated _ (by decide) (by decide)
  have hdeliver : (blockedWorld changed).outlets.deliver .sound (.artifact "/a.rs") "x\n".toUTF8 =
      ((blockedWorld changed).outlets, .error .isADirectory) :=
    Outlets.deliver_unopened rfl _
  obtain ⟨v, hfile, houtlets⟩ := processFile_delivered .sound hartifact hstale
    (loadTemplate_of_text hleads rfl) hr
  rw [hdeliver] at hfile houtlets
  exact ⟨v, hfile, congrArg Outlets.files houtlets⟩

/-- The artifact is created, and nothing fits into it. -/
theorem loneWorld_fails : ∃ v, Lua.language.interpreter.processFile (.withRoom 0) {} .artifact
    "/a.tt" (loneWorld, ()) = ((v, ()), .failed (.output "/a.tt" (.os 28))) ∧
      v.files.modifiedAt "/a.tt" = .ok 3 := by
  have hleads : loneWorld.files.Leads "/a.tt" ["a.tt"] := .file rfl rfl
  have hr : Lua.language.rendering loneWorld.files ⟨FileSystem.pathOf ["a.tt"], "x\n"⟩ =
      .output "x\n".toUTF8 :=
    Lua.rendering_markerFree .isolated _ (by decide) (by decide)
  have hresult : (loneWorld.outlets.deliver (.withRoom 0) (.artifact "/a.rs") "x\n".toUTF8).2 =
      .error (.os 28) := by
    decide +kernel
  have htime : (loneWorld.outlets.deliver (.withRoom 0) (.artifact "/a.rs")
      "x\n".toUTF8).1.files.modifiedAt "/a.tt" = .ok 3 := by
    decide +kernel
  obtain ⟨v, hfile, houtlets⟩ := @processFile_delivered Lua.language {} "/a.tt" loneWorld
    (.withRoom 0) "/a.rs" _ _ (by decide) rfl (loadTemplate_of_text hleads rfl) hr
  rw [hresult] at hfile
  exact ⟨v, hfile, by rw [World.files, houtlets, htime]⟩

/-- A directory that is older than the template fails again. A full disk leaves an empty artifact,
and the next run takes it for the output. -/
theorem skipped_after_failed_output_full :
    let I := Lua.language.interpreter
    (∃ v, I.processFile .sound {} .artifact "/a.tt" (blockedWorld 2, ()) =
        (v, .failed (.output "/a.tt" .isADirectory)) ∧
      (I.processFile .sound {} .artifact "/a.tt" v).2 ≠ .completed .skipped) ∧
    ∃ v, I.processFile (.withRoom 0) {} .artifact "/a.tt" (loneWorld, ()) =
        (v, .failed (.output "/a.tt" (.os 28))) ∧
      (I.processFile .sound {} .artifact "/a.tt" v).2 = .completed .skipped := by
  intro I
  have hwork {template : Template} {y v : World × Unit} {r : Rendering}
      (h : I.work template (starting "/a.tt" y) = (v, r)) : v.1.files = y.1.files := by
    have hsame := Lua.language.interpreter_inert.work_outlets template (starting "/a.tt" y)
    rw [h] at hsame
    exact congrArg Outlets.files hsame
  have hpath : Host.artifactPath "/a.tt" "rs" = some "/a.rs" := by decide
  constructor
  · obtain ⟨v, hfailed, -⟩ := @blockedWorld_fails false 2 rfl
    obtain ⟨artifact, template, bytes, u, hartifact, -, hrun, -, hskipped, -⟩ :=
      skipped_after_failed_output (z := (v, ())) I .sound .sound {} hfailed rfl
    cases hpath.symm.trans hartifact
    have hcreate : Disk.create .sound u.1.files "/a.rs" = .error .isADirectory := by
      rw [hwork hrun]
      rfl
    refine ⟨(v, ()), hfailed, fun h => ?_⟩
    have hforced := (((hskipped _ hcreate).2 Lua.language.interpreter_inert).mp h).1
    exact Bool.false_ne_true hforced
  · obtain ⟨v, hfailed, htime⟩ := loneWorld_fails
    obtain ⟨artifact, template, bytes, u, hartifact, -, hrun, -, -, hskipped⟩ :=
      skipped_after_failed_output (z := (v, ())) I (.withRoom 0) .sound {} hfailed rfl
    cases hpath.symm.trans hartifact
    obtain ⟨opened, hcreate⟩ : ∃ opened, Disk.create (.withRoom 0) u.1.files "/a.rs" = .ok opened := by
      rw [hwork hrun]
      exact ⟨_, rfl⟩
    refine ⟨(v, ()), hfailed, (hskipped _ hcreate).mpr ⟨3, htime, ?_⟩⟩
    rw [hwork hrun]
    decide

/-- An output that is forced onto a newer directory fails, and after that the file is skipped. -/
theorem failed_output_skipped :
    ∃ v, processFile Lua.language { force := true } .artifact "/a.tt" (blockedWorld 4) =
        (v, .failed (.output "/a.tt" .isADirectory)) ∧
      (processFile Lua.language {} .artifact "/a.tt" v).2 = .completed .skipped := by
  obtain ⟨v, hfailed, hsame⟩ := @blockedWorld_fails true 4 rfl
  have hartifact : Host.artifactPath "/a.tt" "rs" = some "/a.rs" := by decide
  have htime : v.files.modifiedAt "/a.tt" = .ok 3 := by
    rw [hsame]
    rfl
  have hchanged : v.files.modifiedAt "/a.rs" = .ok 4 := by
    rw [hsame]
    rfl
  refine ⟨v, by rw [processFile, hfailed]; rfl, ?_⟩
  rw [processFile_fresh rfl hartifact htime hchanged (by decide)]

end Stencil
