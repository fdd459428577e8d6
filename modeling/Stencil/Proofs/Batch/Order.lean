import Stencil.Proofs.Batch.Run
import Stencil.Proofs.Batch.Skip

/-!
# The order of a batch

What becomes of a file is decided by its template and its artifact. Where no artifact stands in the
place of a template or of another artifact, no file of a batch decides over another, so the files
can be transformed in any order, whatever time it is in between.

* `runTimed`: a batch whose clock goes its own way, of which `runBatch` is one case
  (`runTimed_still`);
* `Fate`: what becomes of a file, by what stands where its template and its artifact do;
* `processFile_fate`, `Fate.processFile`: a file that completes has that fate, and only that;
* `Made`: the file system after some artifacts were made;
* `runTimed_fates`, `runTimed_of_fates`: a batch that completes, and a batch of files with fates;
* `runTimed_perm`: the order and the clock of a batch do not matter.
-/

namespace Stencil

open FileSystem (pathOf)

/-! ## Clocks -/

/-- The same world at another time. -/
def World.atTime (w : World) (now : Time) : World :=
  w.withFiles { w.files with now }

/-- Transforms the files of a list in order, up to the first failure. The clock shows the time at
which each file is transformed. -/
def runTimed (language : Language) (options : Options) (mode : Mode) :
    (Nat → Time) → List String → World → World × BatchReport
  | _, [], w => (w, ⟨[], none, false⟩)
  | clock, path :: rest, w =>
    match processFile language options mode path (w.atTime (clock 0)) with
    | (w, .completed outcome) =>
      let (w, report) := runTimed language options mode (fun n => clock (n + 1)) rest w
      (w, report.cons ⟨path, outcome⟩)
    | (w, .failed e) => (w.diagnose e, ⟨[], some e, false⟩)
    | (w, .abandoned) => (w, ⟨[], none, true⟩)

variable {language : Language} {options : Options} {mode : Mode} {w w' : World} {p : String}
  {fs fs' : FileSystem}

/-- The transform of a file does not move the clock. -/
theorem processFile_now {outcome : Outcome}
    (h : processFile language options mode p w = (w', .completed outcome)) :
    w'.files.now = w.files.now := by
  have hhandled := processFile_handled language options mode p w
  rw [h] at hhandled
  cases hhandled with
  | skipped _ _ _ _ houtlets => exact congrArg (fun o => o.files.now) houtlets
  | @generated v template bytes target _ hwork _ hdeliver =>
    have houtlets : v.1.outlets = w.outlets := (Language.of_work hwork).1
    rw [houtlets] at hdeliver
    cases target with
    | shared => exact congrArg FileSystem.now (Outlets.deliver_shared_ok hdeliver).1
    | artifact path =>
      have htried := (w.outlets.deliver_tried .sound path bytes).2
      rw [hdeliver] at htried
      obtain ⟨a, -, hput⟩ := htried.of_ok
      exact hput.wrote.now

/-- A batch is one whose clock stands still. -/
theorem runTimed_still (language : Language) (options : Options) (mode : Mode)
    (paths : List String) (w : World) :
    runTimed language options mode (fun _ => w.files.now) paths w =
      runBatch language options mode paths w := by
  induction paths generalizing w with
  | nil => rfl
  | cons p rest ih =>
    rw [runTimed, runBatch_cons]
    show (match processFile language options mode p w with
      | (v, .completed outcome) =>
        let (v, report) := runTimed language options mode (fun _ => w.files.now) rest v
        (v, report.cons ⟨p, outcome⟩)
      | (v, .failed e) => (v.diagnose e, ⟨[], some e, false⟩)
      | (v, .abandoned) => (v, ⟨[], none, true⟩)) = _
    cases hfile : processFile language options mode p w with
    | mk v attempt =>
      cases attempt with
      | completed outcome =>
        simp only
        rw [← processFile_now hfile, ih v]
      | failed e => rfl
      | abandoned => rfl

/-! ## Fates -/

/-- Where the templates and the artifacts of a list of files stand: each path leads there, and an
artifact shares its place with no template and no other artifact. -/
structure Placed (options : Options) (paths : List String) (site : Role → String → Address)
    (fs : FileSystem) : Prop where
  template : ∀ p ∈ paths, fs.Leads p (site .template p)
  artifact : ∀ p ∈ paths, ∀ path, Host.artifactPath p options.extension = some path →
    fs.Leads path (site .artifact p)
  apart : ∀ p ∈ paths, ∀ q ∈ paths, site .artifact p = site .artifact q → p = q
  spared : ∀ p ∈ paths, ∀ q ∈ paths, site .artifact p ≠ site .template q

/-- Whether a file that was changed at a time can be left alone. -/
def Fresh (options : Options) (fs : FileSystem) (artifact : Address) (time : Time) : Prop :=
  options.force = false ∧ Newer fs artifact time

/-- What becomes of a file, and what is written to its artifact. -/
inductive Fate (language : Language) (options : Options) (template artifact : Address) (p : String)
    (fs : FileSystem) : Outcome → Option ByteArray → Prop
  /-- It is left alone. -/
  | skipped {path : String} {content : ByteArray} {time : Time} :
    Host.artifactPath p options.extension = some path →
    fs.root.sightAt template = some (.file content time) → Fresh options fs artifact time →
    Fate language options template artifact p fs .skipped none
  /-- Its output is made, which depends on nothing but its text and where it stands. -/
  | generated {path text : String} {time : Time} {bytes : ByteArray} :
    Host.artifactPath p options.extension = some path →
    fs.root.sightAt template = some (.file text.toUTF8 time) → ¬ Fresh options fs artifact time →
    (∀ files, language.rendering files ⟨pathOf template, text⟩ = .output bytes) →
    Fate language options template artifact p fs (.generated (some path)) (some bytes)

variable {template artifact : Address} {outcome : Outcome} {made : Option ByteArray}

/-- Only what stands in two places decides over a file. -/
theorem Fate.congr (h : Fate language options template artifact p fs outcome made)
    (ht : fs'.root.sightAt template = fs.root.sightAt template)
    (ha : fs'.root.sightAt artifact = fs.root.sightAt artifact) :
    Fate language options template artifact p fs' outcome made := by
  have hfresh : ∀ time, Fresh options fs' artifact time ↔ Fresh options fs artifact time := by
    intro time
    rw [Fresh, Fresh, Newer, Newer, ha]
  cases h with
  | skipped hpath hs hf => exact .skipped hpath (ht.trans hs) ((hfresh _).mpr hf)
  | generated hpath hs hf hr => exact .generated hpath (ht.trans hs) (fun h => hf ((hfresh _).mp h)) hr

theorem isFresh_eq (options : Options) {path : String} {content : ByteArray} {time : Time}
    (hp : fs.Leads p template) (hs : fs.root.sightAt template = some (.file content time))
    (ha : fs.Leads path artifact) :
    Fresh options fs artifact time ∧ isFresh options fs p (.artifact path) = .ok true ∨
      ¬ Fresh options fs artifact time ∧ isFresh options fs p (.artifact path) = .ok false := by
  rw [isFresh]
  by_cases hforce : options.force = true
  · exact .inr ⟨fun h => Bool.false_ne_true (h.1.symm.trans hforce), if_pos hforce⟩
  · rw [if_neg hforce]
    rcases isUpToDate_eq hp hs ha with ⟨hold, heq⟩ | ⟨hnewer, heq⟩
    · exact .inr ⟨fun h => hold h.2, heq⟩
    · exact .inl ⟨⟨Bool.eq_false_iff.mpr hforce, hnewer⟩, heq⟩

/-- A file that has a fate completes with it. -/
theorem Fate.processFile (h : Fate language options template artifact p w.files outcome made)
    (hp : w.files.Leads p template)
    (ha : ∀ path, Host.artifactPath p options.extension = some path → w.files.Leads path artifact) :
    ∃ w', processFile language options .artifact p w = (w', .completed outcome) ∧
      w.files.Changed (made.map (artifact, ·)) w'.files := by
  cases h with
  | @skipped path content time hpath hs hf =>
    rcases isFresh_eq options hp hs (ha path hpath) with ⟨-, hfresh⟩ | ⟨hno, -⟩
    · refine ⟨w.report (.skipped p), ?_, rfl⟩
      simp only [processFile_eq, targetOf, hpath, Option.map_some, hfresh]
    · exact absurd hf hno
  | @generated path text time bytes hpath hs hf hr =>
    rcases isFresh_eq options hp hs (ha path hpath) with ⟨hyes, -⟩ | ⟨-, hfresh⟩
    · exact absurd hyes hf
    · exact processFile_output hp hs hpath (ha path hpath) hfresh (hr w.files)

/-- The template of a file that completes is there. -/
theorem processFile_template (hp : w.files.Leads p template)
    (h : processFile language options .artifact p w = (w', .completed outcome)) :
    ∃ content time, w.files.root.sightAt template = some (.file content time) := by
  rcases hp.sightAt with hnone | hfile
  · exfalso
    have hhandled := processFile_handled language options .artifact p w
    rw [h] at hhandled
    cases hhandled with
    | skipped _ _ _ hfresh _ =>
      rw [isUpToDate, hp.modifiedAt_free hnone] at hfresh
      split at hfresh
      · split at hfresh
        · cases hfresh
        · cases hfresh
      · cases hfresh
    | generated hload =>
      obtain ⟨a, time, hloc, hsight, -⟩ := loadTemplate_ok hload
      rw [hp.address_eq hloc] at hnone
      cases hnone.symm.trans hsight
  · exact hfile

/-- A file that completes has a fate. -/
theorem processFile_fate (hp : w.files.Leads p template)
    (ha : ∀ path, Host.artifactPath p options.extension = some path → w.files.Leads path artifact)
    (hsteady : ∀ text time, w.files.root.sightAt template = some (.file text.toUTF8 time) →
      language.Steady ⟨pathOf template, text⟩)
    (h : processFile language options .artifact p w = (w', .completed outcome)) :
    ∃ made, Fate language options template artifact p w.files outcome made := by
  obtain ⟨content, time, hs⟩ := processFile_template hp h
  cases hpath : Host.artifactPath p options.extension with
  | none =>
    rw [processFile_eq, targetOf, hpath] at h
    cases h
  | some path =>
    rcases isFresh_eq options hp hs (ha path hpath) with ⟨hf, hfresh⟩ | ⟨hf, hfresh⟩
    · simp only [processFile_eq, targetOf, hpath, Option.map_some, hfresh] at h
      cases h
      exact ⟨none, .skipped hpath hs hf⟩
    · have hhandled := processFile_handled language options .artifact p w
      rw [h] at hhandled
      cases hhandled with
      | skipped _ hforce hpath' htrue _ =>
        cases hpath.symm.trans hpath'
        rw [isFresh, hforce, if_neg Bool.false_ne_true, htrue] at hfresh
        cases hfresh
      | @generated v loaded bytes target hload hwork htarget _ =>
        have hr := (Language.of_work hwork).2
        obtain ⟨path', hpath', rfl⟩ := Option.map_eq_some_iff.mp htarget
        obtain ⟨a, changed, hloc, htext, hat⟩ := loadTemplate_ok hload
        cases hp.address_eq hloc
        obtain ⟨_, text⟩ := loaded
        cases hat
        refine ⟨some bytes, .generated hpath' htext ?_ fun files => ?_⟩
        · cases hs.symm.trans htext
          exact hf
        · exact (hsteady text changed htext files w.files).trans hr

/-! ## Runs -/

/-- The file system after the artifacts of some files were made. -/
structure Made (site : Role → String → Address) (made : String → Option ByteArray)
    (paths : List String) (fs fs' : FileSystem) : Prop where
  cwd : fs'.cwd = fs.cwd
  put : ∀ p ∈ paths, ∀ bytes, made p = some bytes →
    ∃ time, fs'.root.sightAt (site .artifact p) = some (.file bytes time)
  kept : ∀ a, (∀ p ∈ paths, made p ≠ none → a ≠ site .artifact p) →
    fs'.root.sightAt a = fs.root.sightAt a

namespace FileSystem.Changed

variable {a b : Address}

theorem cwd (h : fs.Changed (made.map (a, ·)) fs') : fs'.cwd = fs.cwd := by
  cases made with
  | none => exact congrArg FileSystem.cwd h
  | some bytes => exact Wrote.cwd h

theorem leads (h : fs.Changed (made.map (a, ·)) fs') (hp : fs.Leads p b) : fs'.Leads p b := by
  cases made with
  | none => exact h.symm ▸ hp
  | some bytes => exact Wrote.leads h hp

theorem sightAt_other (h : fs.Changed (made.map (a, ·)) fs') (hb : made ≠ none → b ≠ a) :
    fs'.root.sightAt b = fs.root.sightAt b := by
  cases made with
  | none => exact congrArg (fun fs => fs.root.sightAt b) h
  | some bytes => exact Wrote.sightAt_other h (hb nofun)

end FileSystem.Changed

variable {site : Role → String → Address} {paths rest xs ys : List String}
  {outcomes : String → Outcome} {outputs : String → Option ByteArray}

/-- The files that follow one that was transformed stand where they stood. -/
theorem Placed.tail (h : Placed options (p :: rest) site fs)
    (hc : fs.Changed (made.map (site .artifact p, ·)) fs') : Placed options rest site fs' where
  template q hq := hc.leads (h.template q (List.mem_cons_of_mem p hq))
  artifact q hq path hpath := hc.leads (h.artifact q (List.mem_cons_of_mem p hq) path hpath)
  apart q hq r hr := h.apart q (List.mem_cons_of_mem p hq) r (List.mem_cons_of_mem p hr)
  spared q hq r hr := h.spared q (List.mem_cons_of_mem p hq) r (List.mem_cons_of_mem p hr)

theorem Placed.atTime (h : Placed options paths site w.files) (now : Time) :
    Placed options paths site (w.atTime now).files :=
  have halike : w.files.Alike (w.atTime now).files := ⟨rfl, fun _ => rfl⟩
  ⟨fun p hp => halike.leads (h.template p hp),
    fun p hp path hpath => halike.leads (h.artifact p hp path hpath), h.apart, h.spared⟩

/-- A file that was transformed does not decide over those that follow. -/
theorem Placed.sightAt_tail (h : Placed options (p :: rest) site fs) (hnodup : (p :: rest).Nodup)
    (hc : fs.Changed (made.map (site .artifact p, ·)) fs') {q : String} (hq : q ∈ rest) :
    fs'.root.sightAt (site .template q) = fs.root.sightAt (site .template q) ∧
      fs'.root.sightAt (site .artifact q) = fs.root.sightAt (site .artifact q) := by
  have hp : p ∈ p :: rest := List.mem_cons_self
  have hq' : q ∈ p :: rest := List.mem_cons_of_mem p hq
  refine ⟨hc.sightAt_other fun _ => (h.spared p hp q hq').symm,
    hc.sightAt_other fun _ heq => ?_⟩
  exact (List.nodup_cons.mp hnodup).1 (h.apart q hq' p hp heq ▸ hq)

theorem Made.nil : Made site outputs [] fs fs :=
  ⟨rfl, fun _ h => absurd h List.not_mem_nil, fun _ _ => rfl⟩

theorem Made.cons {fs'' : FileSystem} (hplaced : Placed options (p :: rest) site fs)
    (hnodup : (p :: rest).Nodup) (hc : fs.Changed ((outputs p).map (site .artifact p, ·)) fs')
    (h : Made site outputs rest fs' fs'') : Made site outputs (p :: rest) fs fs'' where
  cwd := h.cwd.trans hc.cwd
  put q hq bytes hbytes := by
    rcases List.mem_cons.mp hq with rfl | hq
    · have hapart : ∀ r ∈ rest, outputs r ≠ none → site .artifact q ≠ site .artifact r := by
        intro r hr _ heq
        have hqr := hplaced.apart q List.mem_cons_self r (List.mem_cons_of_mem q hr) heq
        exact (List.nodup_cons.mp hnodup).1 (hqr ▸ hr)
      rw [hbytes] at hc
      exact ⟨fs.now, (h.kept _ hapart).trans (FileSystem.Wrote.sightAt_self hc)⟩
    · exact h.put q hq bytes hbytes
  kept a ha := by
    rw [h.kept a fun q hq => ha q (List.mem_cons_of_mem p hq)]
    exact hc.sightAt_other (ha p List.mem_cons_self)

/-- A batch of files that have fates completes with them. -/
theorem runTimed_of_fates (clock : Nat → Time) (hplaced : Placed options paths site w.files)
    (hnodup : paths.Nodup)
    (hfates : ∀ p ∈ paths, Fate language options (site .template p) (site .artifact p) p w.files
      (outcomes p) (outputs p)) :
    ∃ w', runTimed language options .artifact clock paths w =
        (w', ⟨paths.map fun p => ⟨p, outcomes p⟩, none, false⟩) ∧
      Made site outputs paths w.files w'.files := by
  induction paths generalizing clock w with
  | nil => exact ⟨w, rfl, .nil⟩
  | cons p rest ih =>
    have hnow := hplaced.atTime (clock 0)
    have hp : p ∈ p :: rest := List.mem_cons_self
    have hfate : Fate language options (site .template p) (site .artifact p) p
        (w.atTime (clock 0)).files (outcomes p) (outputs p) := (hfates p hp).congr rfl rfl
    obtain ⟨v, hfile, hchanged⟩ := hfate.processFile (hnow.template p hp) (hnow.artifact p hp)
    -- The files that follow have the same fates in the world that this one leaves.
    obtain ⟨w', hrest, hmade⟩ := ih (fun n => clock (n + 1)) (hnow.tail hchanged)
      (List.nodup_cons.mp hnodup).2 fun q hq =>
        have hsame := hnow.sightAt_tail hnodup hchanged hq
        (hfates q (List.mem_cons_of_mem p hq)).congr hsame.1 hsame.2
    have hall := hmade.cons hnow hnodup hchanged
    refine ⟨w', ?_, hall.cwd, hall.put, hall.kept⟩
    rw [runTimed, hfile]
    simp only [hrest]
    rfl

/-- The files of a batch that completes have fates. -/
theorem runTimed_fates (clock : Nat → Time) (hplaced : Placed options paths site w.files)
    (hnodup : paths.Nodup)
    (hsteady : ∀ p ∈ paths, ∀ text time,
      w.files.root.sightAt (site .template p) = some (.file text.toUTF8 time) →
        language.Steady ⟨pathOf (site .template p), text⟩)
    (hsuccess : (runTimed language options .artifact clock paths w).2.isSuccess = true)
    (hgoes : (runTimed language options .artifact clock paths w).2.abandoned = false) :
    ∀ p ∈ paths, ∃ outcome made,
      Fate language options (site .template p) (site .artifact p) p w.files outcome made := by
  induction paths generalizing clock w with
  | nil => exact fun _ h => absurd h List.not_mem_nil
  | cons p rest ih =>
    have hnow := hplaced.atTime (clock 0)
    have hp : p ∈ p :: rest := List.mem_cons_self
    rw [runTimed] at hsuccess hgoes
    cases hfile : processFile language options .artifact p (w.atTime (clock 0)) with
    | mk v attempt =>
      rw [hfile] at hsuccess hgoes
      cases attempt with
      | completed outcome =>
        obtain ⟨made, hfate⟩ := processFile_fate (hnow.template p hp) (hnow.artifact p hp)
          (hsteady p hp) hfile
        obtain ⟨v', hfile', hchanged⟩ := hfate.processFile (hnow.template p hp) (hnow.artifact p hp)
        cases hfile.symm.trans hfile'
        have hsame := fun q hq => hnow.sightAt_tail hnodup hchanged (q := q) hq
        have hrest := ih (fun n => clock (n + 1)) (hnow.tail hchanged) (List.nodup_cons.mp hnodup).2
          (fun q hq text time hs =>
            hsteady q (List.mem_cons_of_mem p hq) text time ((hsame q hq).1.symm.trans hs))
          hsuccess hgoes
        intro q hq
        rcases List.mem_cons.mp hq with rfl | hq
        · exact ⟨outcome, made, hfate.congr rfl rfl⟩
        · obtain ⟨outcome, made, hfate⟩ := hrest q hq
          exact ⟨outcome, made, hfate.congr (hsame q hq).1.symm (hsame q hq).2.symm⟩
      | failed e => cases hsuccess
      | abandoned => cases hgoes

/-- Making the same artifacts leaves the same content, in whatever order and at whatever time. -/
theorem Made.alike {gs : FileSystem} (h : Made site outputs xs fs fs')
    (h' : Made site outputs ys fs gs) (hperm : xs.Perm ys) : fs'.Alike gs where
  cwd := h'.cwd.trans h.cwd.symm
  timeless a := by
    by_cases ha : ∃ p ∈ xs, ∃ bytes, outputs p = some bytes ∧ a = site .artifact p
    · obtain ⟨p, hp, bytes, hbytes, rfl⟩ := ha
      obtain ⟨time, hs⟩ := h.put p hp bytes hbytes
      obtain ⟨time', hs'⟩ := h'.put p (hperm.mem_iff.mp hp) bytes hbytes
      rw [hs, hs']
      rfl
    · have hkept : ∀ p ∈ xs, outputs p ≠ none → a ≠ site .artifact p := by
        intro p hp hmade heq
        obtain ⟨bytes, hbytes⟩ := Option.ne_none_iff_exists'.mp hmade
        exact ha ⟨p, hp, bytes, hbytes, heq⟩
      rw [h.kept a hkept, h'.kept a fun p hp => hkept p (hperm.mem_iff.mpr hp)]

/-- Let the artifacts of some files stand apart from each other and from the templates, and let what
each text comes to depend on nothing but itself and its path. If a batch over the files succeeds,
then so does a batch over them in any other order and under any other clock: it comes to the same
with each file, and leaves the same content in every file. -/
theorem runTimed_perm (clock clock' : Nat → Time) (hplaced : Placed options xs site w.files)
    (hnodup : xs.Nodup)
    (hsteady : ∀ p ∈ xs, ∀ text time,
      w.files.root.sightAt (site .template p) = some (.file text.toUTF8 time) →
        language.Steady ⟨pathOf (site .template p), text⟩)
    (hperm : xs.Perm ys)
    (hsuccess : (runTimed language options .artifact clock xs w).2.isSuccess = true)
    (hgoes : (runTimed language options .artifact clock xs w).2.abandoned = false) :
    let first := runTimed language options .artifact clock xs w
    let second := runTimed language options .artifact clock' ys w
    (∃ outcomes : String → Outcome,
      first.2.completed = xs.map (fun p => ⟨p, outcomes p⟩) ∧
        second.2 = ⟨ys.map fun p => ⟨p, outcomes p⟩, none, false⟩) ∧
      ∀ path, second.1.files.readBytes path = first.1.files.readBytes path := by
  have hfates := runTimed_fates clock hplaced hnodup hsteady hsuccess hgoes
  have : Inhabited Outcome := ⟨.skipped⟩
  choose! outcomes outputs hfates using hfates
  have hback : ∀ q ∈ ys, q ∈ xs := fun q hq => hperm.mem_iff.mpr hq
  have hplaced' : Placed options ys site w.files :=
    ⟨fun q hq => hplaced.template q (hback q hq), fun q hq => hplaced.artifact q (hback q hq),
      fun q hq r hr => hplaced.apart q (hback q hq) r (hback r hr),
      fun q hq r hr => hplaced.spared q (hback q hq) r (hback r hr)⟩
  obtain ⟨v, hfirst, hmade⟩ := runTimed_of_fates clock hplaced hnodup hfates
  obtain ⟨v', hsecond, hmade'⟩ := runTimed_of_fates clock' hplaced' (hperm.nodup_iff.mp hnodup)
    fun q hq => hfates q (hback q hq)
  rw [hfirst, hsecond]
  exact ⟨⟨outcomes, rfl, rfl⟩, (hmade.alike hmade' hperm).readBytes⟩

/-- A world with a template that has a newer artifact, and one that has none. -/
def pairWorld : World where
  outlets := ⟨⟨.directory [("a.tt", .file "x\n".toUTF8 3), ("a.rs", .file "old".toUTF8 4),
    ("b.tt", .file "y\n".toUTF8 3)] 0, "/", 5⟩, {}⟩
  diagnostics := {}
  log := []

/-- Where its files stand. -/
def pairSite : Role → String → Address
  | .template, p => if p = "/a.tt" then ["a.tt"] else ["b.tt"]
  | .artifact, p => if p = "/a.tt" then ["a.rs"] else ["b.rs"]
  | .source, _ => []

theorem pairWorld_placed : Placed {} ["/a.tt", "/b.tt"] pairSite pairWorld.files where
  template p hp := by
    rcases List.mem_cons.mp hp with rfl | hp
    · exact .file (by decide) (by decide)
    · rw [List.mem_singleton.mp hp]
      exact .file (by decide) (by decide)
  artifact p hp path h := by
    rcases List.mem_cons.mp hp with rfl | hp
    · have hpath : Host.artifactPath "/a.tt" "rs" = some "/a.rs" := by decide
      cases hpath.symm.trans h
      exact .file (by decide) (by decide)
    · rw [List.mem_singleton.mp hp] at h ⊢
      have hpath : Host.artifactPath "/b.tt" "rs" = some "/b.rs" := by decide
      cases hpath.symm.trans h
      exact @FileSystem.Leads.free _ _ [] "b.rs" (by decide)
  apart := by decide
  spared := by decide

/-- The file whose artifact is newer is skipped and the other one is generated, whichever comes
first, even if the clock is put back. -/
theorem runTimed_perm_pair :
    let first := runBatch Lua.language {} .artifact ["/a.tt", "/b.tt"] pairWorld
    let second := runTimed Lua.language {} .artifact (fun _ => 0) ["/b.tt", "/a.tt"] pairWorld
    first.2.completed = [⟨"/a.tt", .skipped⟩, ⟨"/b.tt", .generated (some "/b.rs")⟩] ∧
      second.2 = ⟨[⟨"/b.tt", .generated (some "/b.rs")⟩, ⟨"/a.tt", .skipped⟩], none, false⟩ ∧
      ∀ path, second.1.files.readBytes path = first.1.files.readBytes path := by
  rw [← runTimed_still]
  intro first second
  have hcases : ∀ p ∈ ["/a.tt", "/b.tt"], p = "/a.tt" ∨ p = "/b.tt" := fun p hp =>
    (List.mem_cons.mp hp).imp id List.mem_singleton.mp
  have hsteady : ∀ p ∈ ["/a.tt", "/b.tt"], ∀ text time,
      pairWorld.files.root.sightAt (pairSite .template p) = some (.file text.toUTF8 time) →
        Lua.language.Steady ⟨pathOf (pairSite .template p), text⟩ := by
    intro p hp text time hs
    rcases hcases p hp with rfl | rfl
    · cases String.toByteArray_inj.mp (Sight.file.inj (Option.some.inj hs)).1
      exact Lua.steady_markerFree (by decide) (by decide)
    · cases String.toByteArray_inj.mp (Sight.file.inj (Option.some.inj hs)).1
      exact Lua.steady_markerFree (by decide) (by decide)
  have hfates : ∀ p ∈ ["/a.tt", "/b.tt"], Fate Lua.language {} (pairSite .template p)
      (pairSite .artifact p) p pairWorld.files
      (if p = "/a.tt" then .skipped else .generated (some "/b.rs"))
      (if p = "/a.tt" then none else some "y\n".toUTF8) := by
    intro p hp
    rcases hcases p hp with rfl | rfl
    · exact @Fate.skipped _ _ _ _ _ _ "/a.rs" _ 3 (by decide) rfl ⟨rfl, _, 4, rfl, by decide⟩
    · refine @Fate.generated _ _ _ _ _ _ "/b.rs" "y\n" 3 _ (by decide) rfl ?_ fun files => ?_
      · rintro ⟨-, _, _, hs, -⟩
        cases hs
      · exact Lua.rendering_markerFree .isolated files (by decide) (by decide)
  obtain ⟨v, hrun, -⟩ :=
    runTimed_of_fates (fun _ => pairWorld.files.now) pairWorld_placed (by decide) hfates
  have hfirst : first.2 =
      ⟨[⟨"/a.tt", .skipped⟩, ⟨"/b.tt", .generated (some "/b.rs")⟩], none, false⟩ :=
    congrArg Prod.snd hrun
  obtain ⟨⟨outcomes, hcompleted, hsecond⟩, hread⟩ :=
    runTimed_perm (fun _ => pairWorld.files.now) (fun _ => 0) pairWorld_placed (by decide) hsteady
      (List.Perm.swap "/b.tt" "/a.tt" []) (by rw [hrun]; rfl) (by rw [hrun])
  rw [hrun] at hcompleted
  obtain ⟨ha, hb⟩ : outcomes "/a.tt" = .skipped ∧ outcomes "/b.tt" = .generated (some "/b.rs") := by
    simpa [eq_comm] using hcompleted
  refine ⟨congrArg BatchReport.completed hfirst, ?_, hread⟩
  rw [List.map_cons, List.map_cons, List.map_nil, ha, hb] at hsecond
  exact hsecond

end Stencil
