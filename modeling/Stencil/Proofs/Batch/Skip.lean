import Stencil.Proofs.Batch.Outcome

/-!
# Skipping files

A file is skipped if its artifact is newer. Over any history of edits and batches, with the clock
standing still or moving on between them, a newer artifact is the output of the template as it is
now: an edit makes the template as new as anything there is, and only a whole output makes an
artifact new.

* `Kept`, `Current`: the invariant of one template, and of all of them;
* `processFile_cases`: what a file can come to;
* `Reachable.current`: the invariant holds after every history;
* `skip_transparent`: a skipped file has the artifact it should have, and a batch that skips files
  ends as one that makes them all;
* `skipped_through_link`: a skipped file whose artifact is another file's.
-/

namespace Stencil

open FileSystem (pathOf)

/-- The files that belong to a template. -/
inductive Role where
  | template
  | artifact
  /-- The saved source of a failed unit. -/
  | source
  deriving DecidableEq

/-- Where the files of the templates stand: each path leads to its address, and no two of them
share one. That paths are spelled differently is not enough, as two spellings or a link can lead
to one file. -/
structure Sited (options : Options) (templates : List String) (site : Role → String → Address)
    (fs : FileSystem) : Prop where
  template : ∀ p ∈ templates, fs.Leads p (site .template p)
  artifact : ∀ p ∈ templates, ∀ artifact, Host.artifactPath p options.extension = some artifact →
    fs.Leads artifact (site .artifact p)
  source : ∀ p ∈ templates, ∀ saved,
    Host.debugPath (pathOf (site .template p)) options.debugSuffix options.extension =
      some saved → fs.Leads saved (site .source p)
  apart : ∀ r r', ∀ p ∈ templates, ∀ q ∈ templates, site r p = site r' q → r = r' ∧ p = q

/-- A template has a text, and its artifact is not newer than the clock; if it is newer than the
template, it is the output of that text. -/
def Kept (language : Language) (fs : FileSystem) (template artifact : Address) : Prop :=
  ∃ text time, fs.root.sightAt template = some (.file text.toUTF8 time) ∧
    language.Steady ⟨pathOf template, text⟩ ∧
    ∀ content changed, fs.root.sightAt artifact = some (.file content changed) →
      changed ≤ fs.now ∧
        (time < changed → language.rendering fs ⟨pathOf template, text⟩ = .output content)

/-- Every template is kept. -/
structure Current (language : Language) (options : Options) (templates : List String)
    (site : Role → String → Address) (fs : FileSystem) : Prop where
  sited : Sited options templates site fs
  kept : ∀ p ∈ templates, Kept language fs (site .template p) (site .artifact p)

/-- The worlds that a history of edits and batches leads to. -/
inductive Reachable (language : Language) (options : Options) (templates : List String)
    (site : Role → String → Address) (start : World) : World → Prop
  | start : Reachable language options templates site start start
  /-- The clock moves on. -/
  | wait {w : World} {now : Time} : Reachable language options templates site start w →
    w.files.now ≤ now →
    Reachable language options templates site start (w.withFiles { w.files with now })
  /-- A template gets a new text, at the time of the clock. What the text comes to depends on
  nothing but itself and the path. -/
  | edit {w : World} {p text : String} {files : FileSystem} :
    Reachable language options templates site start w → p ∈ templates →
    language.Steady ⟨pathOf (site .template p), text⟩ →
    w.files.write p text.toUTF8 = .ok files →
    Reachable language options templates site start (w.withFiles files)
  /-- A batch runs over some of the templates. -/
  | run {w : World} {paths : List String} (force : Bool) :
    Reachable language options templates site start w → (∀ p ∈ paths, p ∈ templates) →
    Reachable language options templates site start
      (runBatch language { options with force } .artifact paths w).1

variable {language : Language} {options : Options} {templates : List String}
  {site : Role → String → Address} {fs fs' : FileSystem} {w w' : World} {p : String}

/-! ## The invariant -/

namespace Kept

variable {template artifact a : Address} {content : ByteArray}

/-- A write elsewhere leaves a template kept. -/
theorem of_elsewhere (h : Kept language fs template artifact) (hw : fs.Wrote a content fs')
    (ht : template ≠ a) (ha : artifact ≠ a) : Kept language fs' template artifact := by
  obtain ⟨text, time, htext, hsteady, hage⟩ := h
  refine ⟨text, time, (hw.sightAt_other ht).trans htext, hsteady, ?_⟩
  intro content changed hs
  rw [hw.sightAt_other ha] at hs
  rw [hw.now, hsteady fs' fs]
  exact hage content changed hs

/-- An edit makes the template as new as anything there is. -/
theorem of_edit {text : String} (h : Kept language fs template artifact)
    (hw : fs.Wrote template text.toUTF8 fs') (ha : artifact ≠ template)
    (hsteady : language.Steady ⟨pathOf template, text⟩) : Kept language fs' template artifact := by
  obtain ⟨_, _, _, _, hage⟩ := h
  -- Nothing is known of the new text's output, but no artifact is newer than the clock.
  refine ⟨text, fs.now, hw.sightAt_self, hsteady, ?_⟩
  intro content changed hs
  rw [hw.sightAt_other ha] at hs
  have hle := (hage content changed hs).1
  rw [hw.now]
  exact ⟨hle, fun hlt => absurd hlt (Nat.not_lt.mpr hle)⟩

/-- The output of a template is a good artifact, however new it is. -/
theorem of_output {text : String} {time : Time}
    (htext : fs.root.sightAt template = some (.file text.toUTF8 time))
    (hr : ∀ files, language.rendering files ⟨pathOf template, text⟩ = .output content)
    (hw : fs.Wrote artifact content fs') (ha : template ≠ artifact) :
    Kept language fs' template artifact := by
  refine ⟨text, time, (hw.sightAt_other ha).trans htext, fun _ _ => (hr _).trans (hr _).symm, ?_⟩
  intro found changed hs
  rw [hw.sightAt_self] at hs
  cases hs
  exact ⟨Nat.le_of_eq hw.now.symm, fun _ => hr fs'⟩

/-- The clock does not matter. -/
theorem of_wait (h : Kept language fs template artifact) {now : Time} (hnow : fs.now ≤ now) :
    Kept language { fs with now } template artifact := by
  obtain ⟨text, time, htext, hsteady, hage⟩ := h
  refine ⟨text, time, htext, hsteady, ?_⟩
  intro content changed hs
  obtain ⟨hle, hfresh⟩ := hage content changed hs
  refine ⟨Nat.le_trans hle hnow, fun hlt => ?_⟩
  rw [hsteady _ fs]
  exact hfresh hlt

end Kept

theorem Sited.wrote (h : Sited options templates site fs) {a : Address} {content : ByteArray}
    (hw : fs.Wrote a content fs') : Sited options templates site fs' where
  template p hp := hw.leads (h.template p hp)
  artifact p hp artifact ha := hw.leads (h.artifact p hp artifact ha)
  source p hp saved hs := hw.leads (h.source p hp saved hs)
  apart := h.apart

theorem Sited.alike (h : Sited options templates site fs) (halike : fs.Alike fs') :
    Sited options templates site fs' where
  template p hp := halike.leads (h.template p hp)
  artifact p hp artifact ha := halike.leads (h.artifact p hp artifact ha)
  source p hp saved hs := halike.leads (h.source p hp saved hs)
  apart := h.apart

theorem Sited.ne (h : Sited options templates site fs) {r r' : Role} (hr : r ≠ r') {q : String}
    (hp : p ∈ templates) (hq : q ∈ templates) : site r p ≠ site r' q :=
  fun heq => hr (h.apart r r' p hp q hq heq).1

namespace Current

variable (h : Current language options templates site fs)

include h

/-- A write to a file of one template keeps all of them if it keeps that one. -/
theorem wrote {role : Role} {content : ByteArray} (hp : p ∈ templates)
    (hw : fs.Wrote (site role p) content fs')
    (hkept : Kept language fs' (site .template p) (site .artifact p)) :
    Current language options templates site fs' where
  sited := h.sited.wrote hw
  kept q hq := by
    by_cases hqp : q = p
    · rw [hqp]
      exact hkept
    · exact (h.kept q hq).of_elsewhere hw
        (fun heq => hqp (h.sited.apart _ _ q hq p hp heq).2)
        (fun heq => hqp (h.sited.apart _ _ q hq p hp heq).2)

theorem edit {text : String} (hp : p ∈ templates)
    (hsteady : language.Steady ⟨pathOf (site .template p), text⟩)
    (hw : fs.Wrote (site .template p) text.toUTF8 fs') :
    Current language options templates site fs' :=
  h.wrote hp hw ((h.kept p hp).of_edit hw (h.sited.ne (by decide) hp hp) hsteady)

theorem wait {now : Time} (hnow : fs.now ≤ now) :
    Current language options templates site { fs with now } where
  sited := h.sited.alike ⟨rfl, fun _ => rfl⟩
  kept p hp := (h.kept p hp).of_wait hnow

/-- What a template comes to keeps it, whatever that is. -/
theorem changed {text : String} {time : Time} {r : Rendering} (hp : p ∈ templates)
    (htext : fs.root.sightAt (site .template p) = some (.file text.toUTF8 time))
    (hr : ∀ files, language.rendering files ⟨pathOf (site .template p), text⟩ = r)
    (hc : fs.Changed (r.change options (pathOf (site .template p)) (site .artifact p)
      (site .source p)) fs') : Current language options templates site fs' := by
  cases r with
  | output bytes =>
    exact h.wrote hp hc (Kept.of_output htext hr hc (h.sited.ne (by decide) hp hp))
  | unterminated e =>
    cases hc
    exact h
  | broken unit e =>
    rw [Rendering.change] at hc
    cases hd : Host.debugPath (pathOf (site .template p)) options.debugSuffix
      options.extension with
    | none =>
      rw [hd] at hc
      cases hc
      exact h
    | some saved =>
      rw [hd] at hc
      exact h.wrote hp hc ((h.kept p hp).of_elsewhere hc (h.sited.ne (by decide) hp hp)
        (h.sited.ne (by decide) hp hp))

end Current

/-! ## One file -/

/-- What a file of a batch can come to, and the world it leaves. -/
inductive Processed (language : Language) (options : Options) (site : Role → String → Address)
    (p : String) (w : World) : World → Attempt Outcome → Prop
  /-- It has no path for an artifact. -/
  | refused : Host.artifactPath p options.extension = none →
    Processed language options site p w w .abandoned
  /-- Its artifact is newer, and is the output of its text. -/
  | skipped {w' : World} {artifact text : String} {time changed : Time} {content : ByteArray} :
    options.force = false → Host.artifactPath p options.extension = some artifact →
    w'.files = w.files →
    w.files.root.sightAt (site .template p) = some (.file text.toUTF8 time) →
    w.files.root.sightAt (site .artifact p) = some (.file content changed) → time < changed →
    (∀ files, language.rendering files ⟨pathOf (site .template p), text⟩ = .output content) →
    Processed language options site p w w' (.completed .skipped)
  /-- It is rendered. -/
  | rendered {w' : World} {artifact text : String} {time : Time} {r : Rendering} :
    Host.artifactPath p options.extension = some artifact →
    w.files.root.sightAt (site .template p) = some (.file text.toUTF8 time) →
    (∀ files, language.rendering files ⟨pathOf (site .template p), text⟩ = r) →
    w.files.Changed (r.change options (pathOf (site .template p)) (site .artifact p)
      (site .source p)) w'.files →
    Processed language options site p w w'
      ((r.verdict options (pathOf (site .template p))).deliver artifact)

/-- An artifact that was changed after a time. -/
def Newer (fs : FileSystem) (artifact : Address) (time : Time) : Prop :=
  ∃ content changed, fs.root.sightAt artifact = some (.file content changed) ∧ time < changed

/-- What stands at the path of an artifact was changed after the template. -/
def FileSystem.Outdates (fs : FileSystem) (artifact template : String) : Prop :=
  ∃ time changed, fs.modifiedAt template = .ok time ∧ fs.modifiedAt artifact = .ok changed ∧
    time < changed

theorem isUpToDate_iff {fs : FileSystem} {p artifact : String} :
    isUpToDate fs p artifact = .ok true ↔ fs.Outdates artifact p := by
  rw [isUpToDate, FileSystem.Outdates]
  cases fs.modifiedAt artifact with
  | error e =>
    constructor
    · intro h
      simp only at h
      split at h
      · cases h
      · cases h
    · rintro ⟨_, _, -, hchanged, -⟩
      cases hchanged
  | ok changed =>
    cases fs.modifiedAt p with
    | error e =>
      constructor
      · intro h
        cases h
      · rintro ⟨_, _, htime, -⟩
        cases htime
    | ok time =>
      constructor
      · intro h
        exact ⟨time, changed, rfl, rfl, of_decide_eq_true (Except.ok.inj h)⟩
      · rintro ⟨_, _, ⟨⟩, ⟨⟩, hlt⟩
        exact congrArg Except.ok (decide_eq_true hlt)

/-- An artifact is up to date if it is newer than its template; it may also not be there. -/
theorem isUpToDate_eq {artifact : String} {a b : Address} {content : ByteArray} {time : Time}
    (hp : fs.Leads p a) (hs : fs.root.sightAt a = some (.file content time))
    (ha : fs.Leads artifact b) :
    ¬ Newer fs b time ∧ isUpToDate fs p artifact = .ok false ∨
      Newer fs b time ∧ isUpToDate fs p artifact = .ok true := by
  rcases ha.sightAt with hnone | ⟨found, changed, hfile⟩
  · refine .inl ⟨?_, by rw [isUpToDate, ha.modifiedAt_free hnone]; rfl⟩
    rintro ⟨found, changed, hfile, -⟩
    rw [hnone] at hfile
    cases hfile
  · have heq : isUpToDate fs p artifact = .ok (decide (time < changed)) := by
      rw [isUpToDate, ha.modifiedAt_file hfile, hp.modifiedAt_file hs]
    by_cases hlt : time < changed
    · exact .inr ⟨⟨found, changed, hfile, hlt⟩,
        heq.trans (congrArg Except.ok (decide_eq_true hlt))⟩
    · refine .inl ⟨?_, heq.trans (congrArg Except.ok (decide_eq_false hlt))⟩
      rintro ⟨_, _, hfile', hlt'⟩
      cases hfile.symm.trans hfile'
      exact hlt hlt'

theorem processFile_cases (h : Current language options templates site w.files)
    (hp : p ∈ templates) :
    ∃ w' attempt, processFile language options .artifact p w = (w', attempt) ∧
      Processed language options site p w w' attempt := by
  rw [processFile_eq, targetOf]
  cases hartifact : Host.artifactPath p options.extension with
  | none => exact ⟨_, _, rfl, .refused hartifact⟩
  | some artifact =>
    obtain ⟨text, time, htext, hsteady, hage⟩ := h.kept p hp
    have hleads := h.sited.template p hp
    have htarget := h.sited.artifact p hp artifact hartifact
    obtain ⟨w₁, hgenerate, hchanged⟩ := generate_spec language options
      (w := w.report (.processing p)) hleads htext htarget (h.sited.source p hp)
    have hrendered := Processed.rendered hartifact htext (fun files => hsteady files w.files)
      hchanged
    simp only [Option.map_some, isFresh]
    by_cases hforce : options.force = true
    · simp only [hforce, if_true, hgenerate]
      exact ⟨_, _, rfl, hrendered⟩
    · rw [if_neg hforce]
      rcases isUpToDate_eq hleads htext htarget with
        ⟨-, hstale⟩ | ⟨⟨content, changed, hs, hlt⟩, hfresh⟩
      · simp only [hstale, hgenerate]
        exact ⟨_, _, rfl, hrendered⟩
      · simp only [hfresh]
        refine ⟨_, _, rfl, .skipped (Bool.eq_false_iff.mpr hforce) hartifact rfl htext hs hlt ?_⟩
        exact fun files => (hsteady files w.files).trans ((hage content changed hs).2 hlt)

/-- A file leaves every template kept. -/
theorem Processed.current {attempt : Attempt Outcome}
    (h : Current language options templates site w.files) (hp : p ∈ templates)
    (hd : Processed language options site p w w' attempt) :
    Current language options templates site w'.files := by
  cases hd with
  | refused => exact h
  | skipped _ _ hfiles => exact hfiles ▸ h
  | rendered _ htext hr hc => exact h.changed hp htext hr hc

/-- A template that is older than the clock is skipped once its output was made. -/
theorem processFile_again {artifact text : String} {time : Time} {bytes : ByteArray}
    (h : Current language options templates site w.files) (hp : p ∈ templates)
    (hforce : options.force = false)
    (hartifact : Host.artifactPath p options.extension = some artifact)
    (htext : w.files.root.sightAt (site .template p) = some (.file text.toUTF8 time))
    (hold : time < w.files.now)
    (hr : language.rendering w.files ⟨pathOf (site .template p), text⟩ = .output bytes)
    (hw : w'.files = (processFile language options .artifact p w).1.files) :
    (processFile language options .artifact p w').2 = .completed .skipped := by
  have htemplate := h.sited.template p hp
  have htarget := h.sited.artifact p hp artifact hartifact
  obtain ⟨w₁, attempt, heq, hd⟩ := processFile_cases h hp
  rw [heq] at hw
  cases hd with
  | refused hnone => exact absurd (hnone.symm.trans hartifact) nofun
  | skipped _ _ hfiles htext' hs hlt =>
    refine congrArg Prod.snd (processFile_fresh hforce hartifact ?_ ?_ hlt)
    · exact hw ▸ hfiles ▸ htemplate.modifiedAt_file htext'
    · exact hw ▸ hfiles ▸ htarget.modifiedAt_file hs
  | rendered _ htext' hr' hc =>
    cases String.toByteArray_inj.mp (Sight.file.inj (Option.some.inj (htext.symm.trans htext'))).1
    cases hr.symm.trans (hr' w.files)
    have hne : site .template p ≠ site .artifact p := h.sited.ne (by decide) hp hp
    have hc : w.files.Wrote (site .artifact p) bytes w'.files := hw ▸ hc
    refine congrArg Prod.snd (processFile_fresh hforce hartifact ?_ ?_ hold)
    · exact (hc.leads htemplate).modifiedAt_file ((hc.sightAt_other hne).trans htext)
    · exact (hc.leads htarget).modifiedAt_file hc.sightAt_self

/-! ## Batches and histories -/

@[simp] theorem World.files_diagnose (w : World) (e : TransformError) :
    (w.diagnose e).files = w.files := by
  rw [World.diagnose]
  split
  · rfl
  · split
    · rfl
    · rfl

/-- A batch leaves every template kept, wherever it stops. -/
theorem runBatch_current {paths : List String}
    (h : Current language options templates site w.files) (hpaths : ∀ p ∈ paths, p ∈ templates) :
    Current language options templates site
      (runBatch language options .artifact paths w).1.files := by
  induction paths generalizing w with
  | nil => exact h
  | cons p rest ih =>
    have hp := hpaths p List.mem_cons_self
    obtain ⟨w₁, attempt, heq, hd⟩ := processFile_cases h hp
    have hw := hd.current h hp
    rw [runBatch_cons, heq]
    cases attempt with
    | completed outcome => exact ih hw fun q hq => hpaths q (List.mem_cons_of_mem p hq)
    | failed e =>
      simp only [World.files_diagnose]
      exact hw
    | abandoned => exact hw

/-- Templates without artifacts are kept. -/
theorem Current.of_bare (hsited : Sited options templates site fs)
    (htexts : ∀ p ∈ templates, ∃ text time,
      fs.root.sightAt (site .template p) = some (.file text.toUTF8 time) ∧
        language.Steady ⟨pathOf (site .template p), text⟩)
    (hbare : ∀ p ∈ templates, fs.root.sightAt (site .artifact p) = none) :
    Current language options templates site fs where
  sited := hsited
  kept p hp := by
    obtain ⟨text, time, htext, hsteady⟩ := htexts p hp
    refine ⟨text, time, htext, hsteady, fun content changed hs => ?_⟩
    rw [hbare p hp] at hs
    cases hs

theorem Current.withForce (h : Current language options templates site fs) (force : Bool) :
    Current language { options with force } templates site fs :=
  ⟨⟨h.sited.template, h.sited.artifact, h.sited.source, h.sited.apart⟩, h.kept⟩

theorem Current.ofForce {force : Bool}
    (h : Current language { options with force } templates site fs) :
    Current language options templates site fs :=
  ⟨⟨h.sited.template, h.sited.artifact, h.sited.source, h.sited.apart⟩, h.kept⟩

/-- Every history leaves every template kept. -/
theorem Reachable.current {start : World}
    (hstart : Current language options templates site start.files)
    (h : Reachable language options templates site start w) :
    Current language options templates site w.files := by
  induction h with
  | start => exact hstart
  | wait _ hnow ih => exact ih.wait hnow
  | @edit w p text files _ hp hsteady hwrite ih =>
    obtain ⟨written, hwrite', hwrote⟩ := (ih.sited.template p hp).write text.toUTF8
    rw [hwrite] at hwrite'
    cases hwrite'
    exact ih.edit hp hsteady hwrote
  | run force _ hpaths ih => exact (runBatch_current (ih.withForce force) hpaths).ofForce

/-! ## With and without force -/

/-- Both file systems hold the same text of a template. -/
theorem FileSystem.Alike.text (h : fs.Alike fs') {a : Address} {text text' : String}
    {time time' : Time} (hs : fs.root.sightAt a = some (.file text.toUTF8 time))
    (hs' : fs'.root.sightAt a = some (.file text'.toUTF8 time')) : text' = text := by
  obtain ⟨_, heq⟩ := h.sightAt_file hs
  rw [hs'] at heq
  injection heq with heq
  injection heq with heq
  exact String.toByteArray_inj.mp heq

theorem FileSystem.Alike.changed (h : fs.Alike fs') {change : Option (Address × ByteArray)}
    {gs gs' : FileSystem} (hc : fs.Changed change gs) (hc' : fs'.Changed change gs') :
    gs.Alike gs' := by
  cases change with
  | none => cases hc; cases hc'; exact h
  | some _ => exact h.wrote hc hc'

/-- Whether a file is skipped or made, its transform ends alike and the same content is left. -/
theorem Processed.alike {lazy forced : World} {attempt attempt' : Attempt Outcome}
    (halike : w.files.Alike w'.files)
    (h : Processed language { options with force := false } site p w lazy attempt)
    (h' : Processed language { options with force := true } site p w' forced attempt') :
    attempt.ending = attempt'.ending ∧ lazy.files.Alike forced.files := by
  cases h' with
  | skipped hforce => cases hforce
  | refused hnone =>
    cases h with
    | refused => exact ⟨rfl, halike⟩
    | skipped _ hsome => exact absurd (hnone.symm.trans hsome) nofun
    | rendered hsome => exact absurd (hnone.symm.trans hsome) nofun
  | rendered hsome' htext' hr' hc' =>
    cases h with
    | refused hnone => exact absurd (hnone.symm.trans hsome') nofun
    | skipped _ _ hfiles htext hs _ hr =>
      -- The artifact that is left alone holds what the other side writes.
      cases halike.text htext htext'
      cases (hr w.files).symm.trans (hr' w.files)
      exact ⟨rfl, hfiles ▸ halike.wrote_again hs hc'⟩
    | rendered hsome htext hr hc =>
      cases halike.text htext htext'
      cases (hr w.files).symm.trans (hr' w.files)
      cases hsome.symm.trans hsome'
      exact ⟨rfl, halike.changed hc hc'⟩

/-- A batch that skips files fails where one that makes them all fails, in the same way, and both
leave the same content. -/
theorem runBatch_alike {paths : List String}
    (h : Current language options templates site w.files)
    (h' : Current language options templates site w'.files) (halike : w.files.Alike w'.files)
    (hpaths : ∀ p ∈ paths, p ∈ templates) :
    let lazy := runBatch language { options with force := false } .artifact paths w
    let forced := runBatch language { options with force := true } .artifact paths w'
    lazy.2.failure = forced.2.failure ∧ lazy.2.abandoned = forced.2.abandoned ∧
      lazy.1.files.Alike forced.1.files := by
  induction paths generalizing w w' with
  | nil => exact ⟨rfl, rfl, halike⟩
  | cons p rest ih =>
    have hp := hpaths p List.mem_cons_self
    obtain ⟨lazy, attempt, heq, hd⟩ := processFile_cases (h.withForce false) hp
    obtain ⟨forced, attempt', heq', hd'⟩ := processFile_cases (h'.withForce true) hp
    obtain ⟨hending, hafter⟩ := hd.alike halike hd'
    have hlazy := (hd.current (h.withForce false) hp).ofForce
    have hforced := (hd'.current (h'.withForce true) hp).ofForce
    simp only [runBatch_cons, heq, heq']
    cases attempt with
    | completed outcome =>
      cases attempt' with
      | completed outcome' =>
        exact ih hlazy hforced hafter fun q hq => hpaths q (List.mem_cons_of_mem p hq)
      | failed e => cases hending
      | abandoned => cases hending
    | failed e =>
      cases attempt' with
      | completed outcome' => cases hending
      | failed e' =>
        cases hending
        refine ⟨rfl, rfl, ?_⟩
        rw [World.files_diagnose, World.files_diagnose]
        exact hafter
      | abandoned => cases hending
    | abandoned =>
      cases attempt' with
      | completed outcome' => cases hending
      | failed e => cases hending
      | abandoned => exact ⟨rfl, rfl, hafter⟩

/-- A file is only skipped if its artifact is what rendering it would give. -/
theorem Current.skipped (h : Current language options templates site w.files)
    (hp : p ∈ templates) {mode : Mode}
    (hs : (processFile language options mode p w).2 = .completed .skipped) :
    ∃ artifact template bytes, Host.artifactPath p options.extension = some artifact ∧
      loadTemplate w.files p = .ok template ∧
      (render language options template w).2 = .completed bytes ∧
      w.files.readBytes artifact = .ok bytes := by
  cases mode with
  | stream => exact absurd hs (language.interpreter.generate_ne_skipped .sound options p .shared _)
  | artifact =>
    obtain ⟨w', attempt, heq, hd⟩ := processFile_cases h hp
    rw [heq] at hs
    cases hd with
    | refused => cases hs
    | @skipped _ artifact text time changed content _ hartifact _ htext hfile _ hr =>
      obtain ⟨w', hrender, -⟩ := render_output options (hr w.files)
      exact ⟨artifact, _, content, hartifact,
        loadTemplate_of_text (h.sited.template p hp) htext, congrArg Prod.snd hrender,
        (h.sited.artifact p hp artifact hartifact).readBytes_file hfile⟩
    | @rendered _ artifact text time r =>
      cases hv : r.verdict options (pathOf (site .template p)) with
      | completed bytes => rw [hv] at hs; cases hs
      | failed e => rw [hv] at hs; cases hs
      | abandoned => rw [hv] at hs; cases hs

/-- Let every template be a text that comes to the same whatever files there are, let every path of
the project lead to a place of its own, and let there be no artifact at the start. After any
history of edits and batches, a file is only skipped if its artifact holds the bytes that rendering
it would give; and a batch ends as it would with `force`: with the same failure, if any, and the
same content in every file. -/
theorem skip_transparent {start : World} (hsited : Sited options templates site start.files)
    (htexts : ∀ p ∈ templates, ∃ text time,
      start.files.root.sightAt (site .template p) = some (.file text.toUTF8 time) ∧
        language.Steady ⟨pathOf (site .template p), text⟩)
    (hbare : ∀ p ∈ templates, start.files.root.sightAt (site .artifact p) = none)
    (h : Reachable language options templates site start w) :
    (∀ force mode, ∀ p ∈ templates,
      (processFile language { options with force } mode p w).2 = .completed .skipped →
      ∃ artifact template bytes, Host.artifactPath p options.extension = some artifact ∧
        loadTemplate w.files p = .ok template ∧
        (render language { options with force } template w).2 = .completed bytes ∧
        w.files.readBytes artifact = .ok bytes) ∧
    ∀ paths, (∀ p ∈ paths, p ∈ templates) →
      let lazy := runBatch language { options with force := false } .artifact paths w
      let forced := runBatch language { options with force := true } .artifact paths w
      lazy.2.failure = forced.2.failure ∧ lazy.2.abandoned = forced.2.abandoned ∧
        ∀ path, lazy.1.files.readBytes path = forced.1.files.readBytes path := by
  have hcurrent := h.current (Current.of_bare hsited htexts hbare)
  refine ⟨fun force mode p hp hs => (hcurrent.withForce force).skipped hp hs, ?_⟩
  intro paths hpaths
  obtain ⟨hfailure, habandoned, halike⟩ :=
    runBatch_alike hcurrent hcurrent (FileSystem.Alike.refl _) hpaths
  exact ⟨hfailure, habandoned, fun path => (halike.readBytes path).symm⟩

/-! ### One template -/

/-- A world with one template, which is older than the clock. -/
def loneWorld : World where
  outlets := ⟨⟨.directory [("a.tt", .file "x\n".toUTF8 3)] 0, "/", 5⟩, {}⟩
  diagnostics := {}
  log := []

/-- Where its files stand. -/
def loneSite : Role → String → Address
  | .template, _ => ["a.tt"]
  | .artifact, _ => ["a.rs"]
  | .source, _ => ["a.debug_error.rs"]

theorem loneWorld_sited : Sited {} ["/a.tt"] loneSite loneWorld.files where
  template p hp := by
    rw [List.mem_singleton.mp hp]
    exact .file (by decide) (by decide)
  artifact p hp artifact h := by
    rw [List.mem_singleton.mp hp] at h
    have hpath : Host.artifactPath "/a.tt" "rs" = some "/a.rs" := by decide
    cases hpath.symm.trans h
    exact @FileSystem.Leads.free _ _ [] "a.rs" (by decide)
  source p hp saved h := by
    have hpath : Host.debugPath "/a.tt" "debug_error" "rs" = some "/a.debug_error.rs" := by decide
    cases hpath.symm.trans h
    exact @FileSystem.Leads.free _ _ [] "a.debug_error.rs" (by decide)
  apart r r' p hp q hq h := by
    refine ⟨?_, (List.mem_singleton.mp hp).trans (List.mem_singleton.mp hq).symm⟩
    revert h
    cases r <;> cases r' <;> decide +revert

theorem runBatch_singleton_files (language : Language) (options : Options) (mode : Mode)
    (p : String) (w : World) :
    (runBatch language options mode [p] w).1.files =
      (processFile language options mode p w).1.files := by
  rw [runBatch_cons]
  obtain ⟨w', attempt⟩ := processFile language options mode p w
  cases attempt with
  | completed outcome => rfl
  | failed e => exact World.files_diagnose w' e
  | abandoned => rfl

/-- Once its output was made, the template is skipped. -/
theorem skip_transparent_lone :
    let w := (runBatch Lua.language {} .artifact ["/a.tt"] loneWorld).1
    Reachable Lua.language {} ["/a.tt"] loneSite loneWorld w ∧
    (processFile Lua.language {} .artifact "/a.tt" w).2 = .completed .skipped ∧
    ∃ artifact template bytes, Host.artifactPath "/a.tt" "rs" = some artifact ∧
      loadTemplate w.files "/a.tt" = .ok template ∧
      (render Lua.language {} template w).2 = .completed bytes ∧
      w.files.readBytes artifact = .ok bytes := by
  intro w
  have hpath : '\x00' ∉ (pathOf ["a.tt"]).toList := by decide
  have hmarker : ¬ ['<', '#'] <:+: "x\n".toList := by decide
  have htext : loneWorld.files.root.sightAt ["a.tt"] = some (.file "x\n".toUTF8 3) := rfl
  have htexts : ∀ p ∈ ["/a.tt"], ∃ text time,
      loneWorld.files.root.sightAt (loneSite .template p) = some (.file text.toUTF8 time) ∧
        Lua.language.Steady ⟨pathOf (loneSite .template p), text⟩ := fun _ _ =>
    ⟨"x\n", 3, htext, Lua.steady_markerFree hpath hmarker⟩
  have hbare : ∀ p ∈ ["/a.tt"],
      loneWorld.files.root.sightAt (loneSite .artifact p) = none := fun _ _ => rfl
  have hreachable : Reachable Lua.language {} ["/a.tt"] loneSite loneWorld w :=
    .run false .start fun _ hp => hp
  have hskip : (processFile Lua.language {} .artifact "/a.tt" w).2 = .completed .skipped :=
    processFile_again (Current.of_bare loneWorld_sited htexts hbare) List.mem_cons_self rfl
      (show Host.artifactPath "/a.tt" "rs" = some "/a.rs" by decide) htext (by decide)
      (Lua.rendering_markerFree .isolated _ hpath hmarker) (runBatch_singleton_files ..)
  have h := skip_transparent loneWorld_sited htexts hbare hreachable
  exact ⟨hreachable, hskip, h.1 false .artifact "/a.tt" List.mem_cons_self hskip⟩

/-! ### Two templates and a link -/

/-- A world with a link in the place of an artifact, to where another template has its own. -/
def linkedWorld : World where
  outlets := ⟨⟨.directory [("a.rs", .link "b.rs"), ("a.tt", .file "x".toUTF8 3),
    ("b.tt", .file "y".toUTF8 3)] 2, "/", 5⟩, {}⟩
  diagnostics := {}
  log := []

/-- The artifact of the first template is written through the link, and taken for that of the
second. -/
theorem linkedWorld_run :
    ∃ v, runBatch Lua.language {} .artifact ["/a.tt", "/b.tt"] linkedWorld =
        (v, ⟨[⟨"/a.tt", .generated (some "/a.rs")⟩, ⟨"/b.tt", .skipped⟩], none, false⟩) ∧
      linkedWorld.files.Wrote ["b.rs"] "x".toUTF8 v.files := by
  have hpath : Host.artifactPath "/a.tt" "rs" = some "/a.rs" := by decide
  have hpath' : Host.artifactPath "/b.tt" "rs" = some "/b.rs" := by decide
  have htemplate : linkedWorld.files.Leads "/a.tt" ["a.tt"] := .file (by decide) (by decide)
  have htarget : linkedWorld.files.Leads "/a.rs" ["b.rs"] :=
    @FileSystem.Leads.free _ _ [] "b.rs" (by decide)
  have htarget' : linkedWorld.files.Leads "/b.rs" ["b.rs"] :=
    @FileSystem.Leads.free _ _ [] "b.rs" (by decide)
  have hmissing : isFresh {} linkedWorld.files "/a.tt" (.artifact "/a.rs") = .ok false := rfl
  have hrendering : Lua.language.rendering linkedWorld.files ⟨"/a.tt", "x"⟩ =
    .output "x".toUTF8 := Lua.rendering_markerFree .isolated _ (by decide) (by decide)
  obtain ⟨v, hmade, hwrote⟩ :=
    processFile_output htemplate rfl hpath htarget hmissing hrendering
  have hsecond : linkedWorld.files.Leads "/b.tt" ["b.tt"] := .file (by decide) (by decide)
  have hskipped := @processFile_fresh Lua.language {} "/b.tt" v "/b.rs" _ _ rfl hpath'
    (hwrote.modifiedAt_other hsecond (by decide) rfl)
    ((hwrote.leads htarget').modifiedAt_file hwrote.sightAt_self) (by decide)
  exact ⟨_, runBatch_pair hmade hskipped, hwrote⟩

/-- Where a link leads from one artifact's path to another's, all paths differ and yet a file is
skipped whose artifact holds another output, which a batch with `force` would replace. -/
theorem skipped_through_link :
    let w := linkedWorld
    let lazy := runBatch Lua.language {} .artifact ["/a.tt", "/b.tt"] w
    let forced := runBatch Lua.language { force := true } .artifact ["/a.tt", "/b.tt"] w
    ["/a.tt", "/b.tt", "/a.rs", "/b.rs", "/a.debug_error.rs", "/b.debug_error.rs"].Nodup ∧
    w.files.readBytes "/a.rs" = .error .notFound ∧ w.files.readBytes "/b.rs" = .error .notFound ∧
    lazy.2 = ⟨[⟨"/a.tt", .generated (some "/a.rs")⟩, ⟨"/b.tt", .skipped⟩], none, false⟩ ∧
    lazy.1.files.readBytes "/b.rs" = .ok "x".toUTF8 ∧
    (∃ template, loadTemplate lazy.1.files "/b.tt" = .ok template ∧
      (render Lua.language {} template lazy.1).2 = .completed "y".toUTF8) ∧
    forced.2.failure = none ∧ forced.1.files.readBytes "/b.rs" = .ok "y".toUTF8 := by
  intro w lazy forced
  obtain ⟨v, hlazy, hwrote⟩ := linkedWorld_run
  have htarget : linkedWorld.files.Leads "/a.rs" ["b.rs"] :=
    @FileSystem.Leads.free _ _ [] "b.rs" (by decide)
  have htarget' : linkedWorld.files.Leads "/b.rs" ["b.rs"] :=
    @FileSystem.Leads.free _ _ [] "b.rs" (by decide)
  have htemplate : linkedWorld.files.Leads "/b.tt" ["b.tt"] := .file (by decide) (by decide)
  have htext {fs : FileSystem} (hfs : linkedWorld.files.Wrote ["b.rs"] "x".toUTF8 fs) :
      fs.root.sightAt ["b.tt"] = some (.file "y".toUTF8 3) :=
    (hfs.sightAt_other (by decide)).trans rfl
  have hrendering (files : FileSystem) : Lua.language.rendering files ⟨"/b.tt", "y"⟩ =
    .output "y".toUTF8 := Lua.rendering_markerFree .isolated _ (by decide) (by decide)
  have hlazy : lazy = (v, _) := hlazy
  refine ⟨by decide, rfl, rfl, by rw [hlazy], ?_, ?_, ?_⟩
  · rw [hlazy]
    exact (hwrote.leads htarget').readBytes_file hwrote.sightAt_self
  · rw [hlazy]
    exact ⟨⟨"/b.tt", "y"⟩, loadTemplate_of_text (hwrote.leads htemplate) (htext hwrote),
      render_completed_iff.mpr (hrendering _)⟩
  -- With `force` the second output is written over the first one.
  · have hfirst : Lua.language.rendering linkedWorld.files ⟨"/a.tt", "x"⟩ = .output "x".toUTF8 :=
      Lua.rendering_markerFree .isolated _ (by decide) (by decide)
    obtain ⟨u, hmade, hfirst⟩ := @processFile_output Lua.language { force := true } "/a.tt"
      linkedWorld "/a.rs" "x" 3 _ ["a.tt"] _ (.file (by decide) (by decide)) rfl (by decide) htarget
      rfl hfirst
    obtain ⟨v', hmade', hsecond⟩ := @processFile_output Lua.language { force := true } "/b.tt" u
      "/b.rs" "y" _ _ _ _ (hfirst.leads htemplate) (htext hfirst) (by decide)
      (hfirst.leads htarget') rfl (hrendering u.files)
    have hforced : forced = (v', _) := runBatch_pair hmade hmade'
    rw [hforced]
    exact ⟨rfl, (hsecond.leads (hfirst.leads htarget')).readBytes_file hsecond.sightAt_self⟩

end Stencil
