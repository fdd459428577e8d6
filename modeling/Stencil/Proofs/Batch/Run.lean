import Mathlib.Data.List.Forall2
import Stencil.Proofs.Batch.Outcome

/-!
# The law of a batch

A batch transforms its files in order and stops in front of the first that fails. So a batch over
two lists is the batch over one after the batch over the other, unless the first of them fails, and
then the second list does not matter. It is so whatever the snippets do and whatever goes wrong on
the disk.

* `Passes`: files that are transformed one after another, none of which fails;
* `Halts`: how a batch ends;
* `runBatch_passes`: every batch passes some of its files and halts at the others;
* `reportText`: the report of a failure;
* `runBatch_append_of_success`, `runBatch_append_of_failure`: a batch over two lists;
* `runBatch_law`: what a batch reports and leaves.
-/

namespace Stencil

variable {σ : Type} {I : Interpreter σ} {d : Disk} {options : Options} {mode : Mode}
  {path : String} {x y v : World × σ} {e : TransformError}

/-! ## Diagnostics -/

/-- The report of a failure: its causal chain, the root last, and where the source of a failed
program was saved. -/
def reportText (e : TransformError) : String :=
  String.ofList (Text.trimEnd (renderChain (causalChain (.transform e))).toList) ++ "\n" ++
    match e.saved with
    | some p => "Generated source saved to: " ++ p ++ "\n"
    | none => ""

theorem join_failureReport (e : TransformError) : String.join (failureReport e) = reportText e := by
  rw [failureReport, reportText]
  cases e.saved with
  | none => simp [String.join_cons]
  | some p => simp [String.join_cons, String.append_assoc]

/-- Diagnostics with the report of a failure. -/
def Writer.reported (d : Writer) (e : TransformError) : Writer :=
  match d.writeEach (failureReport e) with
  | (d, .error _) => d
  | (d, .ok _) => d.flush.1

theorem World.diagnostics_diagnose (w : World) (e : TransformError) :
    (w.diagnose e).diagnostics = w.diagnostics.reported e := by
  rw [World.diagnose, Writer.reported]
  cases w.diagnostics.writeEach (failureReport e) with
  | mk d result =>
    cases result with
    | error io => rfl
    | ok _ =>
      simp only
      split
      · rename_i hflush
        rw [hflush]
        rfl
      · rename_i hflush
        rw [hflush]

theorem World.outlets_diagnose (w : World) (e : TransformError) :
    (w.diagnose e).outlets = w.outlets := by
  rw [World.diagnose]
  split
  · rfl
  · split
    · rfl
    · rfl

/-- A writer takes the first of some texts, and all of them if it has no limit. -/
theorem Writer.writeEach_spec (d : Writer) (texts : List String) :
    ∃ part rest, part ++ rest = (String.join texts).toUTF8 ∧
      (d.writeEach texts).1.written = d.written ++ part ∧
      (d.limit = none → rest = ByteArray.empty) := by
  induction texts generalizing d with
  | nil =>
    exact ⟨ByteArray.empty, ByteArray.empty, by simp [String.join], by simp [Writer.writeEach],
      fun _ => rfl⟩
  | cons text rest ih =>
    have hjoin : (String.join (text :: rest)).toUTF8 = text.toUTF8 ++ (String.join rest).toUTF8 := by
      rw [String.join_cons, String.toUTF8_eq_toByteArray, String.toUTF8_eq_toByteArray,
        String.toUTF8_eq_toByteArray, String.toByteArray_append]
    rw [Writer.writeEach, hjoin]
    by_cases hfits : d.fits text.toUTF8 = true
    · have hwrite : d.write text.toUTF8 =
          ({ d with written := d.written ++ text.toUTF8 }, .ok ()) := if_pos hfits
      obtain ⟨part, left, htexts, hwritten, hall⟩ :=
        ih { d with written := d.written ++ text.toUTF8 }
      rw [hwrite]
      exact ⟨text.toUTF8 ++ part, left, by rw [ByteArray.append_assoc, htexts],
        hwritten.trans ByteArray.append_assoc, hall⟩
    · have hwrite : d.write text.toUTF8 = (d, .error Writer.full) := if_neg hfits
      rw [hwrite]
      refine ⟨ByteArray.empty, _, ByteArray.empty_append, ByteArray.append_empty.symm, ?_⟩
      intro hlimit
      exact absurd (by rw [Writer.fits, hlimit]) hfits

theorem Writer.reported_spec (d : Writer) (e : TransformError) :
    ∃ part rest, part ++ rest = (reportText e).toUTF8 ∧
      (d.reported e).written = d.written ++ part ∧
      (d.limit = none → rest = ByteArray.empty) := by
  obtain ⟨part, rest, htext, hwritten, hall⟩ := d.writeEach_spec (failureReport e)
  rw [join_failureReport] at htext
  refine ⟨part, rest, htext, ?_, hall⟩
  rw [← hwritten, Writer.reported]
  cases d.writeEach (failureReport e) with
  | mk d result => cases result <;> rfl

/-! ## Passing and halting -/

/-- Files that are transformed one after another, none of which fails: each in the situation that
the one before left. -/
inductive Passes (I : Interpreter σ) (d : Disk) (options : Options) (mode : Mode) :
    World × σ → List FileReport → World × σ → Prop
  | nil {x : World × σ} : Passes I d options mode x [] x
  | cons {x v y : World × σ} {f : FileReport} {rest : List FileReport} :
    I.processFile d options mode f.path x = (v, .completed f.outcome) →
    Passes I d options mode v rest y → Passes I d options mode x (f :: rest) y

/-- How a batch ends in front of the files that are left: there are none, or the next one fails and
its failure is reported. -/
inductive Halts (I : Interpreter σ) (d : Disk) (options : Options) (mode : Mode) (v : World × σ) :
    List String → World × σ → Option TransformError → Prop
  | done : Halts I d options mode v [] v none
  | failed {path : String} {rest : List String} {u : World × σ} {e : TransformError} :
    I.processFile d options mode path v = (u, .failed e) →
    Halts I d options mode v (path :: rest) (u.1.diagnose e, u.2) (some e)

/-- No file is given up as long as the names that artifacts end in have no separator. -/
theorem processFile_ne_abandoned (I : Interpreter σ) (d : Disk)
    (hext : '/' ∉ options.extension.toList) (hsuffix : '/' ∉ options.debugSuffix.toList)
    (mode : Mode) (path : String) (x : World × σ) :
    (I.processFile d options mode path x).2 ≠ .abandoned := by
  intro h
  have hhandled := I.processFile_handled d options mode path x
  rw [h] at hhandled
  cases hhandled with
  | refused hslash => exact absurd hslash (not_or_intro hext hsuffix)

/-- A batch passes the files that it reports as completed and halts at the others. -/
theorem runBatch_passes (I : Interpreter σ) (d : Disk) (mode : Mode)
    (hext : '/' ∉ options.extension.toList) (hsuffix : '/' ∉ options.debugSuffix.toList)
    (files : List String) (x : World × σ) :
    let r := I.runBatch d options mode files x
    r.2.abandoned = false ∧ ∃ v rest, files = r.2.completed.map FileReport.path ++ rest ∧
      Passes I d options mode x r.2.completed v ∧
      Halts I d options mode v rest r.1 r.2.failure := by
  induction files generalizing x with
  | nil => exact ⟨rfl, x, [], rfl, .nil, .done⟩
  | cons path rest ih =>
    have hgoes := processFile_ne_abandoned I d hext hsuffix mode path x
    rw [Interpreter.runBatch]
    cases hfile : I.processFile d options mode path x with
    | mk v attempt =>
      cases attempt with
      | completed outcome =>
        obtain ⟨habandoned, u, others, hfiles, hpasses, hhalts⟩ := ih v
        exact ⟨habandoned, u, others, congrArg (path :: ·) hfiles, .cons hfile hpasses, hhalts⟩
      | failed e => exact ⟨rfl, x, path :: rest, rfl, .nil, .failed hfile⟩
      | abandoned => exact absurd (congrArg Prod.snd hfile) hgoes

theorem Passes.diagnostics {done : List FileReport} (h : Passes I d options mode x done y) :
    y.1.diagnostics = x.1.diagnostics := by
  induction h with
  | nil => rfl
  | @cons x v y f rest hfile _ ih =>
    have hstep := I.processFile_diagnostics d options mode f.path x
    rw [hfile] at hstep
    exact ih.trans hstep

/-- Only a failure is reported. -/
theorem Halts.diagnostics {rest : List String} {failure : Option TransformError}
    (h : Halts I d options mode v rest y failure) :
    y.1.diagnostics = failure.elim v.1.diagnostics v.1.diagnostics.reported := by
  cases h with
  | done => rfl
  | @failed path rest u e hfile =>
    have hstep := I.processFile_diagnostics d options mode path v
    rw [hfile] at hstep
    rw [World.diagnostics_diagnose, hstep]
    rfl

theorem Halts.failure_iff {rest : List String} {failure : Option TransformError}
    (h : Halts I d options mode v rest y failure) : failure.isSome ↔ rest ≠ [] := by
  cases h with
  | done => simp
  | failed _ => simp

/-! ## Output for the shared writer -/

/-- Files that go to the shared writer one after another, none of which fails, and their outputs:
each rendered in the situation that the one before left. -/
inductive Streamed (I : Interpreter σ) (d : Disk) (options : Options) :
    World × σ → List FileReport → List ByteArray → World × σ → Prop
  | nil {x : World × σ} : Streamed I d options x [] [] x
  | cons {x v y : World × σ} {f : FileReport} {template : Template} {bytes : ByteArray}
    {rest : List FileReport} {outputs : List ByteArray} :
    I.processFile d options .stream f.path x = (v, .completed f.outcome) →
    f.outcome = .generated none → loadTemplate x.1.files f.path = .ok template →
    (I.render d options template (starting f.path x)).2 = .completed bytes →
    Streamed I d options v rest outputs y → Streamed I d options x (f :: rest) (bytes :: outputs) y

/-- Files that pass add their outputs to the shared writer. -/
theorem Passes.stream {done : List FileReport} (h : Passes I d options .stream x done y) :
    ∃ outputs, Streamed I d options x done outputs y ∧
      y.1.outlets.shared.written = outputs.foldl (· ++ ·) x.1.outlets.shared.written := by
  generalize hmode : Mode.stream = mode at h
  induction h with
  | nil => exact ⟨[], .nil, rfl⟩
  | @cons x v y f rest hfile _ ih =>
    subst hmode
    obtain ⟨outputs, hstreamed, hwritten⟩ := ih
    have hhandled := I.processFile_handled d options .stream f.path x
    rw [hfile] at hhandled
    obtain ⟨template, bytes, u, hmade, hload, hwork, hadded, -⟩ := hhandled.stream
    have hrender : (I.render d options template (starting f.path x)).2 = .completed bytes :=
      Interpreter.render_completed_iff.mpr (by rw [hwork])
    refine ⟨bytes :: outputs, .cons hfile hmade hload hrender hstreamed, ?_⟩
    rw [hwritten, hadded]
    rfl

/-- A file that fails before its output is there leaves the shared writer as it is. -/
theorem Handled.shared {r : Attempt Outcome} (h : Handled I d options mode path x y r)
    (hr : r.Quiet) : y.1.outlets.shared = x.1.outlets.shared := by
  have hworked {template : Template} {v : World × σ} {r : Rendering} {files : FileSystem}
      (hwork : I.work template (starting path x) = (v, r))
      (houtlets : y.1.outlets = { v.1.outlets with files }) :
      y.1.outlets.shared = x.1.outlets.shared := by
    have hframe := (I.work_frame template (starting path x)).1
    rw [hwork] at hframe
    rw [houtlets]
    exact hframe
  cases h with
  | refused _ => cases hr
  | unreadable e houtlets => rw [houtlets]
  | skipped _ _ _ _ houtlets => rw [houtlets]
  | unterminated _ _ houtlets => rw [houtlets]
  | broken _ hwork _ _ houtlets => exact hworked hwork houtlets
  | unsaved _ hwork _ _ houtlets => exact hworked hwork houtlets
  | undelivered _ _ _ _ => cases hr
  | generated _ _ _ _ => cases hr

/-- At its end, a batch only adds to the shared writer what an output that fails to be delivered
left there. -/
theorem Halts.shared {rest : List String} {failure : Option TransformError}
    (h : Halts I d options .stream v rest y failure) :
    ∃ extra, y.1.outlets.shared.written = v.1.outlets.shared.written ++ extra ∧
      ((∀ path io, failure ≠ some (.output path io)) → extra = ByteArray.empty) := by
  have hsame : y.1.outlets.shared = v.1.outlets.shared →
      ∃ extra, y.1.outlets.shared.written = v.1.outlets.shared.written ++ extra ∧
        ((∀ path io, failure ≠ some (.output path io)) → extra = ByteArray.empty) := fun hshared =>
    ⟨ByteArray.empty, by rw [hshared, ByteArray.append_empty], fun _ => rfl⟩
  cases h with
  | done => exact hsame rfl
  | @failed path rest u e hfile =>
    have hhandled := I.processFile_handled d options .stream path v
    rw [hfile] at hhandled
    rw [World.outlets_diagnose] at hsame ⊢
    cases e with
    | read _ _ => exact hsame (hhandled.shared trivial)
    | markup _ _ => exact hsame (hhandled.shared trivial)
    | execution _ _ _ => exact hsame (hhandled.shared trivial)
    | output path io =>
      cases hhandled with
      | @undelivered z template bytes target _ hload hwork htarget hdeliver =>
        cases htarget
        have hframe := (I.work_frame template (starting path v)).1
        rw [hwork] at hframe
        obtain ⟨-, extra, hwritten⟩ := Outlets.deliver_shared_error hdeliver
        refine ⟨extra, hwritten.trans ?_, fun hno => absurd rfl (hno _ _)⟩
        rw [hframe]
        rfl

/-! ## Two lists -/

/-- The report of files that were transformed after others. -/
def BatchReport.after (done : List FileReport) (r : BatchReport) : BatchReport :=
  { r with completed := done ++ r.completed }

/-- A batch that passes all of its files goes on with the files that follow. -/
theorem runBatch_append_of_success {xs : List String} (ys : List String)
    (hgoes : (I.runBatch d options mode xs x).2.abandoned = false)
    (h : (I.runBatch d options mode xs x).2.failure = none) :
    I.runBatch d options mode (xs ++ ys) x =
      let first := I.runBatch d options mode xs x
      let second := I.runBatch d options mode ys first.1
      (second.1, second.2.after first.2.completed) := by
  induction xs generalizing x with
  | nil => rfl
  | cons path rest ih =>
    rw [Interpreter.runBatch] at hgoes h
    rw [List.cons_append, Interpreter.runBatch, Interpreter.runBatch]
    cases hfile : I.processFile d options mode path x with
    | mk v attempt =>
      rw [hfile] at hgoes h
      cases attempt with
      | completed outcome =>
        simp only at hgoes h ⊢
        rw [ih hgoes h]
        rfl
      | failed e => cases h
      | abandoned => cases hgoes

/-- A batch that fails leaves alone whatever follows. -/
theorem runBatch_append_of_failure {xs : List String} (ys : List String)
    (h : (I.runBatch d options mode xs x).2.failure = some e) :
    I.runBatch d options mode (xs ++ ys) x = I.runBatch d options mode xs x := by
  induction xs generalizing x with
  | nil => cases h
  | cons path rest ih =>
    rw [Interpreter.runBatch] at h
    rw [List.cons_append, Interpreter.runBatch, Interpreter.runBatch]
    cases hfile : I.processFile d options mode path x with
    | mk v attempt =>
      rw [hfile] at h
      cases attempt with
      | completed outcome =>
        simp only at h ⊢
        rw [ih h]
      | failed e => rfl
      | abandoned => rfl

/-! ## The law -/

/-- What a batch over a list of files reports and leaves. -/
structure Driven (I : Interpreter σ) (d : Disk) (options : Options) (mode : Mode)
    (files : List String) (x y : World × σ) (r : BatchReport) : Prop where
  /-- The completed files are the first of the list, one after another, up to the end or to the
  first that fails. -/
  order : ∃ v rest, files = r.completed.map FileReport.path ++ rest ∧
    Passes I d options mode x r.completed v ∧ Halts I d options mode v rest y r.failure
  failure_iff : r.failure.isSome ↔ r.completed.length < files.length
  finished : r.abandoned = false
  silent : r.failure = none → y.1.diagnostics = x.1.diagnostics
  /-- The diagnostics get the report of the failure once, and the whole of it if it fits. -/
  reported : ∀ e, r.failure = some e → ∃ part rest, part ++ rest = (reportText e).toUTF8 ∧
    y.1.diagnostics.written = x.1.diagnostics.written ++ part ∧
    (x.1.diagnostics.limit = none → rest = ByteArray.empty)
  /-- The shared writer gets the outputs of the completed files, in their order, and nothing else
  unless the output of the next file fails to be delivered. -/
  stream : mode = .stream → ∃ v outputs extra, Streamed I d options x r.completed outputs v ∧
    y.1.outlets.shared.written = outputs.foldl (· ++ ·) x.1.outlets.shared.written ++ extra ∧
    ((∀ path io, r.failure ≠ some (.output path io)) → extra = ByteArray.empty)

theorem runBatch_driven (hext : '/' ∉ options.extension.toList)
    (hsuffix : '/' ∉ options.debugSuffix.toList) (files : List String) (x : World × σ) :
    Driven I d options mode files x (I.runBatch d options mode files x).1
      (I.runBatch d options mode files x).2 := by
  obtain ⟨hfinished, v, rest, hfiles, hpasses, hhalts⟩ :=
    runBatch_passes I d mode hext hsuffix files x
  have hdiagnostics := hhalts.diagnostics
  rw [hpasses.diagnostics] at hdiagnostics
  refine ⟨⟨v, rest, hfiles, hpasses, hhalts⟩, ?_, hfinished, fun hnone => ?_, fun e he => ?_,
    fun hmode => ?_⟩
  · have hlength := congrArg List.length hfiles
    rw [List.length_append, List.length_map] at hlength
    rw [hhalts.failure_iff, ← List.length_pos_iff]
    omega
  · rw [hdiagnostics, hnone]
    rfl
  · rw [he] at hdiagnostics
    rw [hdiagnostics]
    exact Writer.reported_spec _ e
  · subst hmode
    obtain ⟨outputs, hstreamed, hwritten⟩ := hpasses.stream
    obtain ⟨extra, hshared, hextra⟩ := hhalts.shared
    exact ⟨v, outputs, extra, hstreamed, by rw [hshared, hwritten], hextra⟩

/-- The law of batches, for every language with its effects and every disk: a batch completes its
files in order up to the first failure, which it reports; what follows goes on from where a batch
without failure ended, and is as good as absent after a failure. -/
theorem runBatch_law (I : Interpreter σ) (d : Disk) (options : Options) (mode : Mode)
    (hext : '/' ∉ options.extension.toList) (hsuffix : '/' ∉ options.debugSuffix.toList)
    (x : World × σ) :
    (∀ files, Driven I d options mode files x (I.runBatch d options mode files x).1
      (I.runBatch d options mode files x).2) ∧
    ∀ xs ys, let first := I.runBatch d options mode xs x
      (first.2.failure = none →
        let second := I.runBatch d options mode ys first.1
        I.runBatch d options mode (xs ++ ys) x =
          (second.1, second.2.after first.2.completed)) ∧
      ∀ e, first.2.failure = some e → I.runBatch d options mode (xs ++ ys) x = first :=
  ⟨fun files => runBatch_driven hext hsuffix files x, fun _ ys =>
    ⟨runBatch_append_of_success ys (runBatch_passes I d _ hext hsuffix _ x).1,
      fun _ he => runBatch_append_of_failure ys he⟩⟩

/-- A failing template is reported, and leaves alone what follows it, here files that may fail
too. -/
theorem runBatch_law_broken :
    let I := Lua.language.interpreter
    let first := I.runBatch .sound {} .stream ["/a.tt"] (brokenWorld, ())
    first.2.completed = [] ∧
      (∃ e, first.2.failure = some e ∧ e.saved = some "/a.debug_error.rs" ∧
        first.1.1.diagnostics.written = (reportText e).toUTF8) ∧
      first.1.1.outlets.shared.written = brokenWorld.outlets.shared.written ∧
      ∀ ys, I.runBatch .sound {} .stream ("/a.tt" :: ys) (brokenWorld, ()) = first := by
  have hlaw := runBatch_law Lua.language.interpreter .sound {} .stream (by decide) (by decide)
    (brokenWorld, ())
  have hdriven := hlaw.1 ["/a.tt"]
  have hstop := fun ys => (hlaw.2 ["/a.tt"] ys).2
  have hfile : brokenWorld.files.Leads "/a.tt" ["a.tt"] := .file (by decide) (by decide)
  obtain ⟨e, hr⟩ := Lua.rendering_unopened brokenWorld.files
  have hpath : Host.debugPath (FileSystem.pathOf ["a.tt"]) "debug_error" "rs" =
    some "/a.debug_error.rs" := by decide
  have hsource : brokenWorld.files.Leads "/a.debug_error.rs" ["a.debug_error.rs"] :=
    @FileSystem.Leads.free _ _ [] "a.debug_error.rs" (by decide)
  have htarget : targetOf {} .stream "/a.tt" = some .shared := rfl
  obtain ⟨u, hprocess, -⟩ := processFile_broken hfile rfl htarget rfl hr hpath hsource
  have hfirst : (Lua.language.interpreter.runBatch .sound {} .stream ["/a.tt"] (brokenWorld, ())).2 =
      ⟨[], some (.execution "/a.tt" e (some "/a.debug_error.rs")), false⟩ := by
    simp only [Interpreter.runBatch, eq_of_stateless hprocess]
    rfl
  dsimp only [List.cons_append, List.nil_append] at hstop ⊢
  generalize Lua.language.interpreter.runBatch .sound {} .stream ["/a.tt"] (brokenWorld, ()) = first
    at hdriven hstop hfirst ⊢
  obtain ⟨y, r⟩ := first
  cases hfirst
  obtain ⟨part, rest, htext, hreported, hall⟩ := hdriven.reported _ rfl
  obtain ⟨v, outputs, extra, hstreamed, hwritten, hextra⟩ := hdriven.stream rfl
  refine ⟨rfl, ⟨_, rfl, rfl, ?_⟩, ?_, fun ys => hstop ys _ rfl⟩
  · rw [hall rfl, ByteArray.append_empty] at htext
    rw [← htext]
    exact hreported.trans ByteArray.empty_append
  · cases hstreamed
    have hnone : extra = ByteArray.empty := hextra fun _ _ hfailed => by cases hfailed
    rw [hnone, ByteArray.append_empty] at hwritten
    exact hwritten

end Stencil
