import Stencil.Proofs.Batch.Run
import Stencil.Proofs.Batch.Skip
import Stencil.Proofs.Files.Discovery
import Stencil.Proofs.Lua.Fidelity

/-!
# Artifacts at the end of a batch

The files that discovery finds have artifacts at places of their own, so a batch over them leaves
every artifact that it reports as it was made. Only the saved source of a failing program can come
to stand where an artifact stands: its name is made from another file's by a longer extension.

* `Address.renamed_inj`: files with one extension have artifacts at places of their own;
* `FileSystem.Plain.found_around`: the addresses of the files around one that was discovered;
* `FileSystem.Written`: files written at some places only;
* `Passes.written`, `Halts.written`: where a batch writes, `TransformError.leftover`: what its
  failure may leave, and `Halts.spared`: where that is not;
* `runBatch_keeps_artifacts`: what the artifacts hold at the end;
* `artifact_replaced`: an artifact that a saved source replaces.
-/

namespace Stencil

open Stencil.Path (Proper)

/-! ## Files with their addresses -/

/-- A list that goes with two lists one after the other falls apart into two. -/
theorem forall₂_append_left {α β : Type} {R : α → β → Prop} {xs ys : List α} {zs : List β}
    (h : List.Forall₂ R (xs ++ ys) zs) :
    ∃ first second, List.Forall₂ R xs first ∧ List.Forall₂ R ys second ∧ zs = first ++ second := by
  induction xs generalizing zs with
  | nil => exact ⟨[], zs, .nil, h, rfl⟩
  | cons x xs ih =>
    obtain ⟨z, zs, hx, hxs, rfl⟩ := List.forall₂_cons_left_iff.mp h
    obtain ⟨first, second, hfirst, hsecond, rfl⟩ := ih hxs
    exact ⟨z :: first, second, .cons hx hfirst, hsecond, rfl⟩

theorem exists_of_forall₂_mem {α β : Type} {R : α → β → Prop} {xs : List α} {ys : List β} {y : β}
    (h : List.Forall₂ R xs ys) (hy : y ∈ ys) : ∃ x, R x y := by
  induction h with
  | nil => cases hy
  | @cons x _ _ _ hx _ ih =>
    rcases List.mem_cons.mp hy with rfl | hy
    · exact ⟨x, hx⟩
    · exact ih hy

/-! ## The places of artifacts -/

/-- An address with an extension ends in a name that has it. -/
theorem Address.eq_concat_of_extension {a : Address} {old : String} (h : a.extension = some old) :
    ∃ d name, a = d ++ [String.ofList name] ∧ (Path.splitName name).2 = some old.toList := by
  rcases List.eq_nil_or_concat a with rfl | ⟨d, name, rfl⟩
  · cases h
  · rw [List.concat_eq_append, Address.extension, List.getLast?_concat] at h
    obtain ⟨cs, hcs, rfl⟩ := Option.map_eq_some_iff.mp h
    refine ⟨d, name.toList, by rw [String.ofList_toList, List.concat_eq_append], ?_⟩
    rw [hcs, String.toList_ofList]

/-- Two files with one extension have one artifact only if they are one. -/
theorem Address.renamed_inj {a b : Address} {ext old : String} (ha : a.extension = some old)
    (hb : b.extension = some old) (hproper : ∀ n ∈ a.renamed ext, Proper n.toList)
    (heq : a.renamed ext = b.renamed ext) : a = b := by
  obtain ⟨d, name, rfl, hname⟩ := eq_concat_of_extension ha
  obtain ⟨d', name', rfl, hname'⟩ := eq_concat_of_extension hb
  rw [Address.renamed_concat] at hproper heq
  rw [Address.renamed_concat] at heq
  obtain ⟨rfl, hsame⟩ := List.append_inj' heq rfl
  have hdots := (hproper _ (List.mem_append_right d List.mem_cons_self)).ne_dots
  rw [String.toList_ofList] at hdots
  have hrenamed := String.ofList_injective (List.cons.inj hsame).1
  rw [Path.renamed_injective hname hname' hdots hrenamed]

/-- The places of the artifacts of some files. -/
def IsArtifact (ext : String) (files : List Address) (b : Address) : Prop :=
  (∀ n ∈ b, Proper n.toList) ∧ ∃ a ∈ files, b = a.renamed ext

namespace FileSystem

variable {fs fs' fs'' : FileSystem} {places : Address → Prop} {p ext : String} {a b : Address}

/-- The names on the way to where a path can be written are names that entries can have. -/
theorem Plain.proper_leads (h : fs.Plain) (hp : fs.Leads p b) : ∀ n ∈ b, Proper n.toList := by
  cases hp with
  | file hloc => exact h.proper_address hloc
  | free hloc => exact h.proper_address hloc

theorem Wrote.found {content : ByteArray} (hw : fs.Wrote b content fs') (h : fs.Found ext p a) :
    fs'.Found ext p a where
  locate := locate_grows hw.grows hw.cwd h.locate
  file := hw.grows.shapeAt h.file
  extension := h.extension

/-- No file has its artifact where the artifact of another one is. -/
theorem Found.not_isArtifact {files : List String} {addresses : List Address}
    (ha : fs.Found ext p a) (target : String)
    (hfound : List.Forall₂ (fs.Found ext) files addresses) (hother : a ∉ addresses) :
    ¬IsArtifact target addresses (a.renamed target) := by
  rintro ⟨hproper, b, hb, heq⟩
  obtain ⟨q, hq⟩ := exists_of_forall₂_mem hfound hb
  exact hother (Address.renamed_inj ha.extension hq.extension hproper heq ▸ hb)

/-- The files around one of those that discovery finds are found at other addresses: the files of
the reports before it, those of the reports after it, and those that are left. -/
theorem Plain.found_around (h : fs.Plain) (ht : fs.root.Tidy) {root : String}
    {before after : List FileReport} {f : FileReport} {left : List String}
    (hfiles : discover fs root ext = (before ++ f :: after).map FileReport.path ++ left) :
    ∃ first a second last, List.Forall₂ (fs.Found ext) (before.map FileReport.path) first ∧
      fs.Found ext f.path a ∧ List.Forall₂ (fs.Found ext) (after.map FileReport.path) second ∧
      List.Forall₂ (fs.Found ext) left last ∧ (a :: (first ++ (second ++ last))).Nodup := by
  obtain ⟨addresses, hnodup, hfound⟩ := h.discover_found ht root ext
  rw [hfiles, List.map_append, List.map_cons, List.append_assoc, List.cons_append] at hfound
  obtain ⟨first, others, hbefore, hothers, rfl⟩ := forall₂_append_left hfound
  obtain ⟨a, others, ha, hremaining, rfl⟩ := List.forall₂_cons_left_iff.mp hothers
  obtain ⟨second, last, hafter, hlast, rfl⟩ := forall₂_append_left hremaining
  exact ⟨first, a, second, last, hbefore, ha, hafter, hlast, List.nodup_middle.mp hnodup⟩

/-! ## Writing at some places only -/

/-- The second file system is the first one after files were written, all of them at some places. -/
inductive Written (places : Address → Prop) : FileSystem → FileSystem → Prop
  | refl {fs : FileSystem} : Written places fs fs
  | step {fs fs' fs'' : FileSystem} {a : Address} {content : ByteArray} :
    places a → fs.Wrote a content fs' → Written places fs' fs'' → Written places fs fs''

namespace Written

theorem mono {places' : Address → Prop} (h : Written places fs fs')
    (hmore : ∀ a, places a → places' a) : Written places' fs fs' := by
  induction h with
  | refl => exact .refl
  | step ha hw _ ih => exact .step (hmore _ ha) hw ih

theorem trans (h : Written places fs fs') (h' : Written places fs' fs'') :
    Written places fs fs'' := by
  induction h with
  | refl => exact h'
  | step ha hw _ ih => exact .step ha hw (ih h')

theorem plain (h : Written places fs fs') (hfs : fs.Plain) : fs'.Plain := by
  induction h with
  | refl => exact hfs
  | step _ hw _ ih => exact ih (hw.plain hfs)

theorem leads (h : Written places fs fs') (hp : fs.Leads p a) : fs'.Leads p a := by
  induction h with
  | refl => exact hp
  | step _ hw _ ih => exact ih (hw.leads hp)

theorem found (h : Written places fs fs') (hp : fs.Found ext p a) : fs'.Found ext p a := by
  induction h with
  | refl => exact hp
  | step _ hw _ ih => exact ih (hw.found hp)

theorem shapeAt (h : Written places fs fs') {shape : Shape} (ha : fs.root.shapeAt a = some shape) :
    fs'.root.shapeAt a = some shape := by
  induction h with
  | refl => exact ha
  | step _ hw _ ih => exact ih (hw.grows.shapeAt ha)

/-- Elsewhere nothing changes. -/
theorem sightAt (h : Written places fs fs') (hb : ¬places b) :
    fs'.root.sightAt b = fs.root.sightAt b := by
  induction h with
  | refl => rfl
  | @step fs fs' fs'' a content ha hw _ ih =>
    rw [ih, hw.sightAt_other]
    rintro rfl
    exact hb ha

end Written

end FileSystem

/-! ## Where a batch writes -/

section

variable {σ : Type} {I : Interpreter σ} {d : Disk} {options : Options} {mode : Mode}
  {x y v : World × σ} {ext p : String} {a : Address} {done : List FileReport}

/-- What a program without effects on the files leaves of the outlets. -/
theorem Interpreter.Inert.outlets_of_work (hI : I.Inert) {template : Template} {r : Rendering}
    (hwork : I.work template (starting p x) = (v, r)) : v.1.outlets = x.1.outlets := by
  have hsame := hI.work_outlets template (starting p x)
  rw [hwork] at hsame
  exact hsame

/-- A file is skipped, or its output is written to its artifact. -/
theorem Interpreter.Inert.processFile_found {outcome : Outcome} (hI : I.Inert)
    (hplain : x.1.files.Plain) (hfound : x.1.files.Found ext p a)
    (hext : '/' ∉ options.extension.toList)
    (hfile : I.processFile d options .artifact p x = (y, .completed outcome)) :
    outcome = .skipped ∧ y.1.files = x.1.files ∨
      ∃ artifact template bytes, outcome = .generated (some artifact) ∧
        Host.artifactPath p options.extension = some artifact ∧
        loadTemplate x.1.files p = .ok template ∧
        (I.render d options template (starting p x)).2 = .completed bytes ∧
        x.1.files.Leads artifact (a.renamed options.extension) ∧
        x.1.files.Wrote (a.renamed options.extension) bytes y.1.files := by
  have hhandled := I.processFile_handled d options .artifact p x
  rw [hfile] at hhandled
  cases hhandled with
  | skipped _ _ _ _ houtlets => exact .inl ⟨rfl, congrArg Outlets.files houtlets⟩
  | @generated v template bytes target hload hwork htarget hdeliver =>
    obtain ⟨artifact, hartifact, rfl⟩ := Option.map_eq_some_iff.mp htarget
    rw [hI.outlets_of_work hwork] at hdeliver
    have htried := (x.1.outlets.deliver_tried d artifact bytes).2
    rw [hdeliver] at htried
    obtain ⟨b, hleads, hput⟩ := htried.of_ok
    cases hplain.leads_withExtension hfound.locate hfound.file hext hartifact hleads
    exact .inr ⟨artifact, template, bytes, rfl, hartifact, hload,
      Interpreter.render_completed_iff.mpr (by rw [hwork]), hleads, hput.wrote⟩

/-- Files that pass write to their artifacts. -/
theorem Passes.written (h : Passes I d options .artifact x done y) (hI : I.Inert)
    (hplain : x.1.files.Plain) (hext : '/' ∉ options.extension.toList) {addresses : List Address}
    (hfound : List.Forall₂ (x.1.files.Found ext) (done.map FileReport.path) addresses) :
    FileSystem.Written (IsArtifact options.extension addresses) x.1.files y.1.files := by
  generalize hmode : Mode.artifact = mode at h
  induction h generalizing addresses with
  | nil => exact .refl
  | @cons x u y f rest hfile _ ih =>
    subst hmode
    obtain ⟨a, others, hf, hrest, rfl⟩ := List.forall₂_cons_left_iff.mp hfound
    have hmore : ∀ b, IsArtifact options.extension others b →
        IsArtifact options.extension (a :: others) b :=
      fun b ⟨hb, c, hc, heq⟩ => ⟨hb, c, List.mem_cons_of_mem _ hc, heq⟩
    rcases hI.processFile_found hplain hf hext hfile with
      ⟨-, hsame⟩ | ⟨artifact, -, bytes, -, -, -, -, hleads, hwrote⟩
    · rw [hsame] at ih
      exact (ih hplain hrest).mono hmore
    · have hproper := hplain.proper_leads hleads
      refine .step ⟨hproper, a, List.mem_cons_self, rfl⟩ hwrote ?_
      exact (ih (hwrote.plain hplain) (hrest.imp fun _ _ h => hwrote.found h)).mono hmore

/-- The path that a file may have been written to as it failed: that of its artifact, for an output
that fails, and that of the saved source, for a program. -/
def TransformError.leftover (options : Options) (mode : Mode) : TransformError → Option String
  | .output path _ => (targetOf options mode path).bind Target.artifact?
  | .execution template _ _ => Host.debugPath template options.debugSuffix options.extension
  | .read .. | .markup .. => none

/-- A file that fails is written nowhere but where its failure leads to. -/
theorem Interpreter.Inert.processFile_failed {e : TransformError} (hI : I.Inert)
    (hfile : I.processFile d options mode p x = (y, .failed e)) :
    FileSystem.Written (fun b => ∃ q, e.leftover options mode = some q ∧ x.1.files.Leads q b)
      x.1.files y.1.files := by
  have of_tried {q : String} {content : ByteArray} {result : Except IoError Unit}
      {files : FileSystem} (hq : e.leftover options mode = some q)
      (htried : x.1.files.Tried q content files result) :
      FileSystem.Written (fun b => ∃ q, e.leftover options mode = some q ∧ x.1.files.Leads q b)
        x.1.files files := by
    rcases htried.cases_put with ⟨rfl, -⟩ | ⟨b, part, hleads, hput⟩
    · exact .refl
    · exact .step ⟨q, hq, hleads⟩ hput.wrote .refl
  have hhandled := I.processFile_handled d options mode p x
  rw [hfile] at hhandled
  have hsame {o : Outlets} (houtlets : y.1.outlets = o) : y.1.files = o.files :=
    congrArg Outlets.files houtlets
  cases hhandled with
  | unreadable io houtlets => rw [hsame houtlets]; exact .refl
  | unterminated _ _ houtlets => rw [hsame houtlets]; exact .refl
  | @broken v template source saved e files _ hwork hpath hsave houtlets =>
    have htried := d.save_tried v.1.files saved source.toUTF8
    rw [← saveSource, hsave, World.files, hI.outlets_of_work hwork] at htried
    rw [hsame houtlets]
    exact of_tried hpath htried
  | @unsaved v template source saved e io files _ hwork hpath hsave houtlets =>
    have htried := d.save_tried v.1.files saved source.toUTF8
    rw [← saveSource, hsave, World.files, hI.outlets_of_work hwork] at htried
    rw [hsame houtlets]
    exact of_tried hpath htried
  | @undelivered v template bytes target io _ hwork htarget hdeliver =>
    rw [hI.outlets_of_work hwork] at hdeliver
    cases target with
    | shared =>
      have hfiles : y.1.files = x.1.files := (Outlets.deliver_shared_error hdeliver).1
      rw [hfiles]
      exact .refl
    | artifact q =>
      have htried := (x.1.outlets.deliver_tried d q bytes).2
      rw [hdeliver] at htried
      exact of_tried (by rw [TransformError.leftover, htarget]; rfl) htried

/-- At its end, a batch writes where its failure leads to. -/
theorem Halts.written {rest : List String} {failure : Option TransformError}
    (h : Halts I d options mode v rest y failure) (hI : I.Inert) :
    FileSystem.Written (fun b => ∃ e q, failure = some e ∧ e.leftover options mode = some q ∧
      v.1.files.Leads q b) v.1.files y.1.files := by
  cases h with
  | done => exact .refl
  | @failed path rest u e hfile =>
    have hdiagnosed : (u.1.diagnose e).files = u.1.files :=
      congrArg Outlets.files (World.outlets_diagnose u.1 e)
    rw [hdiagnosed]
    exact (hI.processFile_failed hfile).mono fun b ⟨q, hq, hleads⟩ => ⟨e, q, rfl, hq, hleads⟩

/-- What a failure may have left is the artifact of the first file that was left, or the source
beside its template. -/
theorem Halts.leftover {rest : List String} {failure : Option TransformError} {e : TransformError}
    {q : String} (h : Halts I d options mode v rest y failure) (he : failure = some e)
    (hq : e.leftover options mode = some q) :
    ∃ path others, rest = path :: others ∧
      (Host.artifactPath path options.extension = some q ∨
        ∃ template source saved, e = .execution template.path source saved ∧
          loadTemplate v.1.files path = .ok template ∧
          Host.debugPath template.path options.debugSuffix options.extension = some q) := by
  cases h with
  | done => cases he
  | @failed path others u _ hfile =>
    cases he
    refine ⟨path, others, rfl, ?_⟩
    have hhandled := I.processFile_handled d options mode path v
    rw [hfile] at hhandled
    cases hhandled with
    | unreadable _ _ => cases hq
    | unterminated _ _ _ => cases hq
    | broken hload _ _ _ _ => exact .inr ⟨_, _, _, rfl, hload, hq⟩
    | unsaved hload _ _ _ _ => exact .inr ⟨_, _, _, rfl, hload, hq⟩
    | undelivered _ _ _ _ =>
      rw [TransformError.leftover] at hq
      cases mode with
      | stream => cases hq
      | artifact =>
        obtain ⟨target, htarget, hq⟩ := Option.bind_eq_some_iff.mp hq
        obtain ⟨artifact, hartifact, rfl⟩ := Option.map_eq_some_iff.mp htarget
        cases hq
        exact .inl hartifact

/-- What a failure may have left is not where the artifact of another file is, unless it is the
source of a failed program. -/
theorem Halts.spared {left : List String} {last : List Address} {failure : Option TransformError}
    {b : Address} (h : Halts I d options .artifact v left y failure) (hplain : v.1.files.Plain)
    (hext : '/' ∉ options.extension.toList)
    (hfound : List.Forall₂ (v.1.files.Found ext) left last)
    (hother : ¬IsArtifact options.extension last b)
    (hsource : ∀ failing e saved p, failure = some (.execution failing e saved) →
      Host.debugPath failing options.debugSuffix options.extension = some p →
      ¬v.1.files.Leads p b) :
    ¬∃ e q, failure = some e ∧ e.leftover options .artifact = some q ∧ v.1.files.Leads q b := by
  rintro ⟨e, q, hfailure, hq, hleads⟩
  obtain ⟨path, others, rfl, hpath | ⟨template, source, saved, rfl, -, hdebug⟩⟩ :=
    h.leftover hfailure hq
  · obtain ⟨c, last, hc, -, rfl⟩ := List.forall₂_cons_left_iff.mp hfound
    exact hother ⟨hplain.proper_leads hleads, c, List.mem_cons_self,
      hplain.leads_withExtension hc.locate hc.file hext hpath hleads⟩
  · exact hsource _ _ _ _ hfailure hdebug hleads

/-- Files that pass, up to one of them and from there on. -/
theorem Passes.split {before after : List FileReport}
    (h : Passes I d options mode x (before ++ after) y) :
    ∃ v, Passes I d options mode x before v ∧ Passes I d options mode v after y := by
  induction before generalizing x with
  | nil => exact ⟨x, .nil, h⟩
  | cons f before ih =>
    cases h with
    | cons hfile hrest =>
      obtain ⟨v, hbefore, hafter⟩ := ih hrest
      exact ⟨v, .cons hfile hbefore, hafter⟩

/-! ## What artifacts hold at the end -/

/-- A batch over discovered files keeps every artifact that it reports as generated: at the end it
holds the output that the file had when it was rendered, unless the batch fails with a program whose
source goes where the artifact is. So it is for snippets that leave the files alone, whatever goes
wrong on the disk. -/
theorem runBatch_keeps_artifacts (I : Interpreter σ) (hI : I.Inert) (d : Disk)
    (hplain : x.1.files.Plain) (htidy : x.1.files.root.Tidy)
    (hext : '/' ∉ options.extension.toList) (hsuffix : '/' ∉ options.debugSuffix.toList)
    (root ext : String) :
    let r := I.runBatch d options .artifact (discover x.1.files root ext) x
    ∀ before after path made, r.2.completed = before ++ ⟨path, .generated made⟩ :: after →
      ∃ u artifact template bytes, made = some artifact ∧
        Host.artifactPath path options.extension = some artifact ∧
        Passes I d options .artifact x before u ∧
        loadTemplate u.1.files path = .ok template ∧
        (I.render d options template (starting path u)).2 = .completed bytes ∧
        ((∀ failing e saved p, r.2.failure = some (.execution failing e saved) →
          Host.debugPath failing options.debugSuffix options.extension = some p →
          r.1.1.files.locate p ≠ r.1.1.files.locate artifact) →
          r.1.1.files.readBytes artifact = .ok bytes) := by
  intro r before after path made hcompleted
  obtain ⟨-, v, left, hfiles, hpasses, hhalts⟩ :=
    runBatch_passes I d .artifact hext hsuffix (discover x.1.files root ext) x
  rw [hcompleted] at hfiles hpasses
  obtain ⟨first, a, second, last, hbefore, ha, hafter, hlast, hnodup⟩ :=
    hplain.found_around htidy hfiles
  have hother : a ∉ second ++ last := fun hmem =>
    (List.nodup_cons.mp hnodup).1 (List.mem_append_right first hmem)
  obtain ⟨u, hfirst, hpasses⟩ := hpasses.split
  have hwritten := hfirst.written hI hplain hext hbefore
  have hu := hwritten.plain hplain
  cases hpasses with
  | @cons _ z _ _ _ hfile hrest =>
    rcases hI.processFile_found hu (hwritten.found ha) hext hfile with
      ⟨hskipped, -⟩ | ⟨artifact, template, bytes, hmade, hartifact, hload, hrender, hleads, hwrote⟩
    · cases hskipped
    · refine ⟨u, artifact, template, bytes, Outcome.generated.inj hmade, hartifact, hfirst, hload,
        hrender, fun happart => ?_⟩
      have hz := hwrote.plain hu
      have hafterz : List.Forall₂ (z.1.files.Found ext) (after.map FileReport.path) second :=
        hafter.imp fun _ _ hq => hwrote.found (hwritten.found hq)
      have hlater := hrest.written hI hz hext hafterz
      -- No other file has its artifact there, and nothing is written there as the batch fails.
      have hunwritten := ha.not_isArtifact options.extension hafter fun hmem =>
        hother (List.mem_append_left last hmem)
      have hunleft := ha.not_isArtifact options.extension hlast fun hmem =>
        hother (List.mem_append_right second hmem)
      have hend := hhalts.written hI
      have hleadsv := hlater.leads (hwrote.leads hleads)
      have hfilev := hlater.shapeAt hwrote.shapeAt_self
      have hspared := hhalts.spared (hlater.plain hz) hext
        (hlast.imp fun _ _ hq => hlater.found (hwrote.found (hwritten.found hq))) hunleft
        fun failing e saved p hfailure hdebug hleads' => by
          refine happart failing e saved p hfailure hdebug ?_
          have hfile' := hend.shapeAt hfilev
          rw [(hend.leads hleads').locate_file hfile', (hend.leads hleadsv).locate_file hfile']
      have hsight := (hlater.sightAt hunwritten).trans hwrote.sightAt_self
      exact (hend.leads hleadsv).readBytes_file ((hend.sightAt hspared).trans hsight)

end

theorem loneWorld_plain : loneWorld.files.Plain where
  root := rfl
  linkless := Node.linkless_files (by decide)

theorem loneWorld_tidy : loneWorld.files.root.Tidy :=
  Node.tidy_files (by decide) (by decide) (by decide)

theorem loneWorld_discover : discover loneWorld.files "/" "tt" = ["/a.tt"] := by
  have hfiles : loneWorld.files.root.files = [["a.tt"]] := by
    rw [loneWorld, World.files, Node.files, List.mergeSort_of_pairwise (by decide)]
    rfl
  rw [discover_listed (d := []) rfl rfl rfl hfiles]
  decide

/-- The artifact of a template that stands alone holds its output. -/
theorem runBatch_keeps_artifacts_lone :
    let r := Lua.language.interpreter.runBatch .sound {} .artifact
      (discover loneWorld.files "/" "tt") (loneWorld, ())
    r.2.completed = [⟨"/a.tt", .generated (some "/a.rs")⟩] ∧
      r.1.1.files.readBytes "/a.rs" = .ok "x\n".toUTF8 := by
  intro r
  have hrendering : Lua.language.rendering loneWorld.files ⟨"/a.tt", "x\n"⟩ =
    .output "x\n".toUTF8 := Lua.rendering_markerFree .isolated _ (by decide) (by decide)
  have htemplate : loneWorld.files.Leads "/a.tt" ["a.tt"] := .file (by decide) (by decide)
  have htarget : loneWorld.files.Leads "/a.rs" ["a.rs"] :=
    @FileSystem.Leads.free _ _ [] "a.rs" (by decide)
  have hmissing : isFresh {} loneWorld.files "/a.tt" (.artifact "/a.rs") = .ok false := rfl
  obtain ⟨v, hmade, -⟩ :=
    processFile_output htemplate rfl (by decide) htarget hmissing hrendering
  have hrun : stateless r = (v, ⟨[⟨"/a.tt", .generated (some "/a.rs")⟩], none, false⟩) := by
    simp only [r, loneWorld_discover]
    exact runBatch_singleton hmade
  have hreport : r.2 = ⟨[⟨"/a.tt", .generated (some "/a.rs")⟩], none, false⟩ :=
    congrArg Prod.snd hrun
  have hcompleted : r.2.completed = [] ++ ⟨"/a.tt", .generated (some "/a.rs")⟩ :: [] :=
    congrArg BatchReport.completed hreport
  obtain ⟨u, artifact, template, bytes, hartifact, -, hpasses, hload, hrender, hholds⟩ :=
    runBatch_keeps_artifacts (x := (loneWorld, ())) Lua.language.interpreter
      Lua.language.interpreter_inert .sound loneWorld_plain loneWorld_tidy (by decide) (by decide)
      "/" "tt" [] [] "/a.tt" _ hcompleted
  cases hartifact
  cases hpasses
  cases hload.symm.trans (loadTemplate_of_text htemplate rfl)
  have hrender := Language.render_completed_iff.mp hrender
  cases hrender.symm.trans hrendering
  refine ⟨hcompleted, hholds fun _ _ _ _ he => ?_⟩
  rw [hreport] at he
  cases he

/-! ### A saved source in an artifact's place -/

/-- A world with two templates. The second does not compile, and its source is saved where the
artifact of the first one stands. -/
def collidingWorld : World where
  outlets := ⟨⟨.directory
    [("a.debug_error.tt", .file "x".toUTF8 3), ("a.tt", .file "<#)#>".toUTF8 3)] 0, "/", 5⟩, {}⟩
  diagnostics := {}
  log := []

theorem collidingWorld_plain : collidingWorld.files.Plain where
  root := rfl
  linkless := Node.linkless_files (by decide)

theorem collidingWorld_tidy : collidingWorld.files.root.Tidy :=
  Node.tidy_files (by decide) (by decide) (by decide)

theorem collidingWorld_discover :
    discover collidingWorld.files "/" "tt" = ["/a.debug_error.tt", "/a.tt"] := by
  have hfiles : collidingWorld.files.root.files = [["a.debug_error.tt"], ["a.tt"]] := by
    rw [collidingWorld, World.files, Node.files, List.mergeSort_of_pairwise (by decide)]
    rfl
  rw [discover_listed (d := []) rfl rfl rfl hfiles]
  decide

/-- A file that is reported as generated can be without its output at the end of the batch. -/
theorem artifact_replaced :
    let w := collidingWorld
    let r := runBatch Lua.language {} .artifact (discover w.files "/" "tt") w
    w.files.Plain ∧ w.files.root.Tidy ∧
      r.2.completed = [⟨"/a.debug_error.tt", .generated (some "/a.debug_error.rs")⟩] ∧
      (∃ template, loadTemplate w.files "/a.debug_error.tt" = .ok template ∧
        (render Lua.language {} template w).2 = .completed "x".toUTF8) ∧
      r.1.files.readBytes "/a.debug_error.rs" =
        .ok "local Host <const> = t4.host(\"/a.tt\")\n)".toUTF8 := by
  intro w r
  have hfirst : Lua.language.rendering w.files ⟨"/a.debug_error.tt", "x"⟩ = .output "x".toUTF8 :=
    Lua.rendering_markerFree .isolated w.files (by decide) (by decide)
  have htemplate : w.files.Leads "/a.debug_error.tt" ["a.debug_error.tt"] :=
    .file (by decide) (by decide)
  have htarget : w.files.Leads "/a.debug_error.rs" ["a.debug_error.rs"] :=
    @FileSystem.Leads.free _ _ [] "a.debug_error.rs" (by decide)
  have hmissing : isFresh {} w.files "/a.debug_error.tt" (.artifact "/a.debug_error.rs") =
    .ok false := rfl
  obtain ⟨v, hmade, hwrote⟩ := processFile_output htemplate rfl (by decide) htarget hmissing hfirst
  -- Nothing but the first artifact is new to the second file.
  have htemplate' : w.files.Leads "/a.tt" ["a.tt"] := .file (by decide) (by decide)
  have htarget' : w.files.Leads "/a.rs" ["a.rs"] :=
    @FileSystem.Leads.free _ _ [] "a.rs" (by decide)
  have htext : v.files.root.sightAt ["a.tt"] = some (.file "<#)#>".toUTF8 3) :=
    (hwrote.sightAt_other (by decide)).trans rfl
  have hfree : v.files.root.sightAt ["a.rs"] = none := (hwrote.sightAt_other (by decide)).trans rfl
  have hfresh : isFresh {} v.files "/a.tt" (.artifact "/a.rs") = .ok false := by
    rw [isFresh, isUpToDate, (hwrote.leads htarget').modifiedAt_free hfree]
    rfl
  obtain ⟨e, hbroken⟩ := Lua.rendering_unopened v.files
  have hsaved : Host.debugPath "/a.tt" "debug_error" "rs" = some "/a.debug_error.rs" := by decide
  have hchosen : targetOf {} .artifact "/a.tt" = some (.artifact "/a.rs") := by decide
  obtain ⟨u, hfailed, hwrote'⟩ := processFile_broken (hwrote.leads htemplate') htext hchosen
    hfresh hbroken hsaved (hwrote.leads htarget)
  have hrun : r = (u.diagnose (.execution "/a.tt" e (some "/a.debug_error.rs")),
      ⟨[⟨"/a.debug_error.tt", .generated (some "/a.debug_error.rs")⟩],
        some (.execution "/a.tt" e (some "/a.debug_error.rs")), false⟩) := by
    simp only [r, w, collidingWorld_discover]
    rw [runBatch_cons, hmade]
    simp only [runBatch_cons, hfailed]
    rfl
  refine ⟨collidingWorld_plain, collidingWorld_tidy, by rw [hrun], ⟨⟨"/a.debug_error.tt", "x"⟩,
    loadTemplate_of_text htemplate rfl, render_completed_iff.mpr hfirst⟩, ?_⟩
  have hfiles : r.1.files = u.files := by
    rw [hrun]
    exact congrArg Outlets.files (World.outlets_diagnose _ _)
  rw [hfiles]
  exact (hwrote'.leads (hwrote.leads htarget)).readBytes_file hwrote'.sightAt_self

end Stencil
