import Stencil.Proofs.Batch.Artifacts

/-!
# Templates at the end of a batch

A batch writes artifacts and, at its end, the source of a failed program. Both paths are made from
that of a template, and nothing keeps them from leading to a template: a template is lost when an
output is written where it stands. It never is for a target extension that does not end in the
extension of the templates. All this is about snippets that leave the files alone; what goes wrong on
the disk does not matter.

* `BatchReport.written`, `runBatch_written`: a batch writes where its report says, links or not;
* `Apart`, `Apart.renamed`: where no output of a template is a template;
* `runBatch_spares_templates`: which templates a batch leaves as they were;
* `Interpreter.Inert.processFile_replaces`, `template_lost`: a template that its own output replaces.
-/

namespace Stencil

open FileSystem (Written)
open Stencil.Path (Proper splitName)

variable {σ : Type} {I : Interpreter σ} {d : Disk} {options : Options} {mode : Mode}
  {x y v : World × σ} {ext p : String} {done : List FileReport}

/-! ## What is written -/

/-- The artifact of a file that was made. -/
def FileReport.artifact? (f : FileReport) : Option String :=
  match f.outcome with
  | .skipped => none
  | .generated artifact => artifact

/-- The paths that a batch may have written to: the artifacts that it reports, and what its failure
may have left, which is an artifact that failed or the source of a program. -/
def BatchReport.written (options : Options) (mode : Mode) (r : BatchReport) : List String :=
  r.completed.filterMap FileReport.artifact? ++
    (r.failure.bind fun e => e.leftover options mode).toList

/-- An address that one of some paths leads to. -/
def FileSystem.Reached (fs : FileSystem) (paths : List String) (a : Address) : Prop :=
  ∃ q ∈ paths, fs.Leads q a

theorem FileSystem.Reached.mono {fs : FileSystem} {few many : List String} {a : Address}
    (h : fs.Reached few a) (hmore : few ⊆ many) : fs.Reached many a :=
  h.imp fun _ hq => ⟨hmore hq.1, hq.2⟩

theorem FileSystem.Written.reached {fs fs' : FileSystem} {places : Address → Prop}
    (h : Written places fs fs') {paths : List String} {a : Address} (ha : fs.Reached paths a) :
    fs'.Reached paths a :=
  ha.imp fun _ hq => ⟨hq.1, h.leads hq.2⟩

/-- A file that passes is left alone, or its output is put where its artifact leads to. -/
theorem Interpreter.Inert.processFile_put {outcome : Outcome} (hI : I.Inert)
    (hfile : I.processFile d options mode p x = (y, .completed outcome)) :
    FileReport.artifact? ⟨p, outcome⟩ = none ∧ y.1.files = x.1.files ∨
      ∃ q a content, FileReport.artifact? ⟨p, outcome⟩ = some q ∧
        Host.artifactPath p options.extension = some q ∧
        x.1.files.Leads q a ∧ x.1.files.Put a content y.1.files := by
  have hhandled := I.processFile_handled d options mode p x
  rw [hfile] at hhandled
  cases hhandled with
  | skipped _ _ _ _ houtlets => exact .inl ⟨rfl, congrArg Outlets.files houtlets⟩
  | @generated v template bytes target _ hwork htarget hdeliver =>
    rw [hI.outlets_of_work hwork] at hdeliver
    cases mode with
    | stream =>
      cases htarget
      exact .inl ⟨rfl, (Outlets.deliver_shared_ok hdeliver).1⟩
    | artifact =>
      obtain ⟨q, hpath, rfl⟩ := Option.map_eq_some_iff.mp htarget
      have htried := (x.1.outlets.deliver_tried d q bytes).2
      rw [hdeliver] at htried
      obtain ⟨a, hleads, hput⟩ := htried.of_ok
      exact .inr ⟨q, a, bytes, rfl, hpath, hleads, hput⟩

/-- Files that pass are written nowhere but where their artifacts lead to in the end. -/
theorem Passes.artifacts (h : Passes I d options mode x done y) (hI : I.Inert) :
    Written (y.1.files.Reached (done.filterMap FileReport.artifact?)) x.1.files y.1.files := by
  induction h with
  | nil => exact .refl
  | @cons x u y f rest hfile _ ih =>
    have hless : rest.filterMap FileReport.artifact? ⊆ (f :: rest).filterMap FileReport.artifact? :=
      ((List.sublist_cons_self f rest).filterMap _).subset
    have hrest := ih.mono fun _ ha => ha.mono hless
    rcases hI.processFile_put hfile with ⟨-, hsame⟩ | ⟨q, a, content, hmade, -, hleads, hput⟩
    · rwa [hsame] at hrest
    · have hq : q ∈ (f :: rest).filterMap FileReport.artifact? :=
        List.mem_filterMap.mpr ⟨f, List.mem_cons_self, hmade⟩
      exact .step ⟨q, hq, ih.leads (hput.wrote.leads hleads)⟩ hput.wrote hrest

/-- A batch writes nowhere but where the paths of its report lead to in the end. -/
theorem runBatch_written (hI : I.Inert) (d : Disk) (mode : Mode)
    (hext : '/' ∉ options.extension.toList) (hsuffix : '/' ∉ options.debugSuffix.toList)
    (files : List String) (x : World × σ) :
    let r := I.runBatch d options mode files x
    Written (r.1.1.files.Reached (r.2.written options mode)) x.1.files r.1.1.files := by
  intro r
  obtain ⟨-, v, rest, -, hpasses, hhalts⟩ := runBatch_passes I d mode hext hsuffix files x
  have hend := hhalts.written hI
  have hartifacts : r.2.completed.filterMap FileReport.artifact? ⊆ r.2.written options mode :=
    List.subset_append_left _ _
  have hleftover : ∀ e q, r.2.failure = some e → e.leftover options mode = some q →
      q ∈ r.2.written options mode := by
    intro e q he hq
    refine List.mem_append_right _ (Option.mem_toList.mpr ?_)
    rw [he]
    exact hq
  exact ((hpasses.artifacts hI).mono fun _ ha => (hend.reached ha).mono hartifacts).trans
    (hend.mono fun _ ⟨e, q, he, hq, hleads⟩ => ⟨q, hleftover e q he hq, hend.leads hleads⟩)

theorem FileSystem.readBytes_ok {fs : FileSystem} {content : ByteArray}
    (h : fs.readBytes p = .ok content) :
    ∃ a time, fs.locate p = .ok (.found a) ∧ fs.root.sightAt a = some (.file content time) := by
  rw [readBytes] at h
  split at h
  · cases h
  · rename_i a content' time hfind
    cases h
    obtain ⟨hloc, hget⟩ := find_ok hfind
    exact ⟨a, time, hloc, by rw [Node.sightAt, hget]; rfl⟩
  · cases h

/-- A file that was there keeps its content, unless something was written at the place that its path
leads to in the end. -/
theorem FileSystem.Written.readBytes {places : Address → Prop} {fs fs' : FileSystem}
    {content : ByteArray} (h : Written places fs fs') (hp : fs.readBytes p = .ok content)
    (hno : ∀ a, fs'.locate p = .ok (.found a) → fs'.root.shapeAt a = some .file → ¬ places a) :
    fs'.readBytes p = .ok content := by
  obtain ⟨a, time, hloc, hsight⟩ := readBytes_ok hp
  have hfile : fs.root.shapeAt a = some .file := by rw [Node.shapeAt, hsight]; rfl
  have hleads := h.leads (.file hloc hfile)
  have hfile' := h.shapeAt hfile
  have hsame := h.sightAt (hno a (hleads.locate_file hfile') hfile')
  exact hleads.readBytes_file (hsame.trans hsight)

/-! ## Names with another extension -/

/-- Names that end in a target extension never have another extension, whatever stands before: the
target extension is there and does not end in the other one. -/
structure Apart (ext target : String) : Prop where
  ne_empty : target ≠ ""
  not_suffix : ¬ '.' :: ext.toList <:+ '.' :: target.toList

instance (ext target : String) : Decidable (Apart ext target) :=
  decidable_of_iff (target ≠ "" ∧ ¬ '.' :: ext.toList <:+ '.' :: target.toList)
    ⟨fun ⟨a, b⟩ => ⟨a, b⟩, fun ⟨a, b⟩ => ⟨a, b⟩⟩

theorem Apart.extension_ne {target : String} (h : Apart ext target) {stem : List Char}
    (hs : stem ≠ []) : (splitName (stem ++ '.' :: target.toList)).2 ≠ some ext.toList :=
  fun hold => h.not_suffix (Path.suffix_of_splitName hs hold)

/-- A file renamed to an extension that ends in the target one does not have the other one. -/
theorem Apart.renamed {target longer old : String} (h : Apart ext target)
    (hlonger : '.' :: target.toList <:+ '.' :: longer.toList) {a : Address}
    (ha : a.extension = some old) (hproper : ∀ n ∈ a.renamed longer, Proper n.toList) :
    (a.renamed longer).extension ≠ some ext := by
  obtain ⟨d, name, rfl, hname⟩ := Address.eq_concat_of_extension ha
  rw [Address.renamed_concat] at hproper ⊢
  have hdots := (hproper _ (List.mem_append_right d List.mem_cons_self)).ne_dots
  rw [String.toList_ofList] at hdots
  have hstem : (splitName name).1 ≠ ['.'] := fun hstem => hdots (if_pos hstem)
  have hne : (splitName name).1 ≠ [] := by
    refine Path.splitName_stem_ne_nil ?_
    rintro rfl
    cases hname
  have hlong : longer.toList ≠ [] := by
    intro hnil
    rw [hnil] at hlonger
    have hlength := hlonger.length_le
    exact h.ne_empty (String.toList_eq_nil_iff.mp (List.eq_nil_of_length_eq_zero
      (by simpa using hlength)))
  obtain ⟨more, hmore⟩ := hlonger
  have hnew : Path.renamed name longer.toList =
      ((splitName name).1 ++ more) ++ '.' :: target.toList := by
    rw [Path.renamed, if_neg hstem, Path.dotted, if_neg (by simpa using hlong), ← hmore,
      List.append_assoc]
  rw [hnew, Address.extension, List.getLast?_concat]
  simp only [String.toList_ofList]
  intro hext
  obtain ⟨cs, hcs, rfl⟩ := Option.map_eq_some_iff.mp hext
  refine h.extension_ne (List.append_ne_nil_of_left_ne_nil hne more) (hcs.trans ?_)
  rw [String.toList_ofList]

/-! ## Templates -/

/-- At its end, a batch over files that were found writes beside one of them, if anything. -/
theorem Halts.written_beside {rest : List String} {failure : Option TransformError}
    (h : Halts I d options mode v rest y failure) (hI : I.Inert) (hplain : v.1.files.Plain)
    (hext : '/' ∉ options.extension.toList) (hsuffix : '/' ∉ options.debugSuffix.toList)
    {addresses : List Address} (hfound : List.Forall₂ (v.1.files.Found ext) rest addresses) :
    Written (fun b => IsArtifact options.extension addresses b ∨
      IsArtifact (options.debugSuffix ++ "." ++ options.extension) addresses b)
      v.1.files y.1.files := by
  refine (h.written hI).mono fun b ⟨e, q, he, hq, hleads⟩ => ?_
  have hproper := hplain.proper_leads hleads
  obtain ⟨path, others, rfl, hpath⟩ := h.leftover he hq
  obtain ⟨a, _, hf, -, rfl⟩ := List.forall₂_cons_left_iff.mp hfound
  rcases hpath with hpath | ⟨template, source, saved, -, hload, hpath⟩
  · exact .inl ⟨hproper, a, List.mem_cons_self,
      hplain.leads_withExtension hf.locate hf.file hext hpath hleads⟩
  · obtain ⟨a', time, hloc, -, htemplate⟩ := loadTemplate_ok hload
    cases hf.locate.symm.trans hloc
    have hlong : '/' ∉ (options.debugSuffix ++ "." ++ options.extension).toList := fun hmem =>
      (slash_mem_debug hmem).elim hext hsuffix
    rw [Host.debugPath, htemplate] at hpath
    exact .inr ⟨hproper, a, List.mem_cons_self, hplain.leads_withExtension
      (hplain.locate_pathOf hf.locate hf.file) hf.file hlong hpath hleads⟩

/-- Nothing that is made from a name with the extension has it again. -/
theorem Apart.isArtifact {target longer : String} (h : Apart ext target)
    (hlonger : '.' :: target.toList <:+ '.' :: longer.toList) {addresses : List Address}
    (hall : ∀ a ∈ addresses, a.extension = some ext) {b : Address}
    (hb : IsArtifact longer addresses b) : b.extension ≠ some ext := by
  obtain ⟨hproper, a, ha, rfl⟩ := hb
  exact h.renamed hlonger (hall a ha) hproper

/-- Where there are no links, a batch over discovered files writes no file that has their extension,
if names that end in the target extension never have it. -/
theorem runBatch_apart (hI : I.Inert) (d : Disk) (hplain : x.1.files.Plain)
    (htidy : x.1.files.root.Tidy) (hext : '/' ∉ options.extension.toList)
    (hsuffix : '/' ∉ options.debugSuffix.toList) (root : String)
    (hapart : Apart ext options.extension) :
    Written (fun b => b.extension ≠ some ext) x.1.files
      (I.runBatch d options .artifact (discover x.1.files root ext) x).1.1.files := by
  obtain ⟨-, v, rest, hsplit, hpasses, hhalts⟩ :=
    runBatch_passes I d .artifact hext hsuffix (discover x.1.files root ext) x
  obtain ⟨addresses, -, hfound⟩ := hplain.discover_found htidy root ext
  rw [hsplit] at hfound
  obtain ⟨first, second, hfirst, hsecond, rfl⟩ := forall₂_append_left hfound
  have hall : ∀ {files : List String} {addresses : List Address},
      List.Forall₂ (x.1.files.Found ext) files addresses →
        ∀ a ∈ addresses, a.extension = some ext := by
    intro files addresses hfound a ha
    obtain ⟨p, hp⟩ := exists_of_forall₂_mem hfound ha
    exact hp.extension
  have hpassed := hpasses.written hI hplain hext hfirst
  have hhalted := hhalts.written_beside hI (hpassed.plain hplain) hext hsuffix
    (hsecond.imp fun _ _ h => hpassed.found h)
  have hlonger : '.' :: options.extension.toList <:+
      '.' :: (options.debugSuffix ++ "." ++ options.extension).toList :=
    ⟨'.' :: options.debugSuffix.toList, by simp⟩
  exact (hpassed.mono fun b hb => hapart.isArtifact List.suffix_rfl (hall hfirst) hb).trans
    (hhalted.mono fun b hb => hb.elim (hapart.isArtifact List.suffix_rfl (hall hsecond))
      (hapart.isArtifact hlonger (hall hsecond)))

/-- A batch over discovered files leaves a file as it was, unless the path of an artifact, or of what
its failure may have left, leads to the file. Where there are no links it leaves every template as it
was, if names that end in the target extension never have the extension of templates. -/
theorem runBatch_spares_templates (I : Interpreter σ) (hI : I.Inert) (d : Disk) (options : Options)
    (hext : '/' ∉ options.extension.toList) (hsuffix : '/' ∉ options.debugSuffix.toList)
    (root ext : String) (x : World × σ) :
    let files := discover x.1.files root ext
    let r := I.runBatch d options .artifact files x
    (∀ p content, x.1.files.readBytes p = .ok content →
      (∀ q ∈ r.2.written options .artifact, r.1.1.files.locate q ≠ r.1.1.files.locate p) →
      r.1.1.files.readBytes p = .ok content) ∧
    (x.1.files.Plain → x.1.files.root.Tidy → Apart ext options.extension →
      ∀ p ∈ files, ∃ content, x.1.files.readBytes p = .ok content ∧
        r.1.1.files.readBytes p = .ok content) := by
  intro files r
  refine ⟨fun p content hp hno => ?_, fun hplain htidy hapart p hp => ?_⟩
  · have hwritten := runBatch_written hI d .artifact hext hsuffix files x
    refine hwritten.readBytes hp fun a hloc hfile => ?_
    rintro ⟨q, hq, hleads⟩
    exact hno q hq ((hleads.locate_file hfile).trans hloc.symm)
  · have hwritten := runBatch_apart hI d hplain htidy hext hsuffix root hapart
    obtain ⟨addresses, -, hfound⟩ := hplain.discover_found htidy root ext
    obtain ⟨a, hp⟩ : ∃ a, x.1.files.Found ext p a :=
      exists_of_forall₂_mem (R := flip (x.1.files.Found ext)) hfound.flip hp
    obtain ⟨content, time, hsight⟩ := Node.sightAt_of_shapeAt_file hp.file
    have hread := (FileSystem.Leads.file hp.locate hp.file).readBytes_file hsight
    refine ⟨content, hread, hwritten.readBytes hread fun b hloc _ hb => ?_⟩
    cases (hwritten.found hp).locate.symm.trans hloc
    exact hb hp.extension

/-! ## Templates that are lost -/

/-- A file that gets its own extension keeps its name. -/
theorem Address.renamed_self {a : Address} (ha : a.extension = some ext) (hne : ext ≠ "")
    (hproper : ∀ n ∈ a.renamed ext, Proper n.toList) : a.renamed ext = a := by
  obtain ⟨d, name, rfl, hname⟩ := eq_concat_of_extension ha
  rw [Address.renamed_concat] at hproper ⊢
  have hdots := (hproper _ (List.mem_append_right d List.mem_cons_self)).ne_dots
  rw [String.toList_ofList] at hdots
  rcases Path.splitName_cases name with h | ⟨stem, old, -, -, rfl, h⟩
  · rw [h] at hname
    cases hname
  · rw [h] at hname
    cases hname
    have hstem : stem ≠ ['.'] := fun hstem => hdots (if_pos (by rw [h, hstem]))
    have hext : ext.toList.isEmpty ≠ true := by simpa using hne
    rw [Path.renamed, h, if_neg hstem, Path.dotted, if_neg hext]

/-- A template that is transformed to its own extension is replaced by its output. -/
theorem Interpreter.Inert.processFile_replaces {made : Option String} {a : Address} (hI : I.Inert)
    (hplain : x.1.files.Plain) (hfound : x.1.files.Found options.extension p a)
    (hext : '/' ∉ options.extension.toList) (hne : options.extension ≠ "")
    (hfile : I.processFile d options .artifact p x = (y, .completed (.generated made))) :
    ∃ template bytes, loadTemplate x.1.files p = .ok template ∧
      (I.render d options template (starting p x)).2 = .completed bytes ∧
      y.1.files.readBytes p = .ok bytes := by
  rcases hI.processFile_found hplain hfound hext hfile with
    ⟨hskipped, -⟩ | ⟨artifact, template, bytes, -, -, hload, hrender, hleads, hwrote⟩
  · cases hskipped
  · have hself := Address.renamed_self hfound.extension hne (hplain.proper_leads hleads)
    rw [hself] at hwrote
    have hleads : y.1.files.Leads p a := hwrote.leads (.file hfound.locate hfound.file)
    exact ⟨template, bytes, hload, hrender, hleads.readBytes_file hwrote.sightAt_self⟩

/-- A world with a template that has a directive, and so does not come to its own text. -/
def directiveWorld : World where
  outlets := ⟨⟨.directory [("a.tt", .file "<#@ k = 1 #>x".toUTF8 3)] 0, "/", 5⟩, {}⟩
  diagnostics := {}
  log := []

theorem directiveWorld_plain : directiveWorld.files.Plain where
  root := rfl
  linkless := Node.linkless_files (by decide)

theorem directiveWorld_tidy : directiveWorld.files.root.Tidy :=
  Node.tidy_files (by decide) (by decide) (by decide)

theorem directiveWorld_discover : discover directiveWorld.files "/" "tt" = ["/a.tt"] := by
  have hfiles : directiveWorld.files.root.files = [["a.tt"]] := by
    rw [directiveWorld, World.files, Node.files, List.mergeSort_of_pairwise (by decide)]
    rfl
  rw [discover_listed (d := []) rfl rfl rfl hfiles]
  decide

/-- Wherever its artifact goes, the template's output is `x`. -/
theorem directiveWorld_run (options : Options) {artifact : String} {target : Address}
    (hartifact : Host.artifactPath "/a.tt" options.extension = some artifact)
    (htarget : directiveWorld.files.Leads artifact target)
    (hfresh : isFresh options directiveWorld.files "/a.tt" (.artifact artifact) = .ok false) :
    let r := runBatch Lua.language options .artifact (discover directiveWorld.files "/" "tt")
      directiveWorld
    r.2 = ⟨[⟨"/a.tt", .generated (some artifact)⟩], none, false⟩ ∧
      directiveWorld.files.Wrote target "x".toUTF8 r.1.files := by
  intro r
  have hparse : Markup.parse "<#@ k = 1 #>x" =
      .ok (.ofSegments [.directive ⟨"k", "1"⟩, .literal "x"]) := by decide
  obtain ⟨program, hcompile, hrun⟩ := @Lua.runs_plain .isolated directiveWorld.files
    (.ofSegments [.directive ⟨"k", "1"⟩, .literal "x"]) "/a.tt"
    [.directive ⟨"k", "1"⟩, .literal "x"] (by decide) rfl (by decide)
  have hrendering : Lua.language.rendering directiveWorld.files ⟨"/a.tt", "<#@ k = 1 #>x"⟩ =
    .output "x".toUTF8 := Language.rendering_of_runs hparse hcompile hrun
  have htemplate : directiveWorld.files.Leads "/a.tt" ["a.tt"] := .file (by decide) (by decide)
  obtain ⟨v, hmade, hwrote⟩ :=
    processFile_output htemplate rfl hartifact htarget hfresh hrendering
  have hr : r = (v, ⟨[⟨"/a.tt", .generated (some artifact)⟩], none, false⟩) := by
    simp only [r, directiveWorld_discover]
    exact runBatch_singleton hmade
  rw [hr]
  exact ⟨rfl, hwrote⟩

/-- The template stays beside its artifact: the artifact's path leads elsewhere, and its extension
is apart from that of templates. -/
theorem runBatch_spares_templates_directive :
    let r := Lua.language.interpreter.runBatch .sound {} .artifact
      (discover directiveWorld.files "/" "tt") (directiveWorld, ())
    r.2.written {} .artifact = ["/a.rs"] ∧
      r.1.1.files.locate "/a.rs" ≠ r.1.1.files.locate "/a.tt" ∧
      r.1.1.files.readBytes "/a.tt" = .ok "<#@ k = 1 #>x".toUTF8 ∧ Apart "tt" "rs" ∧
      ∃ content, directiveWorld.files.readBytes "/a.tt" = .ok content ∧
        r.1.1.files.readBytes "/a.tt" = .ok content := by
  intro r
  have hspares := runBatch_spares_templates Lua.language.interpreter
    Lua.language.interpreter_inert .sound {} (by decide) (by decide) "/" "tt" (directiveWorld, ())
  have htemplate : directiveWorld.files.Leads "/a.tt" ["a.tt"] := .file (by decide) (by decide)
  have htarget : directiveWorld.files.Leads "/a.rs" ["a.rs"] :=
    @FileSystem.Leads.free _ _ [] "a.rs" (by decide)
  obtain ⟨hreport, hwrote⟩ := directiveWorld_run {} (by decide) htarget rfl
  have hreport : r.2 = ⟨[⟨"/a.tt", .generated (some "/a.rs")⟩], none, false⟩ := hreport
  have hwrote : directiveWorld.files.Wrote ["a.rs"] "x".toUTF8 r.1.1.files := hwrote
  have hwritten : r.2.written {} .artifact = ["/a.rs"] := by rw [hreport]; rfl
  have hne : r.1.1.files.locate "/a.rs" ≠ r.1.1.files.locate "/a.tt" := by
    rw [(hwrote.leads htarget).locate_file hwrote.shapeAt_self,
      (hwrote.leads htemplate).locate_file (hwrote.grows.shapeAt rfl)]
    decide
  refine ⟨hwritten, hne, hspares.1 "/a.tt" _ (htemplate.readBytes_file rfl) ?_, by decide,
    hspares.2 directiveWorld_plain directiveWorld_tidy (by decide) "/a.tt" ?_⟩
  · rw [hwritten, List.forall_mem_singleton]
    exact hne
  · rw [directiveWorld_discover]
    exact List.mem_cons_self

/-- A template is lost when the target extension is its own. -/
theorem template_lost :
    let w := directiveWorld
    let r := runBatch Lua.language { extension := "tt" } .artifact (discover w.files "/" "tt") w
    w.files.Plain ∧ w.files.root.Tidy ∧ '/' ∉ "tt".toList ∧ "/a.tt" ∈ discover w.files "/" "tt" ∧
      w.files.readBytes "/a.tt" = .ok "<#@ k = 1 #>x".toUTF8 ∧
      r.1.files.readBytes "/a.tt" = .ok "x".toUTF8 := by
  intro w r
  have htemplate : w.files.Leads "/a.tt" ["a.tt"] := .file (by decide) (by decide)
  obtain ⟨-, hwrote⟩ := directiveWorld_run { extension := "tt" } (by decide) htemplate (by decide)
  refine ⟨directiveWorld_plain, directiveWorld_tidy, by decide, ?_, htemplate.readBytes_file rfl,
    (hwrote.leads htemplate).readBytes_file hwrote.sightAt_self⟩
  rw [directiveWorld_discover]
  exact List.mem_cons_self

end Stencil
