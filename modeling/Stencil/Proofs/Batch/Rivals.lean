import Stencil.Proofs.Batch.Templates
import Stencil.Proofs.Files.Times
import Stencil.Proofs.Files.Walk

/-!
# Templates that want one artifact

Two files with one extension never have one artifact path, so discovered templates do not compete for
an artifact: a batch writes to each path once, and without links to each file once. A template can
still be skipped because of another one, as what stands at its artifact's path need not be its
artifact: a directory there gets newer with every artifact that is made in it, and a link there leads
to what another template makes.

* `OwnPaths`, `discover_ownPaths`: the paths that discovered files are given are their own;
* `Passes.wroteEach`: files that pass write to their artifacts, one after another;
* `Passes.places`: without links, no two of them to one place;
* `runBatch_unrivaled`: what a batch over discovered files writes, and what it skips;
* `rival_skipped`: templates that are skipped because of others.
-/

namespace Stencil

open FileSystem (WroteEach)
open Stencil.Path (Proper)

/-! ## Paths of their own -/

/-- Each of some files has a path, and no two of them have one, however it is spelled. -/
structure OwnPaths (files : List String) (path : String → Option String) : Prop where
  exists_path : ∀ p ∈ files, ∃ q, path p = some q
  nodup : (files.map fun p => (path p).map Path.components).Nodup

/-- Below one directory, files with one extension have one path once it is replaced only if they are
one. -/
theorem Address.withExtension_inj {a b : Address} {p old target : String} (hp : p ≠ "")
    (ha : ∀ n ∈ a, Proper n.toList) (hb : ∀ n ∈ b, Proper n.toList)
    (hold : a.extension = some old) (hold' : b.extension = some old)
    (hext : '/' ∉ target.toList) (hne : target ≠ "")
    (heq : (Path.withExtension (Path.descend p a) target).map Path.components =
      (Path.withExtension (Path.descend p b) target).map Path.components) : a = b := by
  obtain ⟨dirs, name, rfl, hname⟩ := eq_concat_of_extension hold
  obtain ⟨dirs', name', rfl, hname'⟩ := eq_concat_of_extension hold'
  obtain ⟨c, hc, hcomponents⟩ := Path.components_withExtension_descend hp ha hext
  obtain ⟨c', hc', hcomponents'⟩ := Path.components_withExtension_descend hp hb hext
  have hn := ha _ (List.mem_append_right dirs List.mem_cons_self)
  have hn' := hb _ (List.mem_append_right dirs' List.mem_cons_self)
  rw [String.toList_ofList] at hc hc' hn hn'
  -- What stands before the last component is the same, and so is the name that it is made from.
  rw [hcomponents, hcomponents'] at heq
  obtain ⟨hbefore, hlast⟩ := List.append_inj' (Option.some.inj heq) rfl
  have hdirs : dirs = dirs' := List.map_injective_iff.mpr
    (fun _ _ h => Path.Component.normal.inj h) (List.append_cancel_left hbefore)
  have hsame := Path.pieceComponent_injective (Path.renamed_cases hn hext)
    (Path.renamed_cases hn' hext) (hc.trans ((List.cons.inj hlast).1 ▸ hc'.symm))
  have hnames := Path.renamed_injective_of_ne_nil (mt String.toList_eq_nil_iff.mp hne) hname hname'
    hsame
  rw [hdirs, hnames]

/-- Discovered files have paths of their own if their extension is replaced by one that is not
empty. -/
theorem discover_ownPaths {fs : FileSystem} {target : String} (htidy : fs.root.Tidy)
    (hext : '/' ∉ target.toList) (hne : target ≠ "") (root ext : String) :
    OwnPaths (discover fs root ext) (Path.withExtension · target) where
  exists_path p _ := Option.ne_none_iff_exists'.mp (Path.withExtension_ne_none hext)
  nodup := by
    rcases discover_cases fs root ext with h | ⟨h, -⟩ | ⟨d, hroot, hdir⟩
    · rw [h]
      exact List.nodup_nil
    · rw [h]
      exact List.nodup_singleton _
    obtain ⟨node, hget, hdiscover⟩ := discover_directory hroot hdir ext
    have hbelow := htidy.get? hget
    have hproper {a : Address} (ha : a ∈ node.templates ext) : ∀ n ∈ a, Proper n.toList :=
      hbelow.proper_of_file (hbelow.mem_templates_iff.mp ha).1
    have hold {a : Address} (ha : a ∈ node.templates ext) : a.extension = some ext :=
      Address.extension_eq_some_iff.mpr (hbelow.mem_templates_iff.mp ha).2
    rw [hdiscover, List.map_map]
    exact List.Nodup.map_on (fun a ha b hb heq => Address.withExtension_inj
      (FileSystem.locate_ne_empty hroot) (hproper ha) (hproper hb) (hold ha) (hold hb) hext hne heq)
      (hbelow.nodup_templates ext)

/-! ## What a batch writes -/

section

variable {σ : Type} {I : Interpreter σ} {d : Disk} {options : Options} {mode : Mode}
  {x y v : World × σ} {ext p : String} {done : List FileReport}

/-- Files that pass write to their artifacts, one after another. -/
theorem Passes.wroteEach (h : Passes I d options mode x done y) (hI : I.Inert) :
    x.1.files.WroteEach (done.filterMap FileReport.artifact?) y.1.files := by
  induction h with
  | nil => exact .nil
  | @cons x u y f rest hfile _ ih =>
    rcases hI.processFile_put hfile with ⟨hnone, hsame⟩ | ⟨q, a, content, hsome, -, hleads, hput⟩
    · rw [List.filterMap_cons_none hnone, ← hsame]
      exact ih
    · rw [List.filterMap_cons_some hsome]
      exact .cons hleads hput ih

/-- The artifacts of files that pass are the ones that their paths make. -/
theorem Passes.artifacts_sublist (h : Passes I d options mode x done y) (hI : I.Inert) :
    ((done.filterMap FileReport.artifact?).map some).Sublist
      (done.map fun f => Host.artifactPath f.path options.extension) := by
  induction h with
  | nil => exact .slnil
  | @cons x u y f rest hfile _ ih =>
    rcases hI.processFile_put hfile with ⟨hnone, -⟩ | ⟨q, a, content, hsome, hpath, -, -⟩
    · rw [List.filterMap_cons_none hnone]
      exact ih.cons _
    · rw [List.filterMap_cons_some hsome, List.map_cons, List.map_cons, hpath]
      exact ih.cons_cons _

/-- Files that have paths of their own and pass write to no path twice. -/
theorem Passes.nodup_artifacts {rest : List String} (h : Passes I d options mode x done y)
    (hI : I.Inert)
    (hown : OwnPaths (done.map FileReport.path ++ rest) (Host.artifactPath · options.extension)) :
    ((done.filterMap FileReport.artifact?).map Path.components).Nodup := by
  have hsub := (h.artifacts_sublist hI).map (Option.map Path.components)
  have hnodup := hown.nodup
  rw [List.map_append, List.map_map] at hnodup
  rw [List.map_map, List.map_map] at hsub
  have hsome : (((done.filterMap FileReport.artifact?).map Path.components).map some).Nodup := by
    rw [List.map_map]
    exact (List.nodup_append.mp hnodup).1.sublist hsub
  exact hsome.of_map some

/-- Without links, files that are found and pass write to places of their own. -/
theorem Passes.places (h : Passes I d options .artifact x done y) (hI : I.Inert)
    (hplain : x.1.files.Plain) (hext : '/' ∉ options.extension.toList) {addresses : List Address}
    (hfound : List.Forall₂ (x.1.files.Found ext) (done.map FileReport.path) addresses) :
    (∀ q ∈ done.filterMap FileReport.artifact?, ∃ a ∈ addresses,
        y.1.files.locate q = .ok (.found (a.renamed options.extension)) ∧
        y.1.files.root.shapeAt (a.renamed options.extension) = some .file) ∧
      (addresses.Nodup → (done.filterMap FileReport.artifact?).Pairwise fun q q' =>
        y.1.files.locate q ≠ y.1.files.locate q') := by
  generalize hmode : Mode.artifact = mode at h
  induction h generalizing addresses with
  | nil => exact ⟨fun q hq => absurd hq List.not_mem_nil, fun _ => .nil⟩
  | @cons x u y f rest hfile hrest ih =>
    subst hmode
    obtain ⟨a, others, hf, hothers, rfl⟩ := List.forall₂_cons_left_iff.mp hfound
    rcases hI.processFile_found hplain hf hext hfile with
      ⟨hskipped, hsame⟩ | ⟨q, template, bytes, hgenerated, -, -, -, hleads, hwrote⟩
    · have hnone : f.artifact? = none := by rw [FileReport.artifact?, hskipped]
      rw [List.filterMap_cons_none hnone]
      rw [hsame] at ih
      obtain ⟨hplaces, hpairwise⟩ := ih hplain hothers
      refine ⟨fun q hq => ?_, fun hnodup => hpairwise (List.nodup_cons.mp hnodup).2⟩
      obtain ⟨b, hb, hplace⟩ := hplaces q hq
      exact ⟨b, List.mem_cons_of_mem _ hb, hplace⟩
    · have hsome : f.artifact? = some q := by rw [FileReport.artifact?, hgenerated]
      rw [List.filterMap_cons_some hsome]
      obtain ⟨hplaces, hpairwise⟩ := ih (hwrote.plain hplain)
        (hothers.imp fun _ _ h => hwrote.found h)
      have hlater := hrest.wroteEach hI
      have hq : y.1.files.locate q = .ok (.found (a.renamed options.extension)) :=
        hlater.locate_found ((hwrote.leads hleads).locate_file hwrote.shapeAt_self)
      refine ⟨fun q' hq' => ?_, fun hnodup => .cons (fun q' hq' heq => ?_)
        (hpairwise (List.nodup_cons.mp hnodup).2)⟩
      · rcases List.mem_cons.mp hq' with rfl | hq'
        · exact ⟨a, List.mem_cons_self, hq, hlater.grows.shapeAt hwrote.shapeAt_self⟩
        · obtain ⟨b, hb, hplace⟩ := hplaces q' hq'
          exact ⟨b, List.mem_cons_of_mem _ hb, hplace⟩
      · obtain ⟨b, hb, hloc, -⟩ := hplaces q' hq'
        rw [hq, hloc] at heq
        obtain ⟨_, hother⟩ := exists_of_forall₂_mem hothers hb
        have hsame := Address.renamed_inj hf.extension hother.extension
          (hplain.proper_leads hleads) (Place.found.inj (Except.ok.inj heq))
        exact (List.nodup_cons.mp hnodup).1 (hsame ▸ hb)

/-! ## What a batch skips -/

/-- An artifact that is up to date after some writes was so before them, unless one of them changes
its time or the template's. -/
theorem FileSystem.WroteEach.isUpToDate {fs fs' : FileSystem} {paths : List String}
    {artifact : String} (h : fs.WroteEach paths fs')
    (hfresh : Stencil.isUpToDate fs' p artifact = .ok true) :
    Stencil.isUpToDate fs p artifact = .ok true ∨
      ∃ q ∈ paths, fs'.Touches q p ∨ fs'.Touches q artifact := by
  obtain ⟨time, changed, htime, hchanged, hlt⟩ := isUpToDate_iff.mp hfresh
  rcases h.modifiedAt htime with htime | ⟨q, hq, htouches⟩
  · rcases h.modifiedAt hchanged with hchanged | ⟨q, hq, htouches⟩
    · exact .inl (isUpToDate_iff.mpr ⟨time, changed, htime, hchanged, hlt⟩)
    · exact .inr ⟨q, hq, .inr htouches⟩
  · exact .inr ⟨q, hq, .inl htouches⟩

/-- A file that is skipped after others had an artifact that was up to date before them, unless the
artifact of one of them changes its time or the template's. -/
theorem Passes.skipped {before after : List FileReport}
    (h : Passes I d options .artifact x (before ++ ⟨p, .skipped⟩ :: after) y) (hI : I.Inert) :
    ∃ u artifact, Passes I d options .artifact x before u ∧
      Host.artifactPath p options.extension = some artifact ∧
      (isUpToDate x.1.files p artifact = .ok true ∨
        ∃ q ∈ before.filterMap FileReport.artifact?,
          u.1.files.Touches q p ∨ u.1.files.Touches q artifact) := by
  obtain ⟨u, hbefore, hafter⟩ := h.split
  cases hafter with
  | cons hfile _ =>
    have hhandled := I.processFile_handled d options .artifact p u
    rw [hfile] at hhandled
    cases hhandled with
    | @skipped artifact _ _ hartifact hfresh _ =>
      exact ⟨u, artifact, hbefore, hartifact, (hbefore.wroteEach hI).isUpToDate hfresh⟩

/-- Without links, an artifact is written neither onto a template, if names that end in the target
extension never have the extension of templates, nor onto the artifact of another template, nor into
the directory at its path, if there is none. -/
theorem Passes.not_touches {a : Address} {artifact q : String}
    (h : Passes I d options .artifact x done y) (hI : I.Inert) (hplain : x.1.files.Plain)
    (hext : '/' ∉ options.extension.toList) (hapart : Apart ext options.extension)
    {addresses : List Address}
    (hfound : List.Forall₂ (x.1.files.Found ext) (done.map FileReport.path) addresses)
    (hp : x.1.files.Found ext p a) (hother : a ∉ addresses)
    (hartifact : Host.artifactPath p options.extension = some artifact)
    (hfree : ∀ dir, x.1.files.locate artifact = .ok (.found dir) →
      x.1.files.root.shapeAt dir ≠ some .directory)
    (hq : q ∈ done.filterMap FileReport.artifact?) :
    ¬ (y.1.files.Touches q p ∨ y.1.files.Touches q artifact) := by
  have hwritten := h.written hI hplain hext hfound
  have hy := hwritten.plain hplain
  have hlater := h.wroteEach hI
  obtain ⟨b, hb, hloc, hfile⟩ := (h.places hI hplain hext hfound).1 q hq
  obtain ⟨_, hbfound⟩ := exists_of_forall₂_mem hfound hb
  have hproper := hy.proper_leads (.file hloc hfile)
  -- The artifact is in a directory.
  have hdir : y.1.files.root.shapeAt (b.renamed options.extension).dropLast = some .directory := by
    obtain ⟨dir, name, rfl, -⟩ := Address.eq_concat_of_extension hbfound.extension
    rw [Address.renamed_concat] at hfile ⊢
    rw [List.dropLast_concat]
    exact Node.shapeAt_of_below hfile
  have hpy := hwritten.found hp
  rintro (⟨c, hc, hplace⟩ | ⟨c, hc, hplace⟩)
  · cases hloc.symm.trans hc
    rcases hplace with hplace | hplace
    · cases hpy.locate.symm.trans hplace
      exact hapart.renamed List.suffix_rfl hbfound.extension hproper hp.extension
    · cases hpy.locate.symm.trans hplace
      rw [hpy.file] at hdir
      cases hdir
  · cases hloc.symm.trans hc
    rcases hplace with hplace | hplace
    · have hsame := hy.leads_withExtension hpy.locate hpy.file hext hartifact (.file hplace hfile)
      exact hother (Address.renamed_inj hbfound.extension hp.extension hproper hsame ▸ hb)
    · obtain ⟨hloc', hdir'⟩ := FileSystem.locate_directory hlater.grows hlater.cwd hplace hdir
      exact hfree _ hloc' hdir'

/-- Whatever tree they are found in, templates have artifacts of their own, and so have their saved
sources. If snippets leave the files alone, a batch over them writes to its artifacts, one after
another, and without links no two of these are one file. It skips a template only if its artifact was
newer already, or an artifact that was made before has changed the time of the template or of what
stands at its artifact's path. Without links, with a target extension apart from that of the
templates, and without a directory at its artifact's path, no other template has a part in that. -/
theorem runBatch_unrivaled (I : Interpreter σ) (hI : I.Inert) (d : Disk) (options : Options)
    (hext : '/' ∉ options.extension.toList) (hne : options.extension ≠ "")
    (hsuffix : '/' ∉ options.debugSuffix.toList) (root ext : String) (x : World × σ)
    (htidy : x.1.files.root.Tidy) :
    let files := discover x.1.files root ext
    let r := I.runBatch d options .artifact files x
    OwnPaths files (Host.artifactPath · options.extension) ∧
    OwnPaths files (Host.debugPath · options.debugSuffix options.extension) ∧
    (∃ v, Passes I d options .artifact x r.2.completed v ∧
      x.1.files.WroteEach (r.2.completed.filterMap FileReport.artifact?) v.1.files ∧
      ((r.2.completed.filterMap FileReport.artifact?).map Path.components).Nodup ∧
      (x.1.files.Plain → (r.2.completed.filterMap FileReport.artifact?).Pairwise fun q q' =>
        v.1.files.locate q ≠ v.1.files.locate q')) ∧
    ∀ before after p, r.2.completed = before ++ ⟨p, .skipped⟩ :: after →
      ∃ u artifact, Passes I d options .artifact x before u ∧
        Host.artifactPath p options.extension = some artifact ∧
        (isUpToDate x.1.files p artifact = .ok true ∨
          ∃ q ∈ before.filterMap FileReport.artifact?,
            u.1.files.Touches q p ∨ u.1.files.Touches q artifact) ∧
        (x.1.files.Plain → Apart ext options.extension →
          (∀ dir, x.1.files.locate artifact = .ok (.found dir) →
            x.1.files.root.shapeAt dir ≠ some .directory) →
          isUpToDate x.1.files p artifact = .ok true) := by
  intro files r
  have hartifacts : OwnPaths files (Host.artifactPath · options.extension) :=
    discover_ownPaths htidy hext hne root ext
  have hlong : '/' ∉ (options.debugSuffix ++ "." ++ options.extension).toList := fun hmem =>
    (slash_mem_debug hmem).elim hext hsuffix
  have hlongne : options.debugSuffix ++ "." ++ options.extension ≠ "" := by simp
  obtain ⟨-, v, rest, hsplit, hpasses, -⟩ :=
    runBatch_passes I d .artifact hext hsuffix files x
  refine ⟨hartifacts, discover_ownPaths htidy hlong hlongne root ext,
    ⟨v, hpasses, hpasses.wroteEach hI, hpasses.nodup_artifacts hI (hsplit ▸ hartifacts),
      fun hplain => ?_⟩, ?_⟩
  · obtain ⟨addresses, hnodup, hfound⟩ := hplain.discover_found htidy root ext
    rw [show discover x.1.files root ext = _ from hsplit] at hfound
    obtain ⟨first, second, hfirst, -, rfl⟩ := forall₂_append_left hfound
    exact (hpasses.places hI hplain hext hfirst).2 (List.nodup_append.mp hnodup).1
  · intro before after p hcompleted
    rw [hcompleted] at hpasses
    obtain ⟨u, artifact, hbefore, hartifact, hcases⟩ := hpasses.skipped hI
    refine ⟨u, artifact, hbefore, hartifact, hcases, fun hplain hapart hfree => ?_⟩
    refine hcases.resolve_right ?_
    rintro ⟨q, hq, htouches⟩
    rw [hcompleted] at hsplit
    obtain ⟨first, a, second, last, hfirst, ha, -, -, hnodup⟩ := hplain.found_around htidy hsplit
    have hother : a ∉ first := fun hmem =>
      (List.nodup_cons.mp hnodup).1 (List.mem_append_left _ hmem)
    exact hbefore.not_touches hI hplain hext hapart hfirst ha hother hartifact hfree hq htouches

end

/-! ### Two templates -/

section

variable {language : Language} {options : Options} {w : World} {p : String}

/-- A file whose artifact is not up to date is not skipped. -/
theorem processFile_ne_skipped {artifact : String}
    (hartifact : Host.artifactPath p options.extension = some artifact)
    (hfresh : isFresh options w.files p (.artifact artifact) = .ok false) :
    (processFile language options .artifact p w).2 ≠ .completed .skipped := by
  rw [processFile_stale hartifact hfresh]
  exact language.interpreter.generate_ne_skipped .sound options p _ _

end

/-- A world with two templates. The artifact of the second is newer than it. -/
def halfMadeWorld : World where
  outlets := ⟨⟨.directory [("a.tt", .file "x".toUTF8 3), ("b.rs", .file "y".toUTF8 4),
    ("b.tt", .file "y".toUTF8 3)] 2, "/", 5⟩, {}⟩
  diagnostics := {}
  log := []

theorem halfMadeWorld_plain : halfMadeWorld.files.Plain where
  root := rfl
  linkless := Node.linkless_files (by decide)

theorem halfMadeWorld_tidy : halfMadeWorld.files.root.Tidy :=
  Node.tidy_files (by decide) (by decide) (by decide)

theorem halfMadeWorld_discover : discover halfMadeWorld.files "/" "tt" = ["/a.tt", "/b.tt"] := by
  have hfiles : halfMadeWorld.files.root.files = [["a.tt"], ["b.rs"], ["b.tt"]] := by
    rw [halfMadeWorld, World.files, Node.files, List.mergeSort_of_pairwise (by decide)]
    rfl
  rw [discover_listed (d := []) rfl rfl rfl hfiles]
  decide

/-- The second template is skipped because of its own artifact. -/
theorem runBatch_unrivaled_halfMade :
    let w := halfMadeWorld
    let files := discover w.files "/" "tt"
    let r := Lua.language.interpreter.runBatch .sound {} .artifact files (w, ())
    files = ["/a.tt", "/b.tt"] ∧
    r.2.completed = [⟨"/a.tt", .generated (some "/a.rs")⟩, ⟨"/b.tt", .skipped⟩] ∧
    OwnPaths files (Host.artifactPath · "rs") ∧
    OwnPaths files (Host.debugPath · "debug_error" "rs") ∧
    isUpToDate w.files "/b.tt" "/b.rs" = .ok true := by
  intro w files r
  have hpath : Host.artifactPath "/a.tt" "rs" = some "/a.rs" := by decide
  have hpath' : Host.artifactPath "/b.tt" "rs" = some "/b.rs" := by decide
  have htemplate : w.files.Leads "/a.tt" ["a.tt"] := .file (by decide) (by decide)
  have htarget : w.files.Leads "/a.rs" ["a.rs"] := @FileSystem.Leads.free _ _ [] "a.rs" (by decide)
  have hrendering : Lua.language.rendering w.files ⟨"/a.tt", "x"⟩ = .output "x".toUTF8 :=
    Lua.rendering_markerFree .isolated _ (by decide) (by decide)
  have hmissing : isFresh {} w.files "/a.tt" (.artifact "/a.rs") = .ok false := rfl
  obtain ⟨v, hmade, hwrote⟩ :=
    processFile_output htemplate rfl hpath htarget hmissing hrendering
  have hb : w.files.Leads "/b.tt" ["b.tt"] := .file (by decide) (by decide)
  have hb' : w.files.Leads "/b.rs" ["b.rs"] := .file (by decide) (by decide)
  have hskipped := @processFile_fresh Lua.language {} "/b.tt" v "/b.rs" _ _ rfl hpath'
    (hwrote.modifiedAt_other hb (by decide) rfl) (hwrote.modifiedAt_other hb' (by decide) rfl)
    (by decide)
  have hcompleted : r.2.completed =
      [⟨"/a.tt", .generated (some "/a.rs")⟩, ⟨"/b.tt", .skipped⟩] := by
    simp only [r, files, w, halfMadeWorld_discover, eq_of_stateless (runBatch_pair hmade hskipped)]
  obtain ⟨hartifacts, hsources, -, hskips⟩ := runBatch_unrivaled Lua.language.interpreter
    Lua.language.interpreter_inert .sound {} (by decide) (by decide) (by decide) "/" "tt"
    (halfMadeWorld, ()) halfMadeWorld_tidy
  obtain ⟨u, artifact, -, hartifact, -, hfresh⟩ := hskips [_] [] "/b.tt" hcompleted
  cases hpath'.symm.trans hartifact
  refine ⟨halfMadeWorld_discover, hcompleted, hartifacts, hsources,
    hfresh halfMadeWorld_plain (by decide) fun d hd => ?_⟩
  cases (show halfMadeWorld.files.locate "/b.rs" = .ok (.found ["b.rs"]) by decide).symm.trans hd
  decide

/-! ### Templates that are skipped because of others -/

/-- A world with a directory in the place of an artifact. It is older than the template, but a second
template is in it. -/
def nestedWorld : World where
  outlets := ⟨⟨.directory [("a.rs", .directory [("b.tt", .file "y".toUTF8 1)] 2),
    ("a.tt", .file "x".toUTF8 3)] 2, "/", 5⟩, {}⟩
  diagnostics := {}
  log := []

theorem nestedWorld_plain : nestedWorld.files.Plain where
  root := rfl
  linkless := by
    refine Node.linkless_directory fun e he => ?_
    simp only [List.mem_cons, List.not_mem_nil, or_false] at he
    rcases he with rfl | rfl
    · exact Node.linkless_files (by decide)
    · exact Node.linkless_file _ _

theorem nestedWorld_tidy : nestedWorld.files.root.Tidy := by
  refine Node.tidy_directory (by decide) (by decide) fun e he => ?_
  simp only [List.mem_cons, List.not_mem_nil, or_false] at he
  rcases he with rfl | rfl
  · exact Node.tidy_files (by decide) (by decide) (by decide)
  · exact Node.tidy_file _ _

theorem nestedWorld_discover : discover nestedWorld.files "/" "tt" = ["/a.rs/b.tt", "/a.tt"] := by
  have hfiles : nestedWorld.files.root.files = [["a.rs", "b.tt"], ["a.tt"]] := by
    rw [nestedWorld, World.files, Node.files, List.mergeSort_of_pairwise (by decide)]
    simp only [Node.entryFiles, Node.files, List.mergeSort_singleton]
    rfl
  rw [discover_listed (d := []) rfl rfl rfl hfiles]
  decide

/-- The artifact of the second template makes the directory newer than the first one. -/
theorem nestedWorld_run :
    (runBatch Lua.language {} .artifact (discover nestedWorld.files "/" "tt")
      nestedWorld).2.completed =
      [⟨"/a.rs/b.tt", .generated (some "/a.rs/b.rs")⟩, ⟨"/a.tt", .skipped⟩] := by
  have hpath : Host.artifactPath "/a.rs/b.tt" "rs" = some "/a.rs/b.rs" := by decide
  have hpath' : Host.artifactPath "/a.tt" "rs" = some "/a.rs" := by decide
  have htemplate : nestedWorld.files.Leads "/a.rs/b.tt" ["a.rs", "b.tt"] :=
    .file (by decide) (by decide)
  have htarget : nestedWorld.files.Leads "/a.rs/b.rs" ["a.rs", "b.rs"] :=
    @FileSystem.Leads.free _ _ ["a.rs"] "b.rs" (by decide)
  have hmissing : isFresh {} nestedWorld.files "/a.rs/b.tt" (.artifact "/a.rs/b.rs") =
    .ok false := rfl
  have hrendering : Lua.language.rendering nestedWorld.files ⟨"/a.rs/b.tt", "y"⟩ =
    .output "y".toUTF8 := Lua.rendering_markerFree .isolated _ (by decide) (by decide)
  have hchanged : (nestedWorld.outlets.deliver .sound (.artifact "/a.rs/b.rs")
      "y".toUTF8).1.files.modifiedAt "/a.rs" = .ok 5 := by
    decide +kernel
  obtain ⟨v, hmade, houtlets⟩ := processFile_delivered .sound hpath hmissing
    (loadTemplate_of_text htemplate rfl) hrendering
  obtain ⟨files, hdeliver, hput⟩ := Outlets.deliver_sound (o := nestedWorld.outlets) htarget
    "y".toUTF8
  rw [hdeliver] at hmade houtlets hchanged
  have hfiles : v.files = files := congrArg Outlets.files houtlets
  have hmade : processFile Lua.language {} .artifact "/a.rs/b.tt" nestedWorld =
      (v, .completed (.generated (some "/a.rs/b.rs"))) := by
    rw [processFile, hmade]
    rfl
  have hfirst : nestedWorld.files.Leads "/a.tt" ["a.tt"] := .file (by decide) (by decide)
  have htime : v.files.modifiedAt "/a.tt" = .ok 3 := by
    rw [hfiles]
    exact hput.wrote.modifiedAt_other hfirst (by decide) rfl
  have hnewer : v.files.modifiedAt "/a.rs" = .ok 5 := by
    rw [hfiles]
    exact hchanged
  have hskipped := @processFile_fresh Lua.language {} "/a.tt" v "/a.rs" _ _ rfl hpath' htime hnewer
    (by decide)
  rw [nestedWorld_discover, runBatch_pair hmade hskipped]

theorem linkedWorld_tidy : linkedWorld.files.root.Tidy := by
  refine Node.tidy_directory (by decide) (by decide) fun e he => ?_
  simp only [List.mem_cons, List.not_mem_nil, or_false] at he
  rcases he with rfl | rfl | rfl
  · exact Node.tidy_link _
  · exact Node.tidy_file _ _
  · exact Node.tidy_file _ _

theorem linkedWorld_discover : discover linkedWorld.files "/" "tt" = ["/a.tt", "/b.tt"] := by
  have hfiles : linkedWorld.files.root.files = [["a.tt"], ["b.tt"]] := by
    rw [linkedWorld, World.files, Node.files, List.mergeSort_of_pairwise (by decide)]
    rfl
  rw [discover_listed (d := []) rfl rfl rfl hfiles]
  decide

/-- A world with a template, a second one where its artifact goes, and a third one where the artifact
of the second goes, all of them newer than the clock. -/
def dottedWorld : World where
  outlets := ⟨⟨.directory [("a.tt", .file "x".toUTF8 9), ("a.x.tt", .file "y".toUTF8 8),
    ("a.x.x.tt", .file "z".toUTF8 7)] 2, "/", 5⟩, {}⟩
  diagnostics := {}
  log := []

theorem dottedWorld_plain : dottedWorld.files.Plain where
  root := rfl
  linkless := Node.linkless_files (by decide)

theorem dottedWorld_tidy : dottedWorld.files.root.Tidy :=
  Node.tidy_files (by decide) (by decide) (by decide)

theorem dottedWorld_discover :
    discover dottedWorld.files "/" "tt" = ["/a.tt", "/a.x.tt", "/a.x.x.tt"] := by
  have hfiles : dottedWorld.files.root.files = [["a.tt"], ["a.x.tt"], ["a.x.x.tt"]] := by
    rw [dottedWorld, World.files, Node.files, List.mergeSort_of_pairwise (by decide)]
    rfl
  rw [discover_listed (d := []) rfl rfl rfl hfiles]
  decide

/-- The artifact of the first template is written onto the second one, which is older then than the
third. -/
theorem dottedWorld_run :
    ∃ more, (runBatch Lua.language { extension := "x.tt" } .artifact
      (discover dottedWorld.files "/" "tt") dottedWorld).2.completed =
        ⟨"/a.tt", .generated (some "/a.x.tt")⟩ :: ⟨"/a.x.tt", .skipped⟩ :: more := by
  have hpath : Host.artifactPath "/a.tt" "x.tt" = some "/a.x.tt" := by decide
  have hpath' : Host.artifactPath "/a.x.tt" "x.tt" = some "/a.x.x.tt" := by decide
  have htemplate : dottedWorld.files.Leads "/a.tt" ["a.tt"] := .file (by decide) (by decide)
  have htarget : dottedWorld.files.Leads "/a.x.tt" ["a.x.tt"] := .file (by decide) (by decide)
  have hthird : dottedWorld.files.Leads "/a.x.x.tt" ["a.x.x.tt"] :=
    .file (by decide) (by decide)
  have hstale : isFresh { extension := "x.tt" } dottedWorld.files "/a.tt" (.artifact "/a.x.tt") =
    .ok false := rfl
  have hrendering : Lua.language.rendering dottedWorld.files ⟨"/a.tt", "x"⟩ =
    .output "x".toUTF8 := Lua.rendering_markerFree .isolated _ (by decide) (by decide)
  obtain ⟨v, hmade, hwrote⟩ := processFile_output htemplate rfl hpath htarget hstale hrendering
  have hskipped := @processFile_fresh Lua.language { extension := "x.tt" } "/a.x.tt" v "/a.x.x.tt"
    _ _ rfl hpath' ((hwrote.leads htarget).modifiedAt_file hwrote.sightAt_self)
    (hwrote.modifiedAt_other hthird (by decide) rfl) (by decide)
  rw [dottedWorld_discover, runBatch_cons, hmade]
  simp only [runBatch_cons _ _ _ "/a.x.tt", hskipped]
  exact ⟨_, rfl⟩

/-- A template that would be made on its own is skipped once another one was made: because the other's
artifact is written onto it, because of a directory in the place of its artifact, or because of a link
in the place of the other's. -/
theorem rival_skipped :
    (dottedWorld.files.Plain ∧ dottedWorld.files.root.Tidy ∧
      (processFile Lua.language { extension := "x.tt" } .artifact "/a.x.tt" dottedWorld).2 ≠
        .completed .skipped ∧
      ∃ more, (runBatch Lua.language { extension := "x.tt" } .artifact
        (discover dottedWorld.files "/" "tt") dottedWorld).2.completed =
          ⟨"/a.tt", .generated (some "/a.x.tt")⟩ :: ⟨"/a.x.tt", .skipped⟩ :: more) ∧
    (nestedWorld.files.Plain ∧ nestedWorld.files.root.Tidy ∧
      (processFile Lua.language {} .artifact "/a.tt" nestedWorld).2 ≠ .completed .skipped ∧
      (runBatch Lua.language {} .artifact (discover nestedWorld.files "/" "tt")
        nestedWorld).2.completed =
        [⟨"/a.rs/b.tt", .generated (some "/a.rs/b.rs")⟩, ⟨"/a.tt", .skipped⟩]) ∧
    (linkedWorld.files.root.Tidy ∧
      (processFile Lua.language {} .artifact "/b.tt" linkedWorld).2 ≠ .completed .skipped ∧
      (runBatch Lua.language {} .artifact (discover linkedWorld.files "/" "tt")
        linkedWorld).2.completed =
        [⟨"/a.tt", .generated (some "/a.rs")⟩, ⟨"/b.tt", .skipped⟩]) := by
  obtain ⟨v, hlinked, -⟩ := linkedWorld_run
  refine ⟨⟨dottedWorld_plain, dottedWorld_tidy, ?_, dottedWorld_run⟩,
    ⟨nestedWorld_plain, nestedWorld_tidy, ?_, nestedWorld_run⟩, linkedWorld_tidy, ?_, ?_⟩
  · have hpath : Host.artifactPath "/a.x.tt" "x.tt" = some "/a.x.x.tt" := by decide
    exact processFile_ne_skipped hpath rfl
  · have hpath : Host.artifactPath "/a.tt" "rs" = some "/a.rs" := by decide
    exact processFile_ne_skipped hpath rfl
  · have hpath : Host.artifactPath "/b.tt" "rs" = some "/b.rs" := by decide
    exact processFile_ne_skipped hpath rfl
  · rw [linkedWorld_discover, hlinked]

end Stencil
