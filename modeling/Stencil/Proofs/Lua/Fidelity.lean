import Stencil.Proofs.Batch.Rendering
import Stencil.Proofs.Lua.Unit
import Stencil.Proofs.Markup.Layout
import Stencil.Proofs.Unit.Assembly

/-!
# Fidelity of texts

What is written between code comes out as it was written.

* `quote_faithful`: a quoted text reads as the text in every context, stands on one line, and
  carries the path of a template to its host value;
* `plain_faithful`: the output of a template whose code writes only quoted texts is its texts, in
  order, without the blank ones that no other text comes before;
* `rendering_unopened`: what a template comes to whose unit is no chunk.
-/

namespace Stencil.Lua

open Machine (Gives)
open Text (utf8)

/-! ## Lines -/

theorem newline_notMem_quote (s : String) : '\n' ∉ (quote s).toList := fun h =>
  absurd (not_isControl_of_mem_quote h) (by decide)

/-- The declaration that binds the host is one line. -/
theorem hostBinding_line (path : String) : ∃ line : String, '\n' ∉ line.toList ∧
    dialect.hostBinding path = line ++ "\n" := by
  refine ⟨"local Host <const> = t4.host(" ++ quote path ++ ")", ?_, ?_⟩
  · simp only [String.toList_append, List.mem_append, not_or]
    exact ⟨⟨by decide, newline_notMem_quote path⟩, by decide⟩
  · rw [String.append_assoc]
    rfl

theorem newline_notMem_writeLiteral (text : String) : '\n' ∉ (dialect.writeLiteral text).toList := by
  show '\n' ∉ ("t4.write(" ++ quote text ++ ")").toList
  simp only [String.toList_append, List.mem_append, not_or]
  exact ⟨⟨by decide, newline_notMem_quote text⟩, by decide⟩

/-! ## Hosts -/

/-- The function of a chunk that gives the host back once it is bound. -/
def giveBackProto (name : Bytes) (path : String) : Proto :=
  boundProto (Chunk.shownName name) path [.giveBack [.variable 0 (bytesOf "Host") false] 2]

theorem load_giveBack (s : Store) (path : String) (name : Bytes) :
    (s.surround []).load name (bytesOf (dialect.hostBinding path ++ "return Host"))
        (.table (s.tables.size + 1)) =
      .ok (.closure (s.closures.size + 2), s.ready (giveBackProto name path)) := by
  have hparse : Chunk.parse (Chunk.shownName name)
      (bytesOf (dialect.hostBinding path ++ "return Host")).data.toList =
        .ok (giveBackProto name path) := by
    rw [Chunk.parse, toList_bytesOf_append, toList_bytesOf_hostBinding, toList_bytesOf,
      tokens_giveBack, Parser.parseTokens_giveBack]
    rfl
  exact Store.load_unit s hparse

theorem object_newObject (s : Store) (o : HostObject) :
    (s.newObject o).2.object s.objects.size = o :=
  getD_push_size ..

/-- Evaluating the binding of the host gives a host value with the path of the template. -/
theorem runMain_giveBack {s : Store} (h : s.Stocked) (path : String) (name : Bytes)
    (coroutines : Array Coroutine) :
    ∃ p t, Session.runMain ⟨s.ready (giveBackProto name path), coroutines⟩
        (Run.call (.closure (s.closures.size + 2)) [] ⟨0, none⟩) = (.ok [.object p], t) ∧
      t.store.object p = .context path := by
  have hserves := Store.ready_serves h (giveBackProto name path)
  obtain ⟨s', hsteps, hs'⟩ := steps_closure (m := ⟨0, .base false 3, [], [], coroutines⟩)
    (Store.ready_closure s (giveBackProto name path)) (Machine.room_base _ _ _)
    fun m hr => gives_giveBack hserves (hr.mono (by decide))
  refine ⟨_, _, Session.runIn_eq (t := ⟨s.ready _, coroutines⟩) hsteps
    (show 4 + 2 < Session.budget 0 by decide), ?_⟩
  show s'.object _ = _
  rw [Store.object, hs'.objects, ← Store.object]
  exact object_newObject _ _

/-- A quoted text reads as the bytes of the text, whatever follows it, and no more is read; there is
no control character in it. So in a program the binding of the host is the first line, and a call
that writes a literal is a line; and the host value that is bound has the path of the template. -/
theorem quote_faithful :
    (∀ (s : String) (line : Nat) (rest : List UInt8), ∃ tail,
      (bytesOf (quote s)).data.toList = 0x22 :: tail ∧
      readQuoted 0x22 line (tail ++ rest) = .ok (bytesOf s).data.toList line rest) ∧
    (∀ s, ∀ c ∈ (quote s).toList, 0x20 ≤ c.toNat ∧ c.toNat ≠ 0x7F) ∧
    (∀ path segments, ∃ line more : String, '\n' ∉ line.toList ∧
      dialect.hostBinding path = line ++ "\n" ∧
      assembleSource dialect path segments = line ++ "\n" ++ more) ∧
    (∀ path text before after,
      (Segment.literal text).isText || before.any Segment.isText →
      '\n' ∉ (dialect.writeLiteral text).toList ∧ ∃ a b : String,
        (a = "" ∨ a.toList.getLast? = some '\n') ∧
        assembleSource dialect path (before ++ .literal text :: after) =
          a ++ dialect.writeLiteral text ++ "\n" ++ b) ∧
    ∀ system files path name, ∃ env t,
      (Session.start system files path).unitEnvironment [] = .ok (env, t) ∧ ∃ f s,
        t.store.load name (bytesOf (dialect.hostBinding path ++ "return Host")) (.table env) =
          .ok (f, s) ∧
        ∃ p t', Session.runMain ⟨s, t.coroutines⟩ (Run.call f [] ⟨0, none⟩) = (.ok [.object p], t') ∧
          t'.store.object p = .context path := by
  refine ⟨fun s line rest => ⟨quoteTail s, toList_bytesOf_quote s, ?_⟩, fun s c hc => ?_,
    fun path segments => ?_, fun path text before after h => ?_, fun system files path name => ?_⟩
  · rw [readQuoted_quote, toList_bytesOf]
  · have := not_isControl_of_mem_quote hc
    simp only [isControl, Bool.or_eq_false_iff, decide_eq_false_iff_not] at this
    omega
  · obtain ⟨line, hline, hbinding⟩ := hostBinding_line path
    obtain ⟨more, hmore⟩ := assembleSource_hostBinding dialect path segments
    exact ⟨line, more, hline, hbinding, by rw [hmore, hbinding]⟩
  · obtain ⟨a, b, ha, hab⟩ := assembleSource_literal dialect path text before after h
    refine ⟨newline_notMem_writeLiteral text, a, b, ?_, hab⟩
    exact (endsMidLine_eq_false_iff.mp ha).imp_left String.toList_eq_nil_iff.mp
  · exact ⟨_, _, Session.start_environment system files path, _, _, load_giveBack _ path name,
      runMain_giveBack (Session.start_stocked system files path) path name _⟩

/-- A literal with control characters before a digit and at its end stands on one line. -/
theorem quote_faithful_controls :
    ((Segment.literal "\x0B1\n\x7F").isText || [Segment.statement "x()"].any Segment.isText) = true ∧
      '\n' ∉ (dialect.writeLiteral "\x0B1\n\x7F").toList ∧ ∃ a b : String,
        (a = "" ∨ a.toList.getLast? = some '\n') ∧
        assembleSource dialect "/t/a.tt" ([.statement "x()"] ++ .literal "\x0B1\n\x7F" :: []) =
          a ++ dialect.writeLiteral "\x0B1\n\x7F" ++ "\n" ++ b :=
  ⟨by decide, quote_faithful.2.2.2.1 "/t/a.tt" "\x0B1\n\x7F" [.statement "x()"] [] (by decide)⟩

/-! ## Templates without code -/

/-- A segment of a template without code of its own: a literal, an expression that is a quoted
text, or a directive. -/
inductive Plain where
  | literal (text : String)
  | quoted (text : String)
  | directive (d : Directive)

namespace Plain

/-- The segment itself. -/
def segment : Plain → Segment
  | .literal text => .literal text
  | .quoted text => .expression (quote text)
  | .directive d => .directive d

/-- The text that comes out for a segment, if one does, by the segments before it: a blank literal
counts only after a literal that is not blank. -/
def text? (before : List Plain) : Plain → Option String
  | .literal text =>
    if Text.allBlank text.toList ∧ ∀ p ∈ before, p.segment.isText = false then none else some text
  | .quoted text => some text
  | .directive _ => none

/-- The texts that come out for segments, in order. -/
def texts (ps : List Plain) : List String :=
  ps.zipIdx.filterMap fun p => p.1.text? (ps.take p.2)

theorem texts_concat (ps : List Plain) (p : Plain) :
    texts (ps ++ [p]) = texts ps ++ (p.text? ps).toList := by
  have hold : ps.zipIdx.filterMap (fun q => q.1.text? ((ps ++ [p]).take q.2)) = texts ps := by
    refine List.filterMap_congr fun q hq => ?_
    have hlt := List.snd_lt_of_mem_zipIdx hq
    rw [List.take_append_of_le_length (by omega)]
  rw [texts, List.zipIdx_append, List.filterMap_append, hold]
  rw [List.zipIdx_singleton, Nat.zero_add, List.filterMap_cons, List.take_left']
  cases p.text? ps <;> rfl
  rfl

theorem text?_literal (ps : List Plain) (text : String) :
    (Plain.literal text).text? ps =
      if !(ps.any fun p => p.segment.isText) && Text.allBlank text.toList then none
      else some text := by
  refine if_congr ?_ rfl rfl
  rw [Bool.and_eq_true, Bool.not_eq_true', List.any_eq_false, and_comm]
  simp only [Bool.not_eq_true]

end Plain

theorem writesSource_concat (path : String) (texts : List String) (text : String) :
    writesSource path (texts ++ [text]) =
      writesSource path texts ++ (dialect.writeLiteral text ++ "\n") := by
  rw [writesSource, List.map_append, String.join_append, writesSource, String.append_assoc]
  simp

/-- Between its segments, the draft of a template without code has written the texts so far. -/
theorem foldl_addSegment_plain (path : String) (ps : List Plain) :
    (ps.map Plain.segment).foldl (Draft.addSegment dialect) (Draft.start (dialect.hostBinding path)) =
      ⟨writesSource path (Plain.texts ps), false, ps.any fun p => p.segment.isText⟩ := by
  have hline : ∀ begun texts statement,
      Draft.appendLine ⟨writesSource path texts, false, begun⟩ statement =
        ⟨writesSource path texts ++ (statement ++ "\n"), false, begun⟩ := by
    intro begun texts statement
    rw [Draft.appendLine, if_neg Bool.false_ne_true, ← String.append_assoc]
    rfl
  induction ps using List.reverseRecOn with
  | nil =>
    obtain ⟨line, -, hbinding⟩ := hostBinding_line path
    have hmid : endsMidLine false (dialect.hostBinding path) = false := by
      rw [hbinding, endsMidLine_append, endsMidLine_newline]
    have hsource : writesSource path (Plain.texts []) = dialect.hostBinding path :=
      String.append_empty
    rw [hsource]
    exact congrArg (Draft.mk _ · false) hmid
  | append_singleton ps p ih =>
    rw [List.map_append, List.foldl_append, ih, Plain.texts_concat, List.any_append]
    cases p with
    | literal text =>
      -- Dropped, or written; text has begun after it if it is not blank.
      have hany : (ps.any (fun p => p.segment.isText) || [Plain.literal text].any
          (fun p => p.segment.isText)) =
            !(!(ps.any fun p => p.segment.isText) && Text.allBlank text.toList) := by
        rw [List.any_cons, List.any_nil, Bool.or_false, Bool.not_and, Bool.not_not]
        rfl
      rw [Plain.text?_literal, hany]
      show Draft.addSegment dialect _ (.literal text) = _
      rw [Draft.addSegment]
      cases h : !(ps.any fun p => p.segment.isText) && Text.allBlank text.toList with
      | true =>
        have hbegun := (Bool.not_eq_true' _).mp (Bool.and_eq_true_iff.mp h).1
        simp [hbegun]
      | false => simp [hline, writesSource_concat]
    | quoted text =>
      have hany : (ps.any (fun p => p.segment.isText) || [Plain.quoted text].any
          (fun p => p.segment.isText)) = ps.any fun p => p.segment.isText := Bool.or_false _
      show Draft.appendLine _ (dialect.writeLiteral text) =
        Draft.mk (writesSource path (Plain.texts ps ++ [text])) _ _
      rw [hline, writesSource_concat, hany]
    | directive d =>
      have hany : (ps.any (fun p => p.segment.isText) || [Plain.directive d].any
          (fun p => p.segment.isText)) = ps.any fun p => p.segment.isText := Bool.or_false _
      show Draft.mk _ _ _ = Draft.mk (writesSource path (Plain.texts ps ++ [])) _ _
      rw [List.append_nil, hany]

theorem importsOf_inert {directives : List Directive} (h : ∀ d ∈ directives, d.effect = .inert) :
    importsOf directives = [] := by
  rw [importsOf]
  induction directives with
  | nil => rfl
  | cons d directives ih =>
    rw [List.foldl_cons, h d List.mem_cons_self]
    exact ih fun d hd => h d (List.mem_cons_of_mem _ hd)

theorem assemble_plain {path : String} {markup : Markup} {ps : List Plain}
    (hs : markup.segments = ps.map Plain.segment)
    (hd : ∀ d ∈ markup.directives, d.effect = .inert) :
    assemble dialect path markup = ⟨writesSource path (Plain.texts ps), []⟩ := by
  rw [assemble, importsOf_inert hd, assembleSource, hs, foldl_addSegment_plain]

theorem languageOn_runs {system : System} {files : FileSystem} {path : String}
    {unit : CompilationUnit} {p : Program} {output : ByteArray}
    (hcompile : compile system files path unit = .ok p) (hrun : run p = .ok output) :
    ∃ p, (languageOn system).compile files path unit = .ok p ∧ (languageOn system).run p = .ok output :=
  ⟨p, hcompile, hrun⟩

/-- The unit of a template without code is compiled and run, and gives the texts. -/
theorem runs_plain (system : System) (files : FileSystem) (markup : Markup) {path : String}
    {ps : List Plain} (hpath : '\x00' ∉ path.toList) (hs : markup.segments = ps.map Plain.segment)
    (hd : ∀ d ∈ markup.directives, d.effect = .inert) :
    ∃ p, (languageOn system).compile files path
        (assemble (languageOn system).dialect path markup) = .ok p ∧
      (languageOn system).run p = .ok (String.join (Plain.texts ps)).toUTF8 := by
  have hassemble : assemble (languageOn system).dialect path markup =
      ⟨writesSource path (Plain.texts ps), []⟩ := assemble_plain hs hd
  rw [hassemble]
  exact languageOn_runs (compile_writes system files _ hpath) (run_writes system files path _)

/-- A text without an opening marker is one literal, or nothing. -/
theorem parse_markerFree {text : String} (h : ¬ ['<', '#'] <:+: text.toList) :
    ∃ ps : List Plain, Markup.parse text = .ok ⟨ps.map Plain.segment, []⟩ ∧
      String.join (Plain.texts ps) = if Text.allBlank text.toList then "" else text := by
  have hparse : Markup.parse text = .ok (.ofSegments (literalSegments text.toList)) := by
    refine parse_eq_ok_iff.mpr ⟨⟨text.toList, []⟩, ⟨?_, h, nofun, nofun⟩, Layout.yields_iff.mpr ?_⟩
    · exact List.append_nil _
    · rw [List.flatMap_nil, List.append_nil]
  rw [hparse, literalSegments]
  split
  · rename_i he
    refine ⟨[], rfl, ?_⟩
    rw [List.isEmpty_iff.mp he]
    rfl
  · refine ⟨[.literal text], ?_, ?_⟩
    · rw [String.ofList_toList]
      rfl
    · rw [show [Plain.literal text] = [] ++ [.literal text] from rfl, Plain.texts_concat,
        Plain.text?_literal, List.any_nil, Bool.not_false, Bool.true_and]
      split
      · rfl
      · show String.join [text] = text
        rw [String.join_cons, String.join_nil, String.append_empty]

/-- What a text without an opening marker comes to, on any system and whatever files there are. -/
theorem rendering_markerFree (system : System) (files : FileSystem) {path text : String}
    (hpath : '\x00' ∉ path.toList) (h : ¬ ['<', '#'] <:+: text.toList) :
    (languageOn system).rendering files ⟨path, text⟩ =
      .output (if Text.allBlank text.toList then "" else text).toUTF8 := by
  obtain ⟨ps, hparse, htexts⟩ := parse_markerFree h
  obtain ⟨p, hcompile, hrun⟩ := runs_plain system files ⟨ps.map Plain.segment, []⟩ hpath rfl nofun
  rw [← htexts]
  exact Language.rendering_of_runs hparse hcompile hrun

theorem steady_markerFree {system : System} {path text : String} (hpath : '\x00' ∉ path.toList)
    (h : ¬ ['<', '#'] <:+: text.toList) : (languageOn system).Steady ⟨path, text⟩ :=
  fun files files' => (rendering_markerFree system files hpath h).trans
    (rendering_markerFree system files' hpath h).symm

/-- A template without code, at a path without a zero byte, is compiled and run, and its output is
its texts in order. In particular the output of a text without an opening marker is the text itself,
or nothing if it is blank. -/
theorem plain_faithful (system : System) (path : String) (hpath : '\x00' ∉ path.toList) :
    (∀ (files : FileSystem) (markup : Markup) (ps : List Plain),
      markup.segments = ps.map Plain.segment → (∀ d ∈ markup.directives, d.effect = .inert) →
      ∃ p, (languageOn system).compile files path
          (assemble (languageOn system).dialect path markup) = .ok p ∧
        (languageOn system).run p = .ok (String.join (Plain.texts ps)).toUTF8) ∧
    ∀ (options : Options) (text : String) (w : World), ¬ ['<', '#'] <:+: text.toList →
      (render (languageOn system) options ⟨path, text⟩ w).2 =
        .completed (if Text.allBlank text.toList then "" else text).toUTF8 := by
  refine ⟨fun files markup ps hs hd => runs_plain system files markup hpath hs hd,
    fun options text w h => ?_⟩
  obtain ⟨w', hrender, -⟩ := render_output options (rendering_markerFree system w.files hpath h)
  rw [hrender]

/-- A blank literal before the text is dropped, one after it is not; a control character before a
digit and a quote come out as they are, and so do pieces of markers. -/
theorem plain_faithful_mixed :
    '\x00' ∉ "/t/ä \"1\".tt".toList ∧
    (∃ p, language.compile default "/t/ä \"1\".tt" (assemble language.dialect "/t/ä \"1\".tt"
        (.ofSegments [.literal " \n", .directive ⟨"x", ""⟩, .expression (quote "\x011"),
          .literal "é\"", .literal "\u2028"])) = .ok p ∧
      language.run p = .ok "\x011é\"\u2028".toUTF8) ∧
    ¬ ['<', '#'] <:+: "< #\\0#>\n".toList ∧
    (render language {} ⟨"/t/ä \"1\".tt", "< #\\0#>\n"⟩ default).2 =
      .completed "< #\\0#>\n".toUTF8 :=
  have h := plain_faithful .isolated "/t/ä \"1\".tt" (by decide)
  ⟨by decide,
    h.1 default _ [.literal " \n", .directive ⟨"x", ""⟩, .quoted "\x011", .literal "é\"",
      .literal "\u2028"] rfl (by decide),
    by decide, h.2 {} "< #\\0#>\n" default (by decide)⟩

/-! ## A program that is no chunk -/

/-- The unit of a template that closes what it did not open. -/
def unopened : CompilationUnit := ⟨"local Host <const> = t4.host(\"/a.tt\")\n)", []⟩

theorem prepare_unopened :
    ∃ events, prepare language.dialect ⟨"/a.tt", "<#)#>"⟩ = .ok (unopened, events) := ⟨_, rfl⟩

theorem language_compile (files : FileSystem) (path : String) (unit : CompilationUnit) :
    language.compile files path unit = compile .isolated files path unit :=
  rfl

/-- The unit is refused, whatever files there are. -/
theorem compile_unopened : ∃ e, ∀ files, language.compile files "/a.tt" unopened = .error e := by
  have hrefused : (Chunk.parse (Chunk.shownName (bytesOf ("=generated:" ++ "/a.tt")))
      (bytesOf "local Host <const> = t4.host(\"/a.tt\")\n)").data.toList).isOk = false := by
    decide +kernel
  cases hparse : Chunk.parse (Chunk.shownName (bytesOf ("=generated:" ++ "/a.tt")))
      (bytesOf "local Host <const> = t4.host(\"/a.tt\")\n)").data.toList with
  | ok chunk =>
    rw [hparse] at hrefused
    cases hrefused
  | error e =>
    refine ⟨.compile (.rejected (.script e.toError)), fun files => ?_⟩
    rw [language_compile, unopened]
    exact compile_refused .isolated files (by decide) hparse

theorem rendering_unopened (files : FileSystem) :
    ∃ e, language.rendering files ⟨"/a.tt", "<#)#>"⟩ = .broken unopened.source e := by
  obtain ⟨events, hprepare⟩ := prepare_unopened
  obtain ⟨e, hcompile⟩ := compile_unopened
  refine ⟨e, ?_⟩
  rw [Language.rendering, hprepare]
  simp only [Language.perform, hcompile]

end Stencil.Lua
