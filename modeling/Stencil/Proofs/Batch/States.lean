import Stencil.Proofs.Batch.Effects
import Stencil.Proofs.Batch.Run

/-!
# The states of a batch

Each file of a batch moves through its states before the next one starts, in one of four ways, and
the language is called when a state says so and at no other time. This holds of every language with
effects (`Interpreter`), and so of the languages of the program.

* `callsFor`: the calls that events ask for;
* `Moves`: from one situation to another by transitions, with the calls that they ask for;
* `Executed`, `Rendered`, `Ended`: the states of a unit, a template and a file, with one case for
  each way out;
* `Interpreter.processFile_course`, `Interpreter.runBatch_courses`: what becomes of a file, and of
  the files of a batch;
* `runBatch_disciplined`: the states and calls of a batch.
-/

namespace Stencil

/-! ## Transitions and calls -/

instance : LawfulBEq RunState where
  eq_of_beq {a b} h := by cases a <;> cases b <;> first | rfl | cases h
  rfl {a} := by cases a <;> rfl

/-- The transition that an event reports. -/
def Event.transition? : Event → Option (String × RunState)
  | .entered template state => some (template, state)
  | _ => none

/-- The transitions among events. -/
def transitionsOf (es : List Event) : List (String × RunState) :=
  es.filterMap Event.transition?

/-- What a language is called for once a state was entered. -/
def RunState.stage? : RunState → Option Stage
  | .compiling => some .compile
  | .running => some .run
  | .parsed | .assembled | .succeeded | .failed => none

/-- The call that an event asks for, after the events up to it. -/
def Event.call? (before : List Event) (e : Event) : Option Call :=
  e.transition?.bind fun t => t.2.stage?.map (⟨·, t.1, before ++ [e]⟩)

/-- The calls that events ask for: one right after each event that a unit is compiled or run. -/
def callsFor (before : List Event) : List Event → List Call
  | [] => []
  | e :: es => (e.call? before).toList ++ callsFor (before ++ [e]) es

theorem transitionsOf_append (es es' : List Event) :
    transitionsOf (es ++ es') = transitionsOf es ++ transitionsOf es' :=
  List.filterMap_append

theorem transitionsOf_cons (e : Event) (es : List Event) :
    transitionsOf (e :: es) = e.transition?.toList ++ transitionsOf es := by
  rw [transitionsOf, List.filterMap_cons]
  cases e.transition? <;> rfl

theorem callsFor_append (before es es' : List Event) :
    callsFor before (es ++ es') = callsFor before es ++ callsFor (before ++ es) es' := by
  induction es generalizing before with
  | nil => rw [List.append_nil]; rfl
  | cons e es ih =>
    rw [List.cons_append, callsFor, callsFor, ih, List.append_assoc, List.append_assoc,
      List.singleton_append]

/-- Transitions to states in which nothing is called ask for no calls. -/
theorem callsFor_eq_nil {es : List Event} (h : ∀ t ∈ transitionsOf es, t.2.stage? = none)
    (before : List Event) : callsFor before es = [] := by
  induction es generalizing before with
  | nil => rfl
  | cons e es ih =>
    rw [transitionsOf_cons, List.forall_mem_append] at h
    have hcall : e.call? before = none := by
      rw [Event.call?, Option.bind_eq_none_iff]
      intro t ht
      rw [h.1 t (Option.mem_toList.mpr ht)]
      rfl
    rw [callsFor, hcall, ih h.2]
    rfl

/-! ## Moves -/

variable {σ : Type} {I : Interpreter σ} {d : Disk} {options : Options} {mode : Mode} {w w' : World}
  {x y z : World × σ × List Call} {ts ts' : List (String × RunState)}

/-- From one situation to another by transitions: they are reported, and with them the calls are
made that they ask for. -/
def Moves (x y : World × σ × List Call) (ts : List (String × RunState)) : Prop :=
  ∃ es, y.1.log = x.1.log ++ es ∧ y.2.2 = x.2.2 ++ callsFor x.1.log es ∧ transitionsOf es = ts

theorem Moves.refl (x : World × σ × List Call) : Moves x x [] :=
  ⟨[], (List.append_nil _).symm, (List.append_nil _).symm, rfl⟩

theorem Moves.trans (h : Moves x y ts) (h' : Moves y z ts') : Moves x z (ts ++ ts') := by
  obtain ⟨es, hlog, hcalls, rfl⟩ := h
  obtain ⟨es', hlog', hcalls', rfl⟩ := h'
  refine ⟨es ++ es', ?_, ?_, transitionsOf_append es es'⟩
  · rw [hlog', hlog, List.append_assoc]
  · rw [hcalls', hcalls, hlog, callsFor_append, List.append_assoc]

/-- A state is entered, with the call that it asks for. -/
theorem Moves.enter {template : String} {state : RunState}
    (hlog : y.1.log = x.1.log ++ [.entered template state])
    (hcalls : y.2.2 = x.2.2 ++ ((Event.entered template state).call? x.1.log).toList) :
    Moves x y [(template, state)] :=
  ⟨[.entered template state], hlog, by rw [hcalls, callsFor, callsFor, List.append_nil], rfl⟩

/-- A world with more events, none of them a transition. -/
def Reports (w w' : World) : Prop :=
  ∃ es, w'.log = w.log ++ es ∧ transitionsOf es = []

theorem Reports.same (h : w'.log = w.log) : Reports w w' :=
  ⟨[], h.trans (List.append_nil _).symm, rfl⟩

theorem Reports.one {e : Event} (h : e.transition? = none) (hlog : w'.log = w.log ++ [e]) :
    Reports w w' :=
  ⟨[e], hlog, by rw [transitionsOf_cons, h]; rfl⟩

/-- Nothing is called for events without transitions. -/
theorem Reports.moves (h : Reports x.1 w') : Moves x (w', x.2) [] := by
  obtain ⟨es, hlog, hes⟩ := h
  refine ⟨es, hlog, ?_, hes⟩
  rw [callsFor_eq_nil (by rw [hes]; exact nofun), List.append_nil]

theorem Moves.reports (h : Moves x y ts) (hr : Reports y.1 w') : Moves x (w', y.2) ts := by
  have hboth := h.trans hr.moves
  rwa [List.append_nil] at hboth

theorem Reports.then (hr : Reports x.1 w') (h : Moves (w', x.2) y ts) : Moves x y ts :=
  hr.moves.trans h

theorem Reports.transitions (h : Reports w w') : transitionsOf w'.log = transitionsOf w.log := by
  obtain ⟨es, hlog, hes⟩ := h
  rw [hlog, transitionsOf_append, hes, List.append_nil]

theorem settle_reports (options : Options) (template : Template) (u : CompilationUnit) (w : World)
    (result : Except ExecutionError ByteArray) :
    Reports w (settle d options template u w result).1 := by
  fun_cases settle d options template u w result with
  | case1 output => exact .same rfl
  | case2 e hpath => exact .same rfl
  | case3 e saved hpath files hsave => exact .same rfl
  | case4 e saved hpath io hsave => exact .one rfl rfl

theorem conclude_reports (path : String) (target : Target) (w : World)
    (attempt : Attempt ByteArray) : Reports w (conclude d path target w attempt).1 := by
  fun_cases conclude d path target w attempt with
  | case1 e => exact .same rfl
  | case2 => exact .same rfl
  | case3 output outlets e hdeliver => exact .same rfl
  | case4 output outlets hdeliver => exact .one rfl rfl

theorem diagnose_reports (w : World) (e : TransformError) : Reports w (w.diagnose e) := by
  fun_cases World.diagnose w e with
  | case1 => exact .one rfl rfl
  | case2 => exact .one rfl rfl
  | case3 => exact .same rfl

/-! ## One template -/

/-- The states that a unit enters, by the result that it has. -/
inductive Executed : List RunState → Except ExecutionError ByteArray → Prop
  | refused (e : ExecutionError) : Executed [.compiling, .failed] (.error e)
  | broken (e : ExecutionError) : Executed [.compiling, .running, .failed] (.error e)
  | output (bytes : ByteArray) : Executed [.compiling, .running, .succeeded] (.ok bytes)

/-- The transitions of a template through states. -/
def transitionsFrom (template : String) (states : List RunState) : List (String × RunState) :=
  states.map (template, ·)

/-- A unit is compiled, and it is run if that worked. -/
theorem Interpreter.execute_moves (I : Interpreter σ) (path : String) (u : CompilationUnit)
    (x : World × σ × List Call) :
    let r := I.recorded.execute path u x
    ∃ states, Executed states r.2 ∧ Moves x r.1 (transitionsFrom path states) := by
  simp only [execute, recorded]
  obtain ⟨⟨files, s⟩, result⟩ := I.compile (x.1.enter path .compiling) x.2.1 path u
  let compiled : World × σ × List Call := ((x.1.enter path .compiling).withFiles files, s,
    x.2.2 ++ [⟨.compile, path, (x.1.enter path .compiling).log⟩])
  have hcompiled : Moves x compiled [(path, .compiling)] := .enter rfl rfl
  cases result with
  | error e => exact ⟨_, .refused e, hcompiled.trans (.enter rfl (List.append_nil _).symm)⟩
  | ok program =>
    simp only [Except.map]
    obtain ⟨⟨files, s⟩, result⟩ := I.run (compiled.1.enter path .running) s program
    let ran : World × σ × List Call := ((compiled.1.enter path .running).withFiles files, s,
      compiled.2.2 ++ [⟨.run, path, (compiled.1.enter path .running).log⟩])
    have hran : Moves compiled ran [(path, .running)] := .enter rfl rfl
    cases result with
    | error e =>
      exact ⟨_, .broken e, (hcompiled.trans hran).trans (.enter rfl (List.append_nil _).symm)⟩
    | ok bytes =>
      exact ⟨_, .output bytes, (hcompiled.trans hran).trans (.enter rfl (List.append_nil _).symm)⟩

/-- The states that a template enters, by how its rendering ends. -/
inductive Rendered (template : String) : List RunState → Attempt ByteArray → Prop
  | unparsed (e : Unterminated) : Rendered template [] (.failed (.markup template e))
  | refused (e : ExecutionError) (saved : Option String) :
    Rendered template [.parsed, .assembled, .compiling, .failed]
      (.failed (.execution template e saved))
  | broken (e : ExecutionError) (saved : Option String) :
    Rendered template [.parsed, .assembled, .compiling, .running, .failed]
      (.failed (.execution template e saved))
  | output (bytes : ByteArray) :
    Rendered template [.parsed, .assembled, .compiling, .running, .succeeded] (.completed bytes)

theorem settle_error (hext : '/' ∉ options.extension.toList)
    (hsuffix : '/' ∉ options.debugSuffix.toList) (template : Template) (u : CompilationUnit)
    (w : World) (e : ExecutionError) :
    ∃ saved, (settle d options template u w (.error e)).2 =
      .failed (.execution template.path e saved) := by
  have hlong : '/' ∉ (options.debugSuffix ++ "." ++ options.extension).toList := fun hmem =>
    (slash_mem_debug hmem).elim hext hsuffix
  have hpath := Path.withExtension_ne_none (p := template.path) hlong
  rw [settle]
  split
  · rename_i hnone
    exact absurd hnone hpath
  · split
    · exact ⟨_, rfl⟩
    · exact ⟨none, rfl⟩

theorem Executed.rendered {states : List RunState} {result : Except ExecutionError ByteArray}
    (h : Executed states result) (hext : '/' ∉ options.extension.toList)
    (hsuffix : '/' ∉ options.debugSuffix.toList) (template : Template) (u : CompilationUnit)
    (w : World) : Rendered template.path (.parsed :: .assembled :: states)
      (settle d options template u w result).2 := by
  cases h with
  | refused e =>
    obtain ⟨saved, heq⟩ := settle_error hext hsuffix template u w e
    rw [heq]
    exact .refused e saved
  | broken e =>
    obtain ⟨saved, heq⟩ := settle_error hext hsuffix template u w e
    rw [heq]
    exact .broken e saved
  | output bytes => exact .output bytes

/-- Preparing a template reports that it was parsed and assembled. -/
theorem transitionsOf_prepare {dialect : Dialect} {template : Template} {u : CompilationUnit}
    {events : List Event} (h : prepare dialect template = .ok (u, events)) :
    transitionsOf events = transitionsFrom template.path [.parsed, .assembled] := by
  rw [prepare] at h
  split at h
  · cases h
  · rename_i markup _
    cases h
    have hignored :
        transitionsOf ((inertKeys markup.directives).map Event.ignoredDirective) = [] := by
      rw [transitionsOf, List.filterMap_map]
      exact List.filterMap_eq_nil_iff.mpr fun _ _ => rfl
    rw [transitionsOf_append, transitionsOf_cons, hignored]
    rfl

theorem Interpreter.render_moves (I : Interpreter σ) (hext : '/' ∉ options.extension.toList)
    (hsuffix : '/' ∉ options.debugSuffix.toList) (template : Template)
    (x : World × σ × List Call) :
    let r := I.recorded.render d options template x
    ∃ states, Rendered template.path states r.2 ∧
      Moves x r.1 (transitionsFrom template.path states) := by
  simp only [render]
  cases hprepare : prepare I.recorded.dialect template with
  | error e => exact ⟨[], .unparsed e, .refl x⟩
  | ok prepared =>
    obtain ⟨u, events⟩ := prepared
    have hevents := transitionsOf_prepare hprepare
    have hquiet : callsFor x.1.log events = [] := by
      refine callsFor_eq_nil ?_ _
      rw [hevents]
      exact List.forall_mem_map.mpr
        (show ∀ state ∈ [.parsed, .assembled], RunState.stage? state = none by decide)
    have hprepared : Moves x (x.1.reportAll events, x.2)
        (transitionsFrom template.path [.parsed, .assembled]) :=
      ⟨events, rfl, by rw [hquiet, List.append_nil], hevents⟩
    obtain ⟨states, hexecuted, hmoves⟩ :=
      I.execute_moves template.path u (x.1.reportAll events, x.2)
    exact ⟨_, hexecuted.rendered hext hsuffix template u _,
      (hprepared.trans hmoves).reports (settle_reports ..)⟩

/-! ## One file -/

/-- The states that a file enters, by how its transform ends: one case for each way out. -/
inductive Ended (template : String) : List RunState → Attempt Outcome → Prop
  | skipped : Ended template [] (.completed .skipped)
  | unread (path : String) (e : IoError) : Ended template [] (.failed (.read path e))
  | unparsed (e : Unterminated) : Ended template [] (.failed (.markup template e))
  | refused (e : ExecutionError) (saved : Option String) :
    Ended template [.parsed, .assembled, .compiling, .failed]
      (.failed (.execution template e saved))
  | broken (e : ExecutionError) (saved : Option String) :
    Ended template [.parsed, .assembled, .compiling, .running, .failed]
      (.failed (.execution template e saved))
  | undelivered (path : String) (e : IoError) :
    Ended template [.parsed, .assembled, .compiling, .running, .succeeded]
      (.failed (.output path e))
  | generated (artifact : Option String) :
    Ended template [.parsed, .assembled, .compiling, .running, .succeeded]
      (.completed (.generated artifact))

theorem Rendered.ended {template : String} {states : List RunState} {attempt : Attempt ByteArray}
    (h : Rendered template states attempt) (path : String) (target : Target) (w : World) :
    Ended template states (conclude d path target w attempt).2 := by
  cases h with
  | unparsed e => exact .unparsed e
  | refused e saved => exact .refused e saved
  | broken e saved => exact .broken e saved
  | output bytes =>
    rw [conclude]
    split
    · exact .undelivered path _
    · exact .generated _

theorem Ended.ne_abandoned {template : String} {states : List RunState} {ending : Attempt Outcome}
    (h : Ended template states ending) : ending ≠ .abandoned := by
  rintro rfl
  cases h

/-- What became of one file of a batch: its path, the path of its template, the states that it
entered, and how its transform ended. -/
structure Course where
  path : String
  template : String
  states : List RunState
  ending : Attempt Outcome

namespace Course

/-- The transitions of a course. -/
def transitions (c : Course) : List (String × RunState) :=
  transitionsFrom c.template c.states

/-- A course of a file: it ends as its states say, and transitions are those of the file's template,
by its canonical path. -/
structure Lawful (c : Course) : Prop where
  ended : Ended c.template c.states c.ending
  loaded : c.states ≠ [] → ∃ files text, loadTemplate files c.path = .ok ⟨c.template, text⟩

end Course

theorem targetOf_ne_none (hext : '/' ∉ options.extension.toList) (mode : Mode) (path : String) :
    targetOf options mode path ≠ none := by
  cases mode with
  | stream => exact nofun
  | artifact => exact fun h => Path.withExtension_ne_none hext (Option.map_eq_none_iff.mp h)

/-- The transform of a file is a course. -/
theorem Interpreter.processFile_course (I : Interpreter σ)
    (hext : '/' ∉ options.extension.toList) (hsuffix : '/' ∉ options.debugSuffix.toList)
    (mode : Mode) (path : String) (x : World × σ × List Call) :
    let r := I.recorded.processFile d options mode path x
    ∃ c : Course, c.path = path ∧ c.ending = r.2 ∧ c.Lawful ∧ Moves x r.1 c.transitions := by
  have hquiet : ∀ (ending : Attempt Outcome) (y : World × σ × List Call), Ended path [] ending →
      Moves x y [] →
        ∃ c : Course, c.path = path ∧ c.ending = ending ∧ c.Lawful ∧ Moves x y c.transitions :=
    fun ending y hended hmoves =>
      ⟨⟨path, path, [], ending⟩, rfl, rfl, ⟨hended, fun h => absurd rfl h⟩, hmoves⟩
  simp only [processFile]
  split
  · rename_i hnone
    exact absurd hnone (targetOf_ne_none hext mode path)
  · rename_i target _
    split
    · exact hquiet _ _ (.unread path _) (.refl x)
    · exact hquiet _ _ .skipped (Reports.moves (.one rfl rfl))
    · simp only [generate]
      split
      · exact hquiet _ _ (.unread path _) (Reports.moves (.one rfl rfl))
      · rename_i template hload
        obtain ⟨states, hrendered, hmoves⟩ := I.render_moves hext hsuffix template
          (x.1.report (.processing path), x.2)
        have hprocessing : Reports x.1 (x.1.report (.processing path)) := .one rfl rfl
        refine ⟨⟨path, template.path, states, _⟩, rfl, rfl, ⟨hrendered.ended path target _, ?_⟩,
          (hprocessing.then hmoves).reports (conclude_reports ..)⟩
        exact fun _ => ⟨_, template.text, hload⟩

/-! ## A batch -/

/-- How the report of a batch comes from the courses of its files: each file has a course of its
own, in order, up to the first that fails. -/
inductive Reported : List String → List Course → BatchReport → Prop
  | done : Reported [] [] ⟨[], none, false⟩
  | failed {c : Course} {e : TransformError} (rest : List String) : c.ending = .failed e →
    Reported (c.path :: rest) [c] ⟨[], some e, false⟩
  | completed {c : Course} {outcome : Outcome} {rest : List String} {courses : List Course}
    {r : BatchReport} : c.ending = .completed outcome → Reported rest courses r →
    Reported (c.path :: rest) (c :: courses) (r.cons ⟨c.path, outcome⟩)

/-- The transforms of the files of a batch are courses, one after another. -/
theorem Interpreter.runBatch_courses (I : Interpreter σ)
    (hext : '/' ∉ options.extension.toList) (hsuffix : '/' ∉ options.debugSuffix.toList)
    (mode : Mode) (files : List String) (x : World × σ × List Call) :
    let r := I.recorded.runBatch d options mode files x
    ∃ courses, Reported files courses r.2 ∧ (∀ c ∈ courses, c.Lawful) ∧
      Moves x r.1 (courses.flatMap Course.transitions) := by
  induction files generalizing x with
  | nil => exact ⟨[], .done, nofun, .refl x⟩
  | cons path rest ih =>
    obtain ⟨c, rfl, hending, hlawful, hmoves⟩ := I.processFile_course hext hsuffix mode path x
    simp only [runBatch]
    cases hfile : I.recorded.processFile d options mode c.path x with
    | mk y attempt =>
      rw [hfile] at hending hmoves
      cases attempt with
      | completed outcome =>
        obtain ⟨courses, hreported, hall, hrest⟩ := ih y
        exact ⟨c :: courses, .completed hending hreported, List.forall_mem_cons.mpr
          ⟨hlawful, hall⟩, hmoves.trans hrest⟩
      | failed e =>
        refine ⟨[c], .failed rest hending, List.forall_mem_singleton.mpr hlawful, ?_⟩
        rw [List.flatMap_singleton]
        exact hmoves.reports (diagnose_reports ..)
      | abandoned =>
        exact absurd hending hlawful.ended.ne_abandoned

/-! ## The discipline of states -/

/-- The ways of a file through its states. -/
def RunState.traces : List (List RunState) :=
  [[], [.parsed, .assembled, .compiling, .failed],
    [.parsed, .assembled, .compiling, .running, .succeeded],
    [.parsed, .assembled, .compiling, .running, .failed]]

/-- The calls that are made in a course: the unit is compiled once if there are any states, and run
once if that state is entered. -/
def Course.calls (c : Course) : List (Stage × String) :=
  if c.states = [] then []
  else (.compile, c.template) :: if RunState.running ∈ c.states then [(.run, c.template)] else []

/-- What a course says of its file. -/
structure Course.Disciplined (c : Course) : Prop where
  /-- The file goes one of four ways. -/
  trace : c.states ∈ RunState.traces
  /-- It has no states exactly if it was skipped, could not be read or has no end to a region. -/
  unstarted : c.states = [] ↔ c.ending = .completed .skipped ∨
    (∃ path e, c.ending = .failed (.read path e)) ∨ ∃ path e, c.ending = .failed (.markup path e)
  /-- The last of them is the failed one exactly if its program failed. -/
  failed : c.states.getLast? = some .failed ↔
    ∃ path e saved, c.ending = .failed (.execution path e saved)
  /-- A file whose output was written succeeded. -/
  succeeded : ∀ artifact, c.ending = .completed (.generated artifact) →
    c.states.getLast? = some .succeeded
  /-- The states are reported for the canonical path of the file. -/
  loaded : c.states ≠ [] → ∃ files text, loadTemplate files c.path = .ok ⟨c.template, text⟩

theorem Course.Lawful.disciplined {c : Course} (h : c.Lawful) : c.Disciplined := by
  obtain ⟨path, template, states, ending⟩ := c
  obtain ⟨hended, hloaded⟩ := h
  refine ⟨?_, ?_, ?_, ?_, hloaded⟩
  all_goals simp only at hended ⊢
  · cases hended <;> decide
  · cases hended <;> simp
  · cases hended <;> simp
  · rintro artifact rfl
    cases hended
    rfl

/-- The calls that events ask for, by the transitions among them. -/
theorem map_callsFor (before es : List Event) :
    (callsFor before es).map (fun call => (call.stage, call.template)) =
      (transitionsOf es).filterMap fun t => t.2.stage?.map (·, t.1) := by
  induction es generalizing before with
  | nil => rfl
  | cons e es ih =>
    rw [callsFor, List.map_append, ih, transitionsOf_cons, List.filterMap_append, Event.call?]
    congr 1
    cases e.transition? with
    | none => rfl
    | some t => cases hstage : t.2.stage? <;> simp [hstage]

theorem Course.Lawful.calls {c : Course} (h : c.Lawful) :
    c.transitions.filterMap (fun t => t.2.stage?.map (·, t.1)) = c.calls := by
  obtain ⟨path, template, states, ending⟩ := c
  obtain ⟨hended, -⟩ := h
  simp only [Course.transitions, Course.calls] at hended ⊢
  cases hended <;> rfl

section

variable {files : List String} {courses : List Course} {r : BatchReport} {e : TransformError}

/-- A course that ends in a failure is the last one, and the failure is that of the batch. -/
theorem Reported.of_failed {before after : List Course} {c : Course}
    (h : Reported files courses r) (hsplit : courses = before ++ c :: after)
    (hfailed : c.ending = .failed e) : after = [] ∧ r.failure = some e := by
  induction h generalizing before with
  | done => exact absurd hsplit.symm (by simp)
  | failed rest hending =>
    cases before with
    | nil =>
      obtain ⟨rfl, rfl⟩ := List.cons.inj hsplit
      cases hending.symm.trans hfailed
      exact ⟨rfl, rfl⟩
    | cons _ before => exact absurd (List.cons.inj hsplit).2.symm (by simp)
  | completed hending _ ih =>
    cases before with
    | nil =>
      obtain ⟨rfl, -⟩ := List.cons.inj hsplit
      cases hending.symm.trans hfailed
    | cons _ before => exact ih (List.cons.inj hsplit).2

/-- The failure of a batch is that of one of its files. -/
theorem Reported.of_failure (h : Reported files courses r) (hfailure : r.failure = some e) :
    ∃ c ∈ courses, c.ending = .failed e := by
  induction h with
  | done => cases hfailure
  | @failed c _ _ hending =>
    cases hfailure
    exact ⟨c, List.mem_cons_self, hending⟩
  | completed _ _ ih =>
    obtain ⟨c, hc, hending⟩ := ih hfailure
    exact ⟨c, List.mem_cons_of_mem _ hc, hending⟩

/-- What is reported of a file is how its course ended. -/
theorem Reported.of_completed (h : Reported files courses r) {f : FileReport}
    (hf : f ∈ r.completed) : ∃ c ∈ courses, c.path = f.path ∧ c.ending = .completed f.outcome := by
  induction h with
  | done => cases hf
  | failed _ _ => cases hf
  | @completed c outcome _ _ _ hending _ ih =>
    rcases List.mem_cons.mp hf with rfl | hf
    · exact ⟨c, List.mem_cons_self, rfl, hending⟩
    · obtain ⟨c, hc, hcourse⟩ := ih hf
      exact ⟨c, List.mem_cons_of_mem _ hc, hcourse⟩

end

/-- A batch that moves its files through their states one after another, and calls the language as
the states say. -/
structure Disciplined (files : List String) (w w' : World) (calls : List Call) (r : BatchReport)
    (courses : List Course) : Prop where
  reported : Reported files courses r
  each : ∀ c ∈ courses, c.Disciplined
  /-- The transitions are those of the courses, in order. Right after each transition to compiling
  or running comes the call that it asks for, and there are no other calls. -/
  log : ∃ es, w'.log = w.log ++ es ∧ transitionsOf es = courses.flatMap Course.transitions ∧
    calls = callsFor w.log es
  called : calls.map (fun call => (call.stage, call.template)) = courses.flatMap Course.calls
  /-- Only the last file that was processed can have failed. -/
  last : ∀ before c after, courses = before ++ c :: after →
    c.states.getLast? = some .failed → after = []
  /-- One has failed exactly if the batch fails with the program of a template. -/
  failed : (∃ c ∈ courses, c.states.getLast? = some .failed) ↔
    ∃ path e saved, r.failure = some (.execution path e saved)
  generated : ∀ f ∈ r.completed, ∀ artifact, f.outcome = .generated artifact →
    ∃ c ∈ courses, c.path = f.path ∧ c.states.getLast? = some .succeeded

theorem Reported.disciplined {files : List String} {courses : List Course} {r : BatchReport}
    {s : σ} (h : Reported files courses r) (hall : ∀ c ∈ courses, c.Lawful)
    (hmoves : Moves (w, (s, [])) y (courses.flatMap Course.transitions)) :
    Disciplined files w y.1 y.2.2 r courses := by
  have heach : ∀ c ∈ courses, c.Disciplined := fun c hc => (hall c hc).disciplined
  obtain ⟨es, hlog, hcalls, htransitions⟩ := hmoves
  rw [List.nil_append] at hcalls
  refine ⟨h, heach, ⟨es, hlog, htransitions, hcalls⟩, ?_, fun before c after hsplit hc => ?_,
    ⟨?_, ?_⟩, fun f hf artifact hmade => ?_⟩
  · rw [hcalls, map_callsFor, htransitions, List.filterMap_flatMap]
    exact List.flatMap_congr fun c hc => (hall c hc).calls
  · have hmem : c ∈ courses := hsplit ▸ List.mem_append_right _ List.mem_cons_self
    obtain ⟨path, e, saved, hending⟩ := (heach c hmem).failed.mp hc
    exact (h.of_failed hsplit hending).1
  · rintro ⟨c, hmem, hc⟩
    obtain ⟨path, e, saved, hending⟩ := (heach c hmem).failed.mp hc
    obtain ⟨before, after, hsplit⟩ := List.append_of_mem hmem
    exact ⟨path, e, saved, (h.of_failed hsplit hending).2⟩
  · rintro ⟨path, e, saved, hfailure⟩
    obtain ⟨c, hmem, hending⟩ := h.of_failure hfailure
    exact ⟨c, hmem, (heach c hmem).failed.mpr ⟨path, e, saved, hending⟩⟩
  · obtain ⟨c, hmem, hpath, hending⟩ := h.of_completed hf
    rw [hmade] at hending
    exact ⟨c, hmem, hpath, (heach c hmem).succeeded artifact hending⟩

theorem Interpreter.disciplined (I : Interpreter σ) (d : Disk) (hext : '/' ∉ options.extension.toList)
    (hsuffix : '/' ∉ options.debugSuffix.toList) (mode : Mode) (files : List String) (w : World)
    (s : σ) :
    let r := I.runBatch d options mode files (w, s)
    ∃ calls courses, I.recorded.runBatch d options mode files (w, (s, [])) =
        ((r.1.1, (r.1.2, calls)), r.2) ∧
      Disciplined files w r.1.1 calls r.2 courses := by
  intro r
  obtain ⟨courses, hreported, hall, hmoves⟩ :=
    I.runBatch_courses hext hsuffix mode files (w, (s, []))
  have hr : r = unrecorded (I.recorded.runBatch d options mode files (w, (s, []))) :=
    (runBatch_recorded (w, (s, [])) files).symm
  rw [hr]
  exact ⟨_, courses, rfl, hreported.disciplined hall hmoves⟩

/-- Batches are disciplined, for every language with effects and every disk, and so for every
language of the program. The calls are those on the record of the interpreter. -/
theorem runBatch_disciplined (options : Options) (mode : Mode)
    (hext : '/' ∉ options.extension.toList) (hsuffix : '/' ∉ options.debugSuffix.toList)
    (files : List String) (w : World) :
    (∀ {σ : Type} (I : Interpreter σ) (d : Disk) (s : σ),
      let r := I.runBatch d options mode files (w, s)
      ∃ calls courses, I.recorded.runBatch d options mode files (w, (s, [])) =
          ((r.1.1, (r.1.2, calls)), r.2) ∧
        Disciplined files w r.1.1 calls r.2 courses) ∧
    ∀ language : Language,
      let r := runBatch language options mode files w
      ∃ calls courses,
        language.interpreter.recorded.runBatch .sound options mode files (w, ((), [])) =
          ((r.1, ((), calls)), r.2) ∧
        Disciplined files w r.1 calls r.2 courses :=
  ⟨fun I d s => I.disciplined d hext hsuffix mode files w s, fun language =>
    language.interpreter.disciplined .sound hext hsuffix mode files w ()⟩

/-- A world with a template that has a newer artifact, one that has none, and one that has an open
region. -/
def mixedWorld : World where
  outlets := ⟨⟨.directory [("a.rs", .file "old".toUTF8 4), ("a.tt", .file "x".toUTF8 3),
    ("b.tt", .file "y".toUTF8 3), ("c.tt", .file "<#".toUTF8 3)] 0, "/", 5⟩, {}⟩
  diagnostics := {}
  log := []

/-- The first template is skipped, the second one is generated, and the third one fails. -/
theorem mixedWorld_run :
    let r := runBatch Lua.language {} .artifact ["/a.tt", "/b.tt", "/c.tt"] mixedWorld
    r.2.completed = [⟨"/a.tt", .skipped⟩, ⟨"/b.tt", .generated (some "/b.rs")⟩] ∧
      ∃ e, r.2.failure = some (.markup "/c.tt" e) := by
  intro r
  have hskipped : processFile Lua.language {} .artifact "/a.tt" mixedWorld =
      (mixedWorld.report (.skipped "/a.tt"), .completed .skipped) := by
    have hpath : Host.artifactPath "/a.tt" "rs" = some "/a.rs" := by decide
    exact @processFile_fresh _ {} "/a.tt" mixedWorld "/a.rs" 3 4 rfl hpath rfl rfl (by decide)
  have hb : mixedWorld.files.Leads "/b.tt" ["b.tt"] := .file (by decide) (by decide)
  have hb' : mixedWorld.files.Leads "/b.rs" ["b.rs"] :=
    @FileSystem.Leads.free _ _ [] "b.rs" (by decide)
  obtain ⟨v, hmade, hwrote⟩ := @processFile_output Lua.language {} "/b.tt"
    (mixedWorld.report (.skipped "/a.tt")) "/b.rs" "y" 3 "y".toUTF8 _ _ hb rfl (by decide) hb' rfl
    (Lua.rendering_markerFree .isolated _ (by decide) (by decide))
  -- The artifact that was made is nothing to the third file.
  have hc : v.files.Leads "/c.tt" ["c.tt"] := hwrote.leads (.file (by decide) (by decide))
  have htext : v.files.root.sightAt ["c.tt"] = some (.file "<#".toUTF8 3) :=
    (hwrote.sightAt_other (by decide)).trans rfl
  have hfree : v.files.root.sightAt ["c.rs"] = none := (hwrote.sightAt_other (by decide)).trans rfl
  have hc' : v.files.Leads "/c.rs" ["c.rs"] :=
    hwrote.leads (@FileSystem.Leads.free _ _ [] "c.rs" (by decide))
  have hstale : isFresh {} v.files "/c.tt" (.artifact "/c.rs") = .ok false := by
    rw [isFresh, isUpToDate, hc'.modifiedAt_free hfree]
    rfl
  have hfailed : (processFile Lua.language {} .artifact "/c.tt" v).2 =
      .failed (.markup "/c.tt" ⟨0, 1, 1⟩) :=
    processFile_unterminated (by decide) hstale (loadTemplate_of_text hc htext) rfl
  cases hthird : processFile Lua.language {} .artifact "/c.tt" v with
  | mk u attempt =>
    rw [hthird] at hfailed
    cases hfailed
    simp only [r, runBatch_cons, hskipped, hmade, hthird]
    exact ⟨rfl, _, rfl⟩

/-- The first file that completed has the first course. -/
theorem Reported.of_cons {files : List String} {courses : List Course} {r : BatchReport}
    {f : FileReport} {others : List FileReport} (h : Reported files courses r)
    (hr : r.completed = f :: others) :
    ∃ c rest courses' r', courses = c :: courses' ∧ c.ending = .completed f.outcome ∧
      Reported rest courses' r' ∧ r'.completed = others ∧ r'.failure = r.failure := by
  cases h with
  | done => cases hr
  | failed _ _ => cases hr
  | @completed c outcome rest courses' r' hending hrest =>
    obtain ⟨rfl, rfl⟩ := List.cons.inj hr
    exact ⟨c, rest, courses', r', rfl, hending, hrest, rfl, rfl⟩

/-- If no file completed, a failure is that of the only course. -/
theorem Reported.of_nil {files : List String} {courses : List Course} {r : BatchReport}
    {e : TransformError} (h : Reported files courses r) (hr : r.completed = [])
    (hfailure : r.failure = some e) : ∃ c, courses = [c] ∧ c.ending = .failed e := by
  cases h with
  | done => cases hfailure
  | @failed c _ _ hending =>
    cases hfailure
    exact ⟨c, rfl, hending⟩
  | completed _ _ => cases hr

/-- A course that succeeded went through all of its states. -/
theorem Course.Disciplined.states_of_succeeded {c : Course} (h : c.Disciplined)
    (hlast : c.states.getLast? = some .succeeded) :
    c.states = [.parsed, .assembled, .compiling, .running, .succeeded] := by
  have htrace := h.trace
  simp only [RunState.traces, List.mem_cons, List.not_mem_nil, or_false] at htrace
  rcases htrace with heq | heq | heq | heq
  all_goals rw [heq] at hlast
  · cases hlast
  · cases hlast
  · exact heq
  · cases hlast

/-- A template that does not compile is compiled, and fails. -/
theorem transitionsOf_generate_refused {language : Language} {path : String} {target : Target}
    {template : Template} {u : CompilationUnit} {events : List Event} {e : ExecutionError}
    (hload : loadTemplate w.files path = .ok template)
    (hprepare : prepare language.dialect template = .ok (u, events))
    (hcompile : ∀ files, language.compile files template.path u = .error e) :
    transitionsOf (generate language options path target w).1.log = transitionsOf w.log ++
      transitionsFrom template.path [.parsed, .assembled, .compiling, .failed] := by
  have hdialect : language.interpreter.dialect = language.dialect := rfl
  have hcompile (w : World) : language.interpreter.compile w () template.path u =
      ((w.files, ()), .error e) :=
    congrArg (Prod.mk (w.files, ())) (hcompile w.files)
  simp only [generate, stateless, Interpreter.generate, hload, Interpreter.render, hdialect,
    hprepare, Interpreter.execute, hcompile]
  rw [(conclude_reports ..).transitions, (settle_reports ..).transitions]
  show transitionsOf (((w.log ++ events) ++ [.entered template.path .compiling]) ++
    [.entered template.path .failed]) = _
  simp only [transitionsOf_append, transitionsOf_prepare hprepare, List.append_assoc]
  rfl

theorem transitionsOf_runBatch_singleton (language : Language) (options : Options) (mode : Mode)
    (path : String) (w : World) :
    transitionsOf (runBatch language options mode [path] w).1.log =
      transitionsOf (processFile language options mode path w).1.log := by
  rw [runBatch_cons]
  split
  · rename_i hfile
    rw [hfile]
    rfl
  · rename_i hfile
    rw [hfile, (diagnose_reports _ _).transitions]
  · rename_i hfile
    rw [hfile]

/-- A template that does not compile is compiled once, and not run. Of three files, the one that is
generated is the only one to enter a state. -/
theorem runBatch_disciplined_broken :
    (let r := runBatch Lua.language {} .stream ["/a.tt"] brokenWorld
    transitionsOf r.1.log =
        transitionsFrom "/a.tt" [.parsed, .assembled, .compiling, .failed] ∧
      ∃ calls courses,
        Lua.language.interpreter.recorded.runBatch .sound {} .stream ["/a.tt"]
          (brokenWorld, ((), [])) = ((r.1, ((), calls)), r.2) ∧
        Disciplined ["/a.tt"] brokenWorld r.1 calls r.2 courses ∧
        calls.map (fun call => (call.stage, call.template)) = [(.compile, "/a.tt")]) ∧
    let files := ["/a.tt", "/b.tt", "/c.tt"]
    let r := runBatch Lua.language {} .artifact files mixedWorld
    r.2.completed = [⟨"/a.tt", .skipped⟩, ⟨"/b.tt", .generated (some "/b.rs")⟩] ∧
      r.2.failure ≠ none ∧
      ∃ calls courses, Disciplined files mixedWorld r.1 calls r.2 courses ∧
        courses.map Course.states =
          [[], [.parsed, .assembled, .compiling, .running, .succeeded], []] ∧
        calls.map Call.stage = [.compile, .run] := by
  constructor
  · intro r
    have htransitions : transitionsOf r.1.log =
        transitionsFrom "/a.tt" [.parsed, .assembled, .compiling, .failed] := by
      have hfile : brokenWorld.files.Leads "/a.tt" ["a.tt"] := .file (by decide) (by decide)
      obtain ⟨events, hprepare⟩ := Lua.prepare_unopened
      obtain ⟨e, hcompile⟩ := Lua.compile_unopened
      have hprocess : processFile Lua.language {} .stream "/a.tt" brokenWorld =
          generate Lua.language {} "/a.tt" .shared (brokenWorld.report (.processing "/a.tt")) := by
        simp only [processFile_eq, targetOf, isFresh]
      have hload : loadTemplate (brokenWorld.report (.processing "/a.tt")).files "/a.tt" =
        .ok ⟨"/a.tt", "<#)#>"⟩ := loadTemplate_of_text hfile rfl
      rw [transitionsOf_runBatch_singleton, hprocess,
        transitionsOf_generate_refused hload hprepare hcompile]
      rfl
    obtain ⟨calls, courses, hrecorded, hdisciplined⟩ :=
      (runBatch_disciplined {} .stream (by decide) (by decide) ["/a.tt"] brokenWorld).2 Lua.language
    refine ⟨htransitions, calls, courses, hrecorded, hdisciplined, ?_⟩
    obtain ⟨es, hlog, -, hcalls⟩ := hdisciplined.log
    have hes : r.1.log = es := hlog.trans (List.nil_append es)
    rw [hcalls, map_callsFor, ← hes, htransitions]
    rfl
  · intro files r
    obtain ⟨hcompleted, e, hfailure⟩ := mixedWorld_run
    obtain ⟨calls, courses, -, hdisciplined⟩ :=
      (runBatch_disciplined {} .artifact (by decide) (by decide) files mixedWorld).2 Lua.language
    refine ⟨hcompleted, hfailure.trans_ne (Option.some_ne_none _), calls, courses, hdisciplined, ?_⟩
    -- There is a course for each file, and it says how the file ended.
    have hreported := hdisciplined.reported
    obtain ⟨c, _, _, r₁, hcourses, hskipped, hreported, hcompleted₁, hfailure₁⟩ :=
      hreported.of_cons hcompleted
    obtain ⟨c', _, _, r₂, hcourses', hmade, hreported, hcompleted₂, hfailure₂⟩ :=
      hreported.of_cons hcompleted₁
    obtain ⟨c'', hcourses'', hfailed⟩ :=
      hreported.of_nil hcompleted₂ ((hfailure₂.trans hfailure₁).trans hfailure)
    subst hcourses'' hcourses' hcourses
    have heach := hdisciplined.each
    simp only [List.forall_mem_cons, List.not_mem_nil, false_implies, implies_true,
      and_true] at heach
    obtain ⟨hc, hc', hc''⟩ := heach
    have hstates : c.states = [] := hc.unstarted.mpr (.inl hskipped)
    have hstates' := hc'.states_of_succeeded (hc'.succeeded _ hmade)
    have hstates'' : c''.states = [] := hc''.unstarted.mpr (.inr (.inr ⟨_, _, hfailed⟩))
    have hcalls := congrArg (List.map Prod.fst) hdisciplined.called
    simp only [List.flatMap_cons, List.flatMap_nil, Course.calls, hstates, hstates', hstates'',
      List.map_map] at hcalls
    exact ⟨by rw [List.map_cons, List.map_cons, List.map_singleton, hstates, hstates', hstates''],
      hcalls.trans rfl⟩

end Stencil
