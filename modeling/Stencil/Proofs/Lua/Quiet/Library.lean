import Stencil.Proofs.Lua.Quiet.Text
import Stencil.Proofs.Lua.Unit

/-!
# Functions of the libraries write nothing

Every function of the libraries but `write`, `writeln` and `print` leaves the output as it is, and
so does every function written in Lua. What they call writes for itself.

* `Basic.pcall_quiet`, `Engine.globalText_quiet`, and the like: functions one by one;
* `Builtin.apply_quiet`: all of them but three;
* `Machine.body_quiet`: any function that a program can call but those three.
-/

namespace Stencil.Lua

variable {α : Type}

/-! ## Basic functions -/

instance Basic.error_quiet (vs : List Value) : (Basic.error vs).Quiet := by
  unfold Basic.error
  refine .bind inferInstance fun _ => ?_
  split <;> infer_instance

instance Basic.assert_quiet (vs : List Value) : (Basic.assert vs).Quiet := by
  unfold Basic.assert
  refine .bind inferInstance fun _ => ?_
  split
  · infer_instance
  · split <;> infer_instance

instance Basic.pcall_quiet (vs : List Value) : (Basic.pcall vs).Quiet := by
  unfold Basic.pcall
  split <;> infer_instance

instance Basic.xpcall_quiet (vs : List Value) : (Basic.xpcall vs).Quiet := by
  unfold Basic.xpcall
  split <;> infer_instance

instance Basic.type_quiet (vs : List Value) : (Basic.type vs).Quiet := by
  unfold Basic.type
  infer_instance

instance Basic.tostring_quiet (vs : List Value) : (Basic.tostring vs).Quiet := by
  unfold Basic.tostring
  infer_instance

instance Basic.getmetatable_quiet (vs : List Value) : (Basic.getmetatable vs).Quiet := by
  unfold Basic.getmetatable
  refine .bind inferInstance fun _ => .bind inferInstance fun _ => ?_
  split
  · infer_instance
  · split <;> infer_instance

instance Basic.setmetatable_quiet (vs : List Value) : (Basic.setmetatable vs).Quiet := by
  unfold Basic.setmetatable
  refine .bind inferInstance fun place => ?_
  extract_lets set
  have hset (m : Option Nat) : (set m).Quiet := by
    refine .bind inferInstance fun s => ?_
    split
    · infer_instance
    · exact .bind (.modify fun _ => rfl) fun _ => .pure _
  split
  · infer_instance
  · split <;> infer_instance

instance Basic.rawequal_quiet (vs : List Value) : (Basic.rawequal vs).Quiet := by
  unfold Basic.rawequal
  infer_instance

instance Basic.rawlen_quiet (vs : List Value) : (Basic.rawlen vs).Quiet := by
  unfold Basic.rawlen
  split <;> infer_instance

instance Basic.rawget_quiet (vs : List Value) : (Basic.rawget vs).Quiet := by
  unfold Basic.rawget
  refine .bind inferInstance fun _ => .bind inferInstance fun _ => ?_
  split <;> infer_instance

instance Basic.rawset_quiet (vs : List Value) : (Basic.rawset vs).Quiet := by
  unfold Basic.rawset
  infer_instance

instance Basic.next_quiet (vs : List Value) : (Basic.next vs).Quiet := by
  unfold Basic.next
  refine .bind inferInstance fun _ => .bind inferInstance fun _ => ?_
  extract_lets refused after
  have hafter (k : Option Key) : (after k).Quiet := by
    dsimp only [after]
    split <;> infer_instance
  split
  · infer_instance
  · split <;> infer_instance

instance Basic.pairs_quiet (vs : List Value) : (Basic.pairs vs).Quiet := by
  unfold Basic.pairs
  refine .bind inferInstance fun _ => .bind inferInstance fun _ => ?_
  split <;> infer_instance

instance Basic.ipairs_quiet (vs : List Value) : (Basic.ipairs vs).Quiet := by
  unfold Basic.ipairs
  infer_instance

instance Basic.ipairsStep_quiet (vs : List Value) : (Basic.ipairsStep vs).Quiet := by
  unfold Basic.ipairsStep
  refine .bind inferInstance fun _ => ?_
  extract_lets i
  clear_value i
  refine .bind inferInstance fun _ => ?_
  split <;> infer_instance

instance Basic.select_quiet (vs : List Value) : (Basic.select vs).Quiet := by
  unfold Basic.select
  extract_lets count __do_jp
  clear_value count
  split <;> infer_instance

instance Basic.tonumber_quiet (vs : List Value) : (Basic.tonumber vs).Quiet := by
  unfold Basic.tonumber
  split
  · refine .bind inferInstance fun _ => ?_
    split <;> infer_instance
  · refine .bind inferInstance fun _ => ?_
    split
    · refine .bind inferInstance fun _ => ?_
      split <;> infer_instance
    · infer_instance

/-- Loading a chunk writes nothing. -/
theorem Store.output_load {s s' : Store} {name source : Bytes} {env f : Value}
    (h : s.load name source env = .ok (f, s')) : s'.output = s.output := by
  obtain ⟨proto, -, rfl⟩ := Store.load_ok h
  rfl

theorem Store.output_undump {s s' : Store} {bytes : Bytes} {env f : Value}
    (h : s.undump bytes env = .ok (f, s')) : s'.output = s.output := by
  unfold Store.undump at h
  split at h
  · cases h
  · obtain ⟨-, rfl⟩ := Prod.mk.inj (Except.ok.inj h)
    rfl

theorem Store.output_loadChunk {s s' : Store} {name chunk : Bytes} {env f : Value}
    (h : s.loadChunk name chunk env = .ok (f, s')) : s'.output = s.output := by
  unfold Store.loadChunk at h
  split at h
  · exact Store.output_undump h
  · exact Store.output_load h

theorem Store.output_loadFile {s s' : Store} {path : Bytes} {env f : Value}
    (h : s.loadFile path env = .ok (f, s')) : s'.output = s.output := by
  unfold Store.loadFile at h
  split at h
  · exact Store.output_loadChunk h
  · cases h

/-- A part that looks at the store and may go on with another one. -/
theorem Run.Quiet.inspectStore {g : Store → Run α}
    (h : ∀ s k, (∀ a s', (k a s' : Action).Keeps Store.output s'.output) →
      (g s s k).Keeps Store.output s.output) : (Run.store >>= g).Quiet :=
  ⟨h⟩

theorem Run.Quiet.adopt {r : Run α} [hr : r.Quiet] {s s' : Store} {k : α → Store → Action}
    (h : s'.output = s.output) (hk : ∀ a s', (k a s').Keeps Store.output s'.output) :
    ((Run.modify (fun _ => s') >>= fun _ => r) s k).Keeps Store.output s.output :=
  h ▸ hr.keeps s' k hk

theorem Basic.loaded_quiet {load : Store → Except Malformed (Value × Store)}
    (hload : ∀ {s f s'}, load s = .ok (f, s') → s'.output = s.output) :
    (Basic.loaded load).Quiet := by
  unfold Basic.loaded
  refine .inspectStore fun s k hk => ?_
  cases hloaded : load s with
  | ok loaded => exact Run.Quiet.adopt (hload hloaded) hk
  | error e => exact Run.Quiet.keeps s k hk

instance Basic.readPieces_quiet (reader : Value) (fuel : Nat) (text : Bytes) :
    (Basic.readPieces reader fuel text).Quiet := by
  induction fuel generalizing text with
  | zero =>
    unfold Basic.readPieces
    infer_instance
  | succ fuel ih =>
    unfold Basic.readPieces
    refine .bind inferInstance fun _ => ?_
    split
    · infer_instance
    · split <;> infer_instance

instance Basic.loadSource_quiet (chunk name mode : Bytes) (env : Value) :
    (Basic.loadSource chunk name mode env).Quiet := by
  unfold Basic.loadSource
  split
  · infer_instance
  · exact Basic.loaded_quiet Store.output_loadChunk

instance Basic.load_quiet (vs : List Value) : (Basic.load vs).Quiet := by
  unfold Basic.load
  refine .bind inferInstance fun _ => ?_
  extract_lets env
  clear_value env
  split
  · infer_instance
  · refine .bind inferInstance fun _ => .bind inferInstance fun _ => .bind inferInstance fun _ => ?_
    split <;> infer_instance

instance Basic.standardChunk_quiet (function : Builtin) :
    (Basic.standardChunk function).Quiet := by
  unfold Basic.standardChunk
  infer_instance

instance Basic.loadfile_quiet (vs : List Value) : (Basic.loadfile vs).Quiet := by
  unfold Basic.loadfile
  refine .bind inferInstance fun _ => .bind inferInstance fun _ => ?_
  extract_lets env
  clear_value env
  split
  · infer_instance
  · refine .bind inferInstance fun _ => ?_
    split <;> infer_instance

theorem Basic.perform_quiet {load : Store → Except Malformed (Value × Store)}
    (hload : ∀ {s f s'}, load s = .ok (f, s') → s'.output = s.output) :
    (Basic.perform load).Quiet := by
  unfold Basic.perform
  refine .inspectStore fun s k hk => ?_
  cases hloaded : load s with
  | ok loaded => exact Run.Quiet.adopt (hload hloaded) hk
  | error e => exact Run.Quiet.keeps s k hk

instance Basic.dofile_quiet (vs : List Value) : (Basic.dofile vs).Quiet := by
  unfold Basic.dofile
  refine .bind inferInstance fun path => ?_
  split
  · exact .bind inferInstance fun _ => Basic.perform_quiet Store.output_loadChunk
  · exact Basic.perform_quiet Store.output_loadFile

instance Basic.warn_quiet (vs : List Value) : (Basic.warn vs).Quiet := by
  unfold Basic.warn
  infer_instance

instance Basic.collectgarbage_quiet (vs : List Value) : (Basic.collectgarbage vs).Quiet := by
  unfold Basic.collectgarbage
  infer_instance

/-! ## Coroutines -/

instance Run.threadStatus_quiet (thread : Nat) : (Run.threadStatus thread).Quiet :=
  ⟨fun _ _ hk => ⟨rfl, hk⟩⟩

instance Run.currentThread_quiet : Run.currentThread.Quiet :=
  ⟨fun _ _ hk => ⟨rfl, fun thread main yields => hk (thread, main, yields)⟩⟩

instance Run.createThread_quiet (f : Value) : (Run.createThread f).Quiet := ⟨fun _ _ hk => ⟨rfl, hk⟩⟩

instance Run.resume_quiet (thread : Nat) (args : List Value) : (Run.resume thread args).Quiet :=
  ⟨fun _ _ hk => ⟨rfl, hk⟩⟩

instance Run.yield_quiet (vs : List Value) : (Run.yield vs).Quiet := ⟨fun _ _ hk => ⟨rfl, hk⟩⟩

instance Run.closeThread_quiet (thread : Nat) : (Run.closeThread thread).Quiet :=
  ⟨fun _ _ hk => ⟨rfl, hk⟩⟩

instance Coroutines.thread_quiet (n : Nat) (vs : List Value) : (Coroutines.thread n vs).Quiet := by
  unfold Coroutines.thread
  split <;> infer_instance

instance Coroutines.create_quiet (vs : List Value) : (Coroutines.create vs).Quiet := by
  unfold Coroutines.create
  infer_instance

instance Coroutines.wrap_quiet (vs : List Value) : (Coroutines.wrap vs).Quiet := by
  unfold Coroutines.wrap
  refine .bind inferInstance fun _ => .bind inferInstance fun _ =>
    .bind (.modifyGet fun _ => rfl) fun _ => ?_
  infer_instance

instance Coroutines.resume_quiet (vs : List Value) : (Coroutines.resume vs).Quiet := by
  unfold Coroutines.resume
  refine .bind inferInstance fun _ => .bind inferInstance fun _ => ?_
  split <;> infer_instance

instance Coroutines.wrapStep_quiet (t : Nat) (vs : List Value) :
    (Coroutines.wrapStep t vs).Quiet := by
  unfold Coroutines.wrapStep
  refine .bind inferInstance fun _ => ?_
  split
  · infer_instance
  · refine .bind inferInstance fun _ => ?_
    extract_lets reraise
    have hreraise (e : Value) : (reraise e).Quiet := by
      dsimp only [reraise]
      split <;> infer_instance
    split
    · refine .bind inferInstance fun _ => ?_
      split <;> infer_instance
    · infer_instance

instance Coroutines.yield_quiet (vs : List Value) : (Coroutines.yield vs).Quiet := by
  unfold Coroutines.yield
  infer_instance

instance Coroutines.status_quiet (vs : List Value) : (Coroutines.status vs).Quiet := by
  unfold Coroutines.status
  infer_instance

instance Coroutines.running_quiet (vs : List Value) : (Coroutines.running vs).Quiet := by
  unfold Coroutines.running
  infer_instance

instance Coroutines.isyieldable_quiet (vs : List Value) : (Coroutines.isyieldable vs).Quiet := by
  unfold Coroutines.isyieldable
  refine .bind inferInstance fun _ => ?_
  split
  · split <;> infer_instance

instance Coroutines.close_quiet (vs : List Value) : (Coroutines.close vs).Quiet := by
  unfold Coroutines.close
  refine .bind inferInstance fun _ => .bind inferInstance fun _ => ?_
  split
  · refine .bind inferInstance fun _ => ?_
    split <;> infer_instance
  · refine .bind inferInstance fun _ => ?_
    split <;> infer_instance
  · infer_instance

/-! ## Functions of the engine -/

instance Engine.failureOf_quiet (e : Value) : (Engine.failureOf e).Quiet := by
  unfold Engine.failureOf
  refine .bind inferInstance fun _ => ?_
  extract_lets raised
  have hraised : raised.Quiet := by
    dsimp only [raised]
    refine .bind inferInstance fun _ => ?_
    split <;> infer_instance
  split
  · split <;> infer_instance
  · infer_instance

instance Engine.throw_quiet (e : ScriptError) :
    Run.Quiet (Engine.throw e : Run α) := by
  unfold Engine.throw
  refine .bind (.modifyGet fun _ => rfl) fun _ => ?_
  infer_instance

instance Engine.fail_quiet (cause : ScriptError) :
    Run.Quiet (Engine.fail cause : Run α) := by
  unfold Engine.fail
  infer_instance

instance Engine.textArgument_quiet (callee : Option String) (n : Nat) (v : Value) :
    (Engine.textArgument callee n v).Quiet := by
  unfold Engine.textArgument
  refine .bind inferInstance fun _ => ?_
  extract_lets bad
  split
  · infer_instance
  · split <;> infer_instance

instance Engine.functionField_quiet (place : Nat) (name : String) :
    (Engine.functionField place name).Quiet := by
  unfold Engine.functionField
  refine .bind inferInstance fun _ => ?_
  split <;> infer_instance

instance Engine.globalText_quiet (v : Value) : (Engine.globalText v).Quiet := by
  unfold Engine.globalText
  refine .bind inferInstance fun _ => ?_
  split
  · infer_instance
  · refine .bind inferInstance fun _ => ?_
    split
    · infer_instance
    · extract_lets result
      clear_value result
      split <;> infer_instance

instance Engine.textOf_quiet (v : Value) : (Engine.textOf v).Quiet := by
  unfold Engine.textOf
  refine .bind inferInstance fun _ => ?_
  split <;> infer_instance

instance Engine.host_quiet (vs : List Value) : (Engine.host vs).Quiet := by
  unfold Engine.host
  refine .bind inferInstance fun _ => .bind (.modifyGet fun _ => rfl) fun _ => ?_
  infer_instance

instance Engine.hostArgument_quiet (callee : Option String) (vs : List Value) :
    (Engine.hostArgument callee vs).Quiet := by
  unfold Engine.hostArgument
  refine .bind inferInstance fun _ => ?_
  extract_lets bad
  split
  · infer_instance
  · split <;> infer_instance
  · infer_instance

instance Engine.hostIndex_quiet (vs : List Value) : (Engine.hostIndex vs).Quiet := by
  unfold Engine.hostIndex
  refine .bind inferInstance fun _ => ?_
  split
  · split <;> infer_instance
  · infer_instance

instance Engine.hostResolve_quiet (vs : List Value) : (Engine.hostResolve vs).Quiet := by
  unfold Engine.hostResolve
  infer_instance

instance Engine.hostText_quiet (vs : List Value) : (Engine.hostText vs).Quiet := by
  unfold Engine.hostText
  infer_instance

instance Engine.failureText_quiet (vs : List Value) : (Engine.failureText vs).Quiet := by
  unfold Engine.failureText
  split
  · refine .bind inferInstance fun _ => ?_
    split <;> infer_instance
  · infer_instance

instance Engine.loadlib_quiet (vs : List Value) : (Engine.loadlib vs).Quiet := by
  unfold Engine.loadlib
  infer_instance

/-! ## Files -/

instance Files.refuseClosed_quiet : Run.Quiet (Files.refuseClosed : Run α) := by
  unfold Files.refuseClosed
  infer_instance

instance Files.anyFile_quiet (n : Nat) (vs : List Value) : (Files.anyFile n vs).Quiet := by
  unfold Files.anyFile
  refine .bind inferInstance fun _ => ?_
  split
  · split <;> infer_instance
  · infer_instance

instance Files.openFile_quiet (n : Nat) (vs : List Value) : (Files.openFile n vs).Quiet := by
  unfold Files.openFile
  infer_instance

instance Files.format_quiet (n : Nat) (vs : List Value) : (Files.format n vs).Quiet := by
  unfold Files.format
  split
  · infer_instance
  · infer_instance
  · refine .bind inferInstance fun _ => ?_
    extract_lets cs cs
    clear_value cs
    split <;> infer_instance

instance Files.formatsFrom_quiet (vs : List Value) (fuel i : Nat) :
    (Files.formatsFrom vs fuel i).Quiet := by
  induction fuel generalizing i with
  | zero =>
    unfold Files.formatsFrom
    infer_instance
  | succ fuel ih =>
    unfold Files.formatsFrom
    infer_instance

instance Files.formats_quiet (n : Nat) (vs : List Value) : (Files.formats n vs).Quiet := by
  unfold Files.formats
  refine .bind inferInstance fun _ => ?_
  split <;> infer_instance

instance Files.defaultFile_quiet (kind : String) (file : Value) :
    (Files.defaultFile kind file).Quiet := by
  unfold Files.defaultFile
  infer_instance

instance Files.use_quiet (function : Builtin) (given : List Datum) (place : Nat) (f : OpenFile) :
    (Files.use function given place f).Quiet := by
  unfold Files.use
  infer_instance

instance Files.readFrom_quiet (place : Nat) (f : OpenFile) (fs : List ReadFormat) :
    (Files.readFrom place f fs).Quiet := by
  unfold Files.readFrom
  infer_instance

instance Files.read_quiet (vs : List Value) : (Files.read vs).Quiet := by
  unfold Files.read
  infer_instance

instance Files.readInput_quiet (vs : List Value) : (Files.readInput vs).Quiet := by
  unfold Files.readInput
  infer_instance

instance Files.openPath_quiet (vs : List Value) : (Files.openPath vs).Quiet := by
  unfold Files.openPath
  infer_instance

instance Files.openOrComplain_quiet (path : Bytes) (mode : String) :
    (Files.openOrComplain path mode).Quiet := by
  unfold Files.openOrComplain
  refine .bind inferInstance fun _ => ?_
  split
  · exact .bind (.modifyGet fun _ => rfl) fun _ => .pure _
  · infer_instance
  · infer_instance
  · infer_instance
  · infer_instance

instance Files.openProgram_quiet (vs : List Value) : (Files.openProgram vs).Quiet := by
  unfold Files.openProgram
  infer_instance

instance Files.openTemporary_quiet (vs : List Value) : (Files.openTemporary vs).Quiet := by
  unfold Files.openTemporary
  infer_instance

instance Files.iterator_quiet (place : Nat) (fs : List ReadFormat) (closing : Bool) :
    (Files.iterator place fs closing).Quiet := by
  unfold Files.iterator
  refine .bind (.modifyGet fun _ => rfl) fun _ => ?_
  infer_instance

instance Files.lines_quiet (vs : List Value) : (Files.lines vs).Quiet := by
  unfold Files.lines
  infer_instance

instance Files.linesOf_quiet (vs : List Value) : (Files.linesOf vs).Quiet := by
  unfold Files.linesOf
  infer_instance

instance Files.closeAt_quiet (place : Nat) (f : OpenFile) : (Files.closeAt place f).Quiet := by
  unfold Files.closeAt
  split
  · infer_instance
  · exact .bind (.modify fun _ => rfl) fun _ => inferInstance

instance Files.close_quiet (vs : List Value) : (Files.close vs).Quiet := by
  unfold Files.close
  infer_instance

instance Files.closeAny_quiet (vs : List Value) : (Files.closeAny vs).Quiet := by
  unfold Files.closeAny
  infer_instance

instance Files.closeScope_quiet (vs : List Value) : (Files.closeScope vs).Quiet := by
  unfold Files.closeScope
  infer_instance

instance Files.linesStep_quiet (place : Nat) (fs : List ReadFormat) (closing : Bool) :
    (Files.linesStep place fs closing).Quiet := by
  unfold Files.linesStep
  refine .bind inferInstance fun _ => ?_
  split
  · split
    · infer_instance
    · refine .bind inferInstance fun vs => ?_
      split <;> infer_instance
  · infer_instance

instance Files.writeFrom_quiet (file : Value) (vs : List Value) (count n : Nat) :
    (Files.writeFrom file vs count n).Quiet := by
  induction count generalizing n with
  | zero => exact .pure [file]
  | succ count ih =>
    unfold Files.writeFrom
    infer_instance

instance Files.write_quiet (vs : List Value) : (Files.write vs).Quiet := by
  unfold Files.write
  infer_instance

instance Files.writeOutput_quiet (vs : List Value) : (Files.writeOutput vs).Quiet := by
  unfold Files.writeOutput
  infer_instance

instance Files.flush_quiet (vs : List Value) : (Files.flush vs).Quiet := by
  unfold Files.flush
  infer_instance

instance Files.flushOutput_quiet (vs : List Value) : (Files.flushOutput vs).Quiet := by
  unfold Files.flushOutput
  infer_instance

instance Files.setvbuf_quiet (vs : List Value) : (Files.setvbuf vs).Quiet := by
  unfold Files.setvbuf
  infer_instance

instance Files.seek_quiet (vs : List Value) : (Files.seek vs).Quiet := by
  unfold Files.seek
  infer_instance

instance Files.type_quiet (vs : List Value) : (Files.type vs).Quiet := by
  unfold Files.type
  refine .bind inferInstance fun _ => ?_
  split
  · refine .bind inferInstance fun _ => ?_
    split <;> infer_instance
  · infer_instance

instance Files.text_quiet (vs : List Value) : (Files.text vs).Quiet := by
  unfold Files.text
  infer_instance

instance Files.input_quiet (vs : List Value) : (Files.input vs).Quiet := by
  unfold Files.input
  split
  · infer_instance
  · extract_lets set
    have hset (file : Value) : (set file).Quiet := .bind (.modify fun _ => rfl) fun _ => .pure _
    split <;> infer_instance

instance Files.output_quiet (vs : List Value) : (Files.output vs).Quiet := by
  unfold Files.output
  split
  · infer_instance
  · extract_lets set
    have hset (file : Value) : (set file).Quiet := .bind (.modify fun _ => rfl) fun _ => .pure _
    split <;> infer_instance

/-! ## The system -/

instance Os.request_quiet (function : Builtin) (given : List Datum) :
    (Os.request function given).Quiet := by
  unfold Os.request
  infer_instance

instance Os.optional_quiet (n : Nat) (vs : List Value) : (Os.optional n vs).Quiet := by
  unfold Os.optional
  infer_instance

instance Os.setDate_quiet (date : Value) (fields : List (String × Value)) :
    (Os.setDate date fields).Quiet := by
  induction fields with
  | nil => exact .pure ()
  | cons field rest ih =>
    unfold Os.setDate
    infer_instance

instance Os.refuseField_quiet (name reason : String) :
    Run.Quiet (Os.refuseField name reason : Run α) := by
  unfold Os.refuseField
  infer_instance

instance Os.dateField_quiet (date : Value) (name : String) (otherwise : Option Int64)
    (first : Int) : (Os.dateField date name otherwise first).Quiet := by
  unfold Os.dateField
  refine .bind inferInstance fun _ => ?_
  split
  · infer_instance
  · split <;> infer_instance

instance Os.time_quiet (vs : List Value) : (Os.time vs).Quiet := by
  unfold Os.time
  split
  · infer_instance
  · refine .bind inferInstance fun place => ?_
    extract_lets date
    clear_value date
    refine .bind inferInstance fun _ => .bind inferInstance fun _ => .bind inferInstance fun _ =>
      .bind inferInstance fun _ => .bind inferInstance fun _ => .bind inferInstance fun _ =>
      .bind inferInstance fun _ => ?_
    split <;>
    · refine .bind inferInstance fun _ => .bind inferInstance fun _ =>
        .bind inferInstance fun found => ?_
      split <;> infer_instance

instance Os.date_quiet (vs : List Value) : (Os.date vs).Quiet := by
  unfold Os.date
  infer_instance

instance Os.difftime_quiet (vs : List Value) : (Os.difftime vs).Quiet := by
  unfold Os.difftime
  infer_instance

instance Os.clock_quiet (vs : List Value) : (Os.clock vs).Quiet := by
  unfold Os.clock
  infer_instance

instance Os.execute_quiet (vs : List Value) : (Os.execute vs).Quiet := by
  unfold Os.execute
  infer_instance

instance Os.exit_quiet (vs : List Value) : (Os.exit vs).Quiet := by
  unfold Os.exit
  split <;> infer_instance

instance Os.getenv_quiet (vs : List Value) : (Os.getenv vs).Quiet := by
  unfold Os.getenv
  infer_instance

instance Os.remove_quiet (vs : List Value) : (Os.remove vs).Quiet := by
  unfold Os.remove
  infer_instance

instance Os.rename_quiet (vs : List Value) : (Os.rename vs).Quiet := by
  unfold Os.rename
  infer_instance

instance Os.setlocale_quiet (vs : List Value) : (Os.setlocale vs).Quiet := by
  unfold Os.setlocale
  infer_instance

instance Os.tmpname_quiet (vs : List Value) : (Os.tmpname vs).Quiet := by
  unfold Os.tmpname
  infer_instance

/-! ## Mathematics -/

instance Mathematics.onFloat_quiet (f : Float → Float) (vs : List Value) :
    (Mathematics.onFloat f vs).Quiet := by
  unfold Mathematics.onFloat
  infer_instance

instance Mathematics.rounded_quiet (f : Float → Float) (vs : List Value) :
    (Mathematics.rounded f vs).Quiet := by
  unfold Mathematics.rounded
  split <;> infer_instance

instance Mathematics.abs_quiet (vs : List Value) : (Mathematics.abs vs).Quiet := by
  unfold Mathematics.abs
  split <;> infer_instance

instance Mathematics.fmod_quiet (vs : List Value) : (Mathematics.fmod vs).Quiet := by
  unfold Mathematics.fmod
  split <;> infer_instance

instance Mathematics.modf_quiet (vs : List Value) : (Mathematics.modf vs).Quiet := by
  unfold Mathematics.modf
  split <;> infer_instance

instance Mathematics.log_quiet (vs : List Value) : (Mathematics.log vs).Quiet := by
  unfold Mathematics.log
  infer_instance

instance Mathematics.atan_quiet (vs : List Value) : (Mathematics.atan vs).Quiet := by
  unfold Mathematics.atan
  infer_instance

instance Mathematics.extreme_quiet {exceeds : Value → Value → Run Bool}
    [hexceeds : ∀ v w, (exceeds v w).Quiet] (best : Value) (vs : List Value) :
    (Mathematics.extreme exceeds best vs).Quiet := by
  induction vs generalizing best with
  | nil => exact .pure best
  | cons v vs ih =>
    unfold Mathematics.extreme
    infer_instance

instance Mathematics.max_quiet (vs : List Value) : (Mathematics.max vs).Quiet := by
  unfold Mathematics.max
  split <;> infer_instance

instance Mathematics.min_quiet (vs : List Value) : (Mathematics.min vs).Quiet := by
  unfold Mathematics.min
  split <;> infer_instance

instance Mathematics.tointeger_quiet (vs : List Value) : (Mathematics.tointeger vs).Quiet := by
  unfold Mathematics.tointeger
  refine .bind inferInstance fun _ => ?_
  split <;> infer_instance

instance Mathematics.type_quiet (vs : List Value) : (Mathematics.type vs).Quiet := by
  unfold Mathematics.type
  refine .bind inferInstance fun _ => ?_
  split <;> infer_instance

instance Mathematics.ult_quiet (vs : List Value) : (Mathematics.ult vs).Quiet := by
  unfold Mathematics.ult
  infer_instance

instance Mathematics.drawn_quiet (given : List Datum) : (Mathematics.drawn given).Quiet := by
  unfold Mathematics.drawn
  infer_instance

instance Mathematics.between_quiet (low high : Int64) : (Mathematics.between low high).Quiet := by
  unfold Mathematics.between
  infer_instance

instance Mathematics.random_quiet (vs : List Value) : (Mathematics.random vs).Quiet := by
  unfold Mathematics.random
  split <;> infer_instance

instance Mathematics.randomseed_quiet (vs : List Value) : (Mathematics.randomseed vs).Quiet := by
  unfold Mathematics.randomseed
  infer_instance

/-! ## Packages -/

instance Packages.searchpath_quiet (vs : List Value) : (Packages.searchpath vs).Quiet := by
  unfold Packages.searchpath
  refine .bind inferInstance fun _ => .bind inferInstance fun _ => .bind inferInstance fun _ =>
    .bind inferInstance fun _ => ?_
  extract_lets name
  clear_value name
  refine .bind inferInstance fun _ => ?_
  split <;> infer_instance

instance Packages.searchPreload_quiet (vs : List Value) : (Packages.searchPreload vs).Quiet := by
  unfold Packages.searchPreload
  refine .bind inferInstance fun _ => .bind inferInstance fun _ => ?_
  split <;> infer_instance

instance Packages.searchLua_quiet (vs : List Value) : (Packages.searchLua vs).Quiet := by
  unfold Packages.searchLua
  refine .bind inferInstance fun name => .bind inferInstance fun _ => ?_
  split
  · infer_instance
  · refine .bind inferInstance fun _ => ?_
    split
    · infer_instance
    · next file _ =>
      refine .inspectStore fun s k hk => ?_
      cases hloaded : s.loadFile file (.table Store.globals) with
      | ok loaded => exact Run.Quiet.adopt (Store.output_loadFile hloaded) hk
      | error e => exact Run.Quiet.keeps s k hk

instance Packages.searchNative_quiet (vs : List Value) : (Packages.searchNative vs).Quiet := by
  unfold Packages.searchNative
  infer_instance

instance Packages.findLoader_quiet (name : Bytes) (searchers fuel : Nat) (i : Int64)
    (text : Bytes) :
    (Packages.findLoader name searchers fuel i text).Quiet := by
  induction fuel generalizing i text with
  | zero =>
    unfold Packages.findLoader
    infer_instance
  | succ fuel ih =>
    unfold Packages.findLoader
    refine .bind inferInstance fun _ => ?_
    split
    · infer_instance
    · refine .bind inferInstance fun _ => ?_
      extract_lets found
      clear_value found
      split
      · infer_instance
      · split <;> infer_instance

instance Packages.require_quiet (vs : List Value) : (Packages.require vs).Quiet := by
  unfold Packages.require
  refine .bind inferInstance fun _ => ?_
  extract_lets package
  clear_value package
  refine .bind inferInstance fun _ => ?_
  split
  · infer_instance
  · refine .bind inferInstance fun _ => ?_
    split
    · refine .bind inferInstance fun _ => ?_
      split
      · refine .bind inferInstance fun _ => ?_
        extract_lets finish
        have hfinish (u : Unit) : (finish u).Quiet := by
          dsimp only [finish]
          refine .bind inferInstance fun _ => ?_
          split <;> infer_instance
        clear_value finish
        split <;> infer_instance
    · infer_instance

/-! ## Sequences -/

instance Sequences.item_quiet (t : Value) (i : Int64) : (Sequences.item t i).Quiet := by
  unfold Sequences.item
  infer_instance

instance Sequences.setItem_quiet (t : Value) (i : Int64) (v : Value) :
    (Sequences.setItem t i v).Quiet := by
  unfold Sequences.setItem
  infer_instance

instance Sequences.lengthOf_quiet (v : Value) : (Sequences.lengthOf v).Quiet := by
  unfold Sequences.lengthOf
  refine .bind inferInstance fun _ => ?_
  split
  · infer_instance
  · split <;> infer_instance

instance Sequences.tableLike_quiet (n : Nat) (events : List String) (vs : List Value) :
    (Sequences.tableLike n events vs).Quiet := by
  unfold Sequences.tableLike
  extract_lets v
  clear_value v
  refine .bind inferInstance fun _ => ?_
  split <;> infer_instance

instance Sequences.sequence_quiet (events : List String) (vs : List Value) :
    (Sequences.sequence events vs).Quiet := by
  unfold Sequences.sequence
  infer_instance

instance Sequences.shiftUp_quiet (t : Value) (last : Int64) (count : Nat) :
    (Sequences.shiftUp t last count).Quiet := by
  induction count generalizing last with
  | zero => exact .pure ()
  | succ count ih =>
    unfold Sequences.shiftUp
    infer_instance

instance Sequences.shiftDown_quiet (t : Value) (first : Int64) (count : Nat) :
    (Sequences.shiftDown t first count).Quiet := by
  induction count generalizing first with
  | zero => exact .pure ()
  | succ count ih =>
    unfold Sequences.shiftDown
    infer_instance

instance Sequences.insert_quiet (vs : List Value) : (Sequences.insert vs).Quiet := by
  unfold Sequences.insert
  refine .bind inferInstance fun _ => ?_
  split
  · extract_lets free
    clear_value free
    split <;> infer_instance

instance Sequences.remove_quiet (vs : List Value) : (Sequences.remove vs).Quiet := by
  unfold Sequences.remove
  infer_instance

instance Sequences.copyUp_quiet (source target : Value) (first destination : Int64) (fuel : Nat)
    (i : Int64) :
    (Sequences.copyUp source target first destination fuel i).Quiet := by
  induction fuel generalizing i with
  | zero =>
    unfold Sequences.copyUp
    infer_instance
  | succ fuel ih =>
    unfold Sequences.copyUp
    infer_instance

instance Sequences.copyDown_quiet (source target : Value) (first destination : Int64) (fuel : Nat) :
    (Sequences.copyDown source target first destination fuel).Quiet := by
  induction fuel with
  | zero =>
    unfold Sequences.copyDown
    infer_instance
  | succ fuel ih =>
    unfold Sequences.copyDown
    infer_instance

instance Sequences.move_quiet (vs : List Value) : (Sequences.move vs).Quiet := by
  unfold Sequences.move
  refine .bind inferInstance fun _ => .bind inferInstance fun _ => .bind inferInstance fun _ => ?_
  extract_lets other count overlaps
  clear_value other count overlaps
  refine .bind inferInstance fun _ => .bind inferInstance fun _ => ?_
  extract_lets __do_jp __do_jp
  split
  · refine .bind inferInstance fun _ => ?_
    infer_instance
  · infer_instance

instance Sequences.itemText_quiet (t : Value) (i : Int64) : (Sequences.itemText t i).Quiet := by
  unfold Sequences.itemText
  refine .bind inferInstance fun _ => ?_
  split <;> infer_instance

instance Sequences.joinFrom_quiet (t : Value) (separator : Bytes) (fuel : Nat) (i : Int64)
    (text : Bytes) :
    (Sequences.joinFrom t separator fuel i text).Quiet := by
  induction fuel generalizing i text with
  | zero =>
    unfold Sequences.joinFrom
    infer_instance
  | succ fuel ih =>
    unfold Sequences.joinFrom
    infer_instance

instance Sequences.concat_quiet (vs : List Value) : (Sequences.concat vs).Quiet := by
  unfold Sequences.concat
  infer_instance

instance Sequences.pack_quiet (vs : List Value) : (Sequences.pack vs).Quiet := by
  unfold Sequences.pack
  infer_instance

instance Sequences.itemsFrom_quiet (t : Value) (fuel : Nat) (i : Int64) :
    (Sequences.itemsFrom t fuel i).Quiet := by
  induction fuel generalizing i with
  | zero =>
    unfold Sequences.itemsFrom
    infer_instance
  | succ fuel ih =>
    unfold Sequences.itemsFrom
    infer_instance

instance Sequences.unpack_quiet (vs : List Value) : (Sequences.unpack vs).Quiet := by
  unfold Sequences.unpack
  infer_instance

instance Sequences.Sorting.before_quiet (z : Sequences.Sorting) (a b : Value) :
    (Sequences.Sorting.before z a b).Quiet := by
  unfold Sequences.Sorting.before
  split <;> infer_instance

instance Sequences.Sorting.get_quiet (z : Sequences.Sorting) (i : Int) :
    (Sequences.Sorting.get z i).Quiet := by
  unfold Sequences.Sorting.get
  infer_instance

instance Sequences.Sorting.put_quiet (z : Sequences.Sorting) (i : Int) (v : Value) (j : Int)
    (b : Value) :
    (Sequences.Sorting.put z i v j b).Quiet := by
  unfold Sequences.Sorting.put
  infer_instance

instance Sequences.Sorting.invalid_quiet :
    Run.Quiet (Sequences.Sorting.invalid : Run α) := by
  unfold Sequences.Sorting.invalid
  infer_instance

instance Sequences.Sorting.scanUp_quiet (z : Sequences.Sorting) (pivot : Value) (top : Int)
    (fuel : Nat) (i : Int) :
    (Sequences.Sorting.scanUp z pivot top fuel i).Quiet := by
  induction fuel generalizing i with
  | zero =>
    unfold Sequences.Sorting.scanUp
    infer_instance
  | succ fuel ih =>
    unfold Sequences.Sorting.scanUp
    infer_instance

instance Sequences.Sorting.scanDown_quiet (z : Sequences.Sorting) (pivot : Value) (i : Int)
    (fuel : Nat) (j : Int) :
    (Sequences.Sorting.scanDown z pivot i fuel j).Quiet := by
  induction fuel generalizing j with
  | zero =>
    unfold Sequences.Sorting.scanDown
    infer_instance
  | succ fuel ih =>
    unfold Sequences.Sorting.scanDown
    infer_instance

instance Sequences.Sorting.partition_quiet (z : Sequences.Sorting) (pivot : Value) (top : Int)
    (fuel : Nat) (i j : Int) :
    (Sequences.Sorting.partition z pivot top fuel i j).Quiet := by
  induction fuel generalizing i j with
  | zero =>
    unfold Sequences.Sorting.partition
    infer_instance
  | succ fuel ih =>
    unfold Sequences.Sorting.partition
    infer_instance

instance Sequences.Sorting.sortRange_quiet (z : Sequences.Sorting) (fuel : Nat) (i j : Int) :
    (Sequences.Sorting.sortRange z fuel i j).Quiet := by
  induction fuel generalizing i j with
  | zero => exact .pure ()
  | succ fuel ih =>
    unfold Sequences.Sorting.sortRange
    split
    · refine .bind inferInstance fun _ => .bind inferInstance fun _ =>
      .bind inferInstance fun _ => ?_
      extract_lets middle sides order
      have hsides (u : Unit) : (sides u).Quiet := by
        dsimp only [sides]
        infer_instance
      have horder (u : Unit) : (order u).Quiet := by
        dsimp only [order]
        clear_value sides
        infer_instance
      clear_value order
      infer_instance
    · infer_instance

instance Sequences.sort_quiet (vs : List Value) : (Sequences.sort vs).Quiet := by
  unfold Sequences.sort
  infer_instance

/-! ## All functions -/

/-- Whether a library function writes to the output. -/
def Builtin.writes : Builtin → Bool
  | .write | .writeln | .print => true
  | _ => false

theorem Builtin.apply_quiet {b : Builtin} (h : b.writes = false) (vs : List Value) :
    (b.apply vs).Quiet := by
  unfold Builtin.apply
  split <;> first | infer_instance | cases h

instance Native.apply_quiet (n : Native) (place : Nat) (vs : List Value) :
    (n.apply place vs).Quiet := by
  unfold Native.apply
  split <;> infer_instance

/-- Whether a function writes to the output. -/
def Value.writes : Value → Bool
  | .builtin b => b.writes
  | _ => false

theorem Machine.body_quiet {f : Value} (h : f.writes = false) (s : Store) (args : List Value) :
    (body s f args).Keeps Store.output s.output := by
  cases f with
  | closure p => exact (Closure.apply_quiet (s.closure p) args).keeps.toAction s
  | native p => exact (Native.apply_quiet (s.native p) p args).keeps.toAction s
  | builtin b => exact (Builtin.apply_quiet h args).keeps.toAction s
  | nil | bool | int | float | string | table | object | thread => rfl

end Stencil.Lua
