import Stencil.Batch.Sink
import Stencil.Proofs.Files.Disk

/-!
# Delivering output

An artifact and its buffer together hold what the artifact was given, whatever goes wrong: a write
that fails leaves in the buffer what it did not write. So an artifact ends with the first of its
output, and with all of it if nothing fails.

* `Outlets.Open`: the invariant of an open artifact;
* `Outlets.flush_open`, `Outlets.emit_open`: what a flush and a write preserve;
* `Outlets.deliver_unopened`, `Outlets.deliver_opened`: what an artifact comes to, by whether it can
  be opened; together they are `Outlets.deliver_tried`;
* `Outlets.deliver_sound`: on a sound disk it holds the whole output;
* `Outlets.deliver_shared`: what becomes of the shared writer.
-/

namespace Stencil.Outlets

variable {d : Disk} {o o' p : Outlets} {h : Handle} {path : String} {a : Address}
  {bytes taken : ByteArray} {e : IoError}

/-! ## Artifacts -/

/-- The outlets `p` with an open artifact, from the outlets `o` that it was opened in: the file and
the buffer hold what the artifact was given. -/
structure Open (o : Outlets) (path : String) (a : Address) (taken : ByteArray) (p : Outlets)
    (h : Handle) : Prop where
  target : h.target = .artifact path
  shared : p.shared = o.shared
  held : ∃ part, o.files.Put a part p.files ∧ part ++ h.pending = taken

/-- Flushing an artifact moves the first of its buffer to the file, and all of it if that goes well. -/
theorem flush_open (d : Disk) (hleads : o.files.Leads path a) (hopen : o.Open path a taken p h) :
    ∃ p' h' result, p.flush d h = ((p', h'), result) ∧ o.Open path a taken p' h' ∧
      (result = .ok () → h'.pending = ByteArray.empty) ∧
      ((∀ fs bytes, d.stops fs path bytes = none) → result = .ok ()) := by
  obtain ⟨htarget, hshared, part, hput, hheld⟩ := hopen
  obtain ⟨files, more, rest, result, happend, hpending, hput', hall, hsound⟩ :=
    d.append_spec hleads hput h.pending
  refine ⟨{ p with files }, { h with pending := rest }, result, ?_,
    ⟨htarget, hshared, part ++ more, hput', ?_⟩, hall, fun hd => hsound (hd _ _)⟩
  · rw [flush, htarget]
    simp only [happend]
  · rw [← hheld, ← hpending, ByteArray.append_assoc]

/-- An empty buffer is flushed without a change. -/
theorem flush_drained (d : Disk) (p : Outlets) (htarget : h.target = .artifact path)
    (hpending : h.pending = ByteArray.empty) : p.flush d h = ((p, h), .ok ()) := by
  obtain ⟨target, pending⟩ := h
  cases htarget
  cases hpending
  rfl

theorem release_drained (d : Disk) (p : Outlets) (htarget : h.target = .artifact path)
    (hpending : h.pending = ByteArray.empty) : p.release d h = p := by
  rw [release, flush_drained d p htarget hpending]
  simp only [htarget, flush_drained d p htarget hpending]

/-- What is left in the buffer may be written as an artifact is released. -/
theorem release_open (d : Disk) (hleads : o.files.Leads path a)
    (hopen : o.Open path a taken p h) : ∃ h', o.Open path a taken (p.release d h) h' := by
  obtain ⟨p', h', result, hflush, hopen', -⟩ := flush_open d hleads hopen
  obtain ⟨p'', h'', result', hflush', hopen'', -⟩ := flush_open d hleads hopen'
  refine ⟨h'', ?_⟩
  rw [release, hflush]
  simp only [hopen'.target, hflush']
  exact hopen''

theorem makeRoom_open (d : Disk) (hleads : o.files.Leads path a)
    (hopen : o.Open path a taken p h) (bytes : ByteArray) :
    ∃ p' h' result, p.makeRoom d h bytes = ((p', h'), result) ∧ o.Open path a taken p' h' ∧
      (result = .ok () → Handle.capacity ≤ bytes.size → h'.pending = ByteArray.empty) ∧
      ((∀ fs bytes, d.stops fs path bytes = none) → result = .ok ()) := by
  rw [makeRoom]
  split
  · obtain ⟨p', h', result, hflush, hopen', hall, hsound⟩ := flush_open d hleads hopen
    exact ⟨p', h', result, hflush, hopen', fun hok _ => hall hok, hsound⟩
  · rename_i hfits
    refine ⟨p, h, .ok (), rfl, hopen, fun _ hlarge => ?_, fun _ => rfl⟩
    exact ByteArray.size_eq_zero_iff.mp (by omega)

/-- An open artifact takes the first of some bytes, and all of them if there is no error. -/
theorem emit_open (d : Disk) (hleads : o.files.Leads path a) (hopen : o.Open path a taken p h)
    (bytes : ByteArray) :
    ∃ p' h' more rest result, p.emit d h bytes = ((p', h'), result) ∧ more ++ rest = bytes ∧
      o.Open path a (taken ++ more) p' h' ∧ (result = .ok () → rest = ByteArray.empty) ∧
      ((∀ fs bytes, d.stops fs path bytes = none) → result = .ok ()) := by
  obtain ⟨p', h', result, hroom, hopen', hall, hsound⟩ := makeRoom_open d hleads hopen bytes
  rw [emit, hopen.target]
  simp only [hroom]
  cases result with
  | error e =>
    refine ⟨p', h', ByteArray.empty, bytes, .error e, rfl, ByteArray.empty_append, ?_, nofun,
      fun hd => hsound hd⟩
    rwa [ByteArray.append_empty]
  | ok _ =>
    obtain ⟨htarget, hshared, part, hput, hheld⟩ := hopen'
    simp only
    split
    · refine ⟨p', _, bytes, ByteArray.empty, .ok (), rfl, ByteArray.append_empty,
        ⟨htarget, hshared, part, hput, ?_⟩, fun _ => rfl, fun _ => rfl⟩
      rw [← ByteArray.append_assoc, hheld]
    · -- The buffer is empty, so what goes past it comes after everything else.
      rename_i hlarge
      have hdrained := hall rfl (Nat.not_lt.mp hlarge)
      obtain ⟨files, more, rest, result, happend, hbytes, hput', hrest, hstops⟩ :=
        d.append_spec hleads hput bytes
      refine ⟨{ p' with files }, h', more, rest, result, by rw [happend], hbytes,
        ⟨htarget, hshared, part ++ more, hput', ?_⟩, hrest, fun hd => hstops (hd _ _)⟩
      rw [hdrained, ByteArray.append_empty] at hheld ⊢
      rw [hheld]

/-- An artifact that cannot be opened stays as it is. -/
theorem deliver_unopened (hcreate : d.create o.files path = .error e) (bytes : ByteArray) :
    o.deliver d (.artifact path) bytes = (o, .error e) := by
  rw [deliver, acquire]
  simp only [hcreate]

/-- An artifact that was opened gets the first of its output, and all of it if there is no error;
nothing else changes. -/
theorem deliver_opened {opened : FileSystem} (hcreate : d.create o.files path = .ok opened)
    (bytes : ByteArray) :
    ∃ o' a part rest result, o.deliver d (.artifact path) bytes = (o', result) ∧
      o'.shared = o.shared ∧ o.files.Leads path a ∧ o.files.Put a part o'.files ∧
      part ++ rest = bytes ∧ (result = .ok () → rest = ByteArray.empty) := by
  obtain ⟨a, hleads, hput⟩ := Disk.create_ok hcreate
  have hopen : o.Open path a ByteArray.empty { o with files := opened }
      { target := .artifact path } := ⟨rfl, rfl, ByteArray.empty, hput, rfl⟩
  obtain ⟨p, h, more, rest, result, hemit, hbytes, hopen, hall, -⟩ := emit_open d hleads hopen bytes
  rw [ByteArray.empty_append] at hopen
  rw [deliver, acquire]
  simp only [hcreate, hemit]
  cases result with
  | error e =>
    obtain ⟨h', -, hshared, part, hput, hheld⟩ := release_open d hleads hopen
    refine ⟨_, a, part, h'.pending ++ rest, _, rfl, hshared, hleads, hput, ?_, nofun⟩
    rw [← ByteArray.append_assoc, hheld, hbytes]
  | ok _ =>
    obtain ⟨p', h', result, hflush, hopen', hdrained, -⟩ := flush_open d hleads hopen
    rw [hall rfl, ByteArray.append_empty] at hbytes
    cases hbytes
    simp only [finish, hflush]
    cases result with
    | error e =>
      obtain ⟨h'', -, hshared, part, hput, hheld⟩ := release_open d hleads hopen'
      exact ⟨_, a, part, h''.pending, _, rfl, hshared, hleads, hput, hheld, nofun⟩
    | ok _ =>
      obtain ⟨htarget, hshared, part, hput, hheld⟩ := hopen'
      rw [release_drained d p' htarget (hdrained rfl)]
      exact ⟨_, a, part, h'.pending, _, rfl, hshared, hleads, hput, hheld, fun _ => hdrained rfl⟩

/-- An artifact is not opened, or it gets the first of its output, and all of it if there is no
error; nothing else changes. -/
theorem deliver_tried (d : Disk) (o : Outlets) (path : String) (bytes : ByteArray) :
    (o.deliver d (.artifact path) bytes).1.shared = o.shared ∧
      o.files.Tried path bytes (o.deliver d (.artifact path) bytes).1.files
        (o.deliver d (.artifact path) bytes).2 := by
  cases hcreate : d.create o.files path with
  | error e =>
    rw [deliver_unopened hcreate]
    exact ⟨rfl, .unopened e⟩
  | ok opened =>
    obtain ⟨o', a, part, rest, result, hdeliver, hshared, hleads, hput, hbytes, hall⟩ :=
      deliver_opened hcreate bytes
    rw [hdeliver]
    refine ⟨hshared, ?_⟩
    cases result with
    | error e => exact .stopped e hleads hput hbytes
    | ok _ =>
      rw [hall rfl, ByteArray.append_empty] at hbytes
      exact .written hleads (hbytes ▸ hput)

/-- On a sound disk an artifact holds the whole output once it is delivered. -/
theorem deliver_sound (hleads : o.files.Leads path a) (bytes : ByteArray) :
    ∃ files, o.deliver .sound (.artifact path) bytes = ({ o with files }, .ok ()) ∧
      o.files.Put a bytes files := by
  obtain ⟨hshared, htried⟩ := deliver_tried .sound o path bytes
  have hok : (o.deliver .sound (.artifact path) bytes).2 = .ok () := by
    obtain ⟨opened, hcreate, hput⟩ := Disk.create_sound hleads
    have hopen : o.Open path a ByteArray.empty { o with files := opened }
        { target := .artifact path } := ⟨rfl, rfl, ByteArray.empty, hput, rfl⟩
    obtain ⟨p, h, more, rest, result, hemit, -, hopen, -, hsound⟩ :=
      emit_open .sound hleads hopen bytes
    obtain ⟨p', h', result', hflush, -, -, hsound'⟩ := flush_open .sound hleads hopen
    cases hsound fun _ _ => rfl
    cases hsound' fun _ _ => rfl
    rw [deliver, acquire, hcreate]
    simp only [hemit, finish, hflush]
  cases hdeliver : o.deliver .sound (.artifact path) bytes with
  | mk o' result =>
    rw [hdeliver] at hshared htried hok
    cases hok
    obtain ⟨b, hleads', hput⟩ := htried.of_ok
    cases hleads.unique hleads'
    exact ⟨o'.files, by rw [← hshared], hput⟩

/-! ## The shared writer -/

/-- Output for the shared writer is written whole or not at all, and changes no file. -/
theorem deliver_shared (d : Disk) (o : Outlets) (bytes : ByteArray) :
    (o.deliver d .shared bytes).1.files = o.files ∧
      ((o.deliver d .shared bytes).1.shared.written = o.shared.written ++ bytes ∨
        (o.deliver d .shared bytes).1.shared.written = o.shared.written ∧
          (o.deliver d .shared bytes).2 ≠ .ok ()) := by
  have hemit : o.emit d { target := .shared } bytes =
      (({ o with shared := (o.shared.write bytes).1 }, { target := .shared }),
        (o.shared.write bytes).2) := rfl
  rw [deliver, acquire]
  simp only [hemit]
  by_cases hfits : o.shared.fits bytes = true
  · have hwrite : o.shared.write bytes =
        ({ o.shared with written := o.shared.written ++ bytes }, .ok ()) := if_pos hfits
    simp only [hwrite]
    exact ⟨rfl, .inl rfl⟩
  · have hwrite : o.shared.write bytes = (o.shared, .error Writer.full) := if_neg hfits
    simp only [hwrite]
    exact ⟨rfl, .inr ⟨rfl, nofun⟩⟩

theorem deliver_shared_ok (hdeliver : o.deliver d .shared bytes = (o', .ok ())) :
    o'.files = o.files ∧ o'.shared.written = o.shared.written ++ bytes := by
  have hd := deliver_shared d o bytes
  rw [hdeliver] at hd
  exact ⟨hd.1, hd.2.resolve_right fun hnone => hnone.2 rfl⟩

theorem deliver_shared_error (hdeliver : o.deliver d .shared bytes = (o', .error e)) :
    o'.files = o.files ∧ ∃ extra, o'.shared.written = o.shared.written ++ extra := by
  have hd := deliver_shared d o bytes
  rw [hdeliver] at hd
  refine ⟨hd.1, ?_⟩
  rcases hd.2 with hwritten | ⟨hsame, -⟩
  · exact ⟨bytes, hwritten⟩
  · exact ⟨ByteArray.empty, by rw [hsame, ByteArray.append_empty]⟩

end Stencil.Outlets
