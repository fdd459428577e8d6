import Stencil.Files.Disk
import Stencil.Proofs.Files.Times

/-!
# What a disk leaves of a write

Whatever goes wrong, a write comes to one of three things: the file was not opened, and nothing
happened; it was opened, and holds the first of its bytes; or it holds them all.

* `FileSystem.Leads.of_write`: a path that was written to leads somewhere;
* `FileSystem.Tried`: the three things that a write can come to;
* `Disk.append_spec`: an open file gets the first of some bytes, and the others are given back;
* `Disk.save_tried`: what saving a file comes to.
-/

namespace Stencil

namespace FileSystem

variable {fs fs' fs'' : FileSystem} {p : String} {a b : Address} {content : ByteArray}
  {result : Except IoError Unit}

/-- A path that was written to leads to the address that was written. -/
theorem Leads.of_write (h : fs.write p content = .ok fs') :
    ∃ a, fs.Leads p a ∧ fs.Put a content fs' := by
  have hleads : ∃ a, fs.Leads p a := by
    rw [FileSystem.write] at h
    split at h
    · cases h
    · rename_i dir name hloc
      exact ⟨_, .free hloc⟩
    · rename_i a hloc
      split at h
      · rename_i content' time hget
        exact ⟨a, .file hloc (by rw [Node.shapeAt, Node.sightAt, hget]; rfl)⟩
      · cases h
  obtain ⟨a, ha⟩ := hleads
  exact ⟨a, ha, ha.put h⟩

/-- The file system after a file was to be written, and how that ended: the path was not opened and
nothing happened, or the file that it leads to holds the first of the bytes, and all of them unless
there was an error. -/
inductive Tried (fs : FileSystem) (p : String) (bytes : ByteArray) :
    FileSystem → Except IoError Unit → Prop
  | unopened (e : IoError) : Tried fs p bytes fs (.error e)
  | stopped {a : Address} {part rest : ByteArray} {fs' : FileSystem} (e : IoError) :
    fs.Leads p a → fs.Put a part fs' → part ++ rest = bytes → Tried fs p bytes fs' (.error e)
  | written {a : Address} {fs' : FileSystem} :
    fs.Leads p a → fs.Put a bytes fs' → Tried fs p bytes fs' (.ok ())

namespace Tried

theorem of_ok (h : fs.Tried p content fs' (.ok ())) :
    ∃ a, fs.Leads p a ∧ fs.Put a content fs' := by
  cases h with
  | written hleads hput => exact ⟨_, hleads, hput⟩

theorem of_error {e : IoError} (h : fs.Tried p content fs' (.error e)) :
    fs' = fs ∨ ∃ a part rest, fs.Leads p a ∧ fs.Put a part fs' ∧ part ++ rest = content := by
  cases h with
  | unopened e => exact .inl rfl
  | stopped e hleads hput hcontent => exact .inr ⟨_, _, _, hleads, hput, hcontent⟩

/-- Nothing happened, or the path led to a file that was written. -/
theorem cases_put (h : fs.Tried p content fs' result) :
    fs' = fs ∧ result ≠ .ok () ∨ ∃ a part, fs.Leads p a ∧ fs.Put a part fs' := by
  cases h with
  | unopened e => exact .inl ⟨rfl, nofun⟩
  | stopped e hleads hput _ => exact .inr ⟨_, _, hleads, hput⟩
  | written hleads hput => exact .inr ⟨_, _, hleads, hput⟩

/-- Only what the path leads to can look different. -/
theorem sightAt (h : fs.Tried p content fs' result) (ha : ¬ fs.Leads p a) :
    fs'.root.sightAt a = fs.root.sightAt a := by
  rcases h.cases_put with ⟨rfl, -⟩ | ⟨b, part, hleads, hput⟩
  · rfl
  · exact hput.wrote.sightAt_other fun hab => ha (hab ▸ hleads)

end Tried

end FileSystem

namespace Disk

variable {d : Disk} {fs opened : FileSystem} {p : String} {a : Address} {part bytes : ByteArray}
  {e : IoError}

theorem create_ok (h : d.create fs p = .ok opened) :
    ∃ a, fs.Leads p a ∧ fs.Put a ByteArray.empty opened := by
  rw [create] at h
  split at h
  · cases h
  · rename_i opened' hwrite
    split at h
    · cases h
    · cases h
      exact FileSystem.Leads.of_write hwrite

/-- On a sound disk every path that leads somewhere can be opened. -/
theorem create_sound (h : fs.Leads p a) :
    ∃ opened, sound.create fs p = .ok opened ∧ fs.Put a ByteArray.empty opened := by
  obtain ⟨opened, hwrite, -⟩ := h.write ByteArray.empty
  exact ⟨opened, by rw [create, hwrite]; rfl, h.put hwrite⟩

/-- The first of some bytes, and the others. -/
theorem extract_append_rest (bytes : ByteArray) (n : Nat) :
    bytes.extract 0 n ++ bytes.extract n bytes.size = bytes := by
  rw [ByteArray.extract_append_extract, Nat.zero_min]
  rcases Nat.le_total n bytes.size with h | h
  · rw [Nat.max_eq_right h, ByteArray.extract_zero_size]
  · rw [Nat.max_eq_left h]
    apply ByteArray.ext
    simp only [ByteArray.data_extract]
    exact Array.extract_eq_self_of_le h

/-- What gets through and what does not are the bytes that were to be written. -/
theorem through_spec (d : Disk) (fs : FileSystem) (p : String) (bytes : ByteArray) :
    ∃ more rest, bytes.extract 0 (d.through fs p bytes).1 = more ∧
      bytes.extract (d.through fs p bytes).1 bytes.size = rest ∧ more ++ rest = bytes ∧
      ((d.through fs p bytes).2 = .ok () → rest = ByteArray.empty) ∧
      (d.stops fs p bytes = none → (d.through fs p bytes).2 = .ok ()) := by
  refine ⟨_, _, rfl, rfl, extract_append_rest bytes _, ?_, ?_⟩
  · rw [through]
    cases d.stops fs p bytes with
    | none => exact fun _ => ByteArray.extract_eq_empty_iff.mpr (Nat.min_le_left _ _)
    | some stop => exact nofun
  · intro h
    rw [through, h]

/-- An open file gets the first of some bytes, and the others are given back. If there is no error,
it gets them all. -/
theorem append_spec (d : Disk) (hp : fs.Leads p a) (h : fs.Put a part opened)
    (bytes : ByteArray) :
    ∃ files more rest result, d.append opened p bytes = ((files, rest), result) ∧
      more ++ rest = bytes ∧ fs.Put a (part ++ more) files ∧
      (result = .ok () → rest = ByteArray.empty) ∧
      (d.stops opened p bytes = none → result = .ok ()) := by
  by_cases hempty : bytes.isEmpty = true
  · have hnone : bytes = ByteArray.empty := by simpa [ByteArray.isEmpty] using hempty
    subst hnone
    exact ⟨opened, ByteArray.empty, ByteArray.empty, .ok (), rfl, ByteArray.append_empty,
      by rwa [ByteArray.append_empty], fun _ => rfl, fun _ => rfl⟩
  · have hopened := h.wrote.leads hp
    have hread := hopened.readBytes_file h.wrote.sightAt_self
    obtain ⟨more, rest, hmore, hrest, hbytes, hall, hsound⟩ := d.through_spec opened p bytes
    obtain ⟨files, hwrite, -⟩ := hopened.write (part ++ more)
    refine ⟨files, more, rest, _, ?_, hbytes, h.trans (hopened.put hwrite), hall, hsound⟩
    rw [append, if_neg hempty]
    simp only [hread, hmore, hrest, hwrite]

/-- Whatever comes of saving a file, no other one changes, and this one only to the first of its new
bytes. -/
theorem save_tried (d : Disk) (fs : FileSystem) (p : String) (content : ByteArray) :
    fs.Tried p content (d.save fs p content).1 (d.save fs p content).2 := by
  rw [save]
  cases hcreate : d.create fs p with
  | error e => exact .unopened e
  | ok opened =>
    obtain ⟨a, hleads, hput⟩ := create_ok hcreate
    obtain ⟨files, more, rest, result, happend, hcontent, hput, hall, -⟩ :=
      d.append_spec hleads hput content
    rw [ByteArray.empty_append] at hput
    simp only [happend]
    cases result with
    | error e => exact .stopped e hleads hput hcontent
    | ok _ =>
      rw [hall rfl, ByteArray.append_empty] at hcontent
      exact .written hleads (hcontent ▸ hput)

/-- On a sound disk every path that leads somewhere can be saved to. -/
theorem save_sound (h : fs.Leads p a) (content : ByteArray) :
    ∃ files, sound.save fs p content = (files, .ok ()) ∧ fs.Put a content files := by
  obtain ⟨opened, hcreate, hput⟩ := create_sound h
  obtain ⟨files, more, rest, result, happend, hcontent, hput, hall, hsound⟩ :=
    sound.append_spec h hput content
  cases hsound rfl
  rw [hall rfl, ByteArray.append_empty] at hcontent
  rw [ByteArray.empty_append, hcontent] at hput
  refine ⟨files, ?_, hput⟩
  rw [save, hcreate]
  simp only [happend]

end Disk

end Stencil
