import Stencil.Proofs.Files.Writing

/-!
# When files were changed

A write changes the time of the file, and of the directory that it is in if the file is new, and no
other time. So a path has the time that it had, unless something was written where it leads, or in
the directory that it leads to.

* `Node.stampAt`: when what stands at an address was changed;
* `FileSystem.Put`: a write to a file, with the times that it leaves alone;
* `FileSystem.WroteEach`: paths that are written to one after another;
* `FileSystem.WroteEach.modifiedAt`: the times of paths afterwards.
-/

namespace Stencil

/-- When a node was changed; a link has no time. -/
def Node.stamp : Node → Option Time
  | .file _ modified | .directory _ modified => some modified
  | .link _ => none

/-- When what stands at an address of a tree was changed. -/
def Node.stampAt (root : Node) (a : Address) : Option (Option Time) :=
  (root.get? a).map stamp

namespace Node

variable {root : Node} {a b dir : Address}

theorem stampAt_eq_none_iff : root.stampAt a = none ↔ root.shapeAt a = none := by
  rw [stampAt, shapeAt, sightAt, Option.map_eq_none_iff, Option.map_eq_none_iff,
    Option.map_eq_none_iff]

/-- A file whose content is replaced changes no time but its own. -/
theorem stampAt_replace {before : ByteArray} {time : Time}
    (h : root.sightAt a = some (.file before time)) (content : ByteArray) (now : Time) (hb : b ≠ a) :
    (root.modify (fun _ => file content now) a).stampAt b = root.stampAt b := by
  by_cases hp : a <+: b
  · obtain ⟨rest, rfl⟩ := hp
    rw [stampAt, stampAt, get?_modify_append, get?_append, get?_of_sightAt_file h]
    cases rest with
    | nil => exact absurd (List.append_nil a) hb
    | cons name rest => rfl
  · exact map_get?_modify_elsewhere (fun _ _ _ => rfl) _ root hp

/-- A file that is added changes no time but its own and the directory's. -/
theorem stampAt_add {name : String} (hdir : root.sightAt dir = some .directory)
    (hnone : root.sightAt (dir ++ [name]) = none) (content : ByteArray) (now : Time)
    (hb : b ≠ dir ++ [name]) (hd : b ≠ dir) :
    (root.modify (addEntry name (file content now) now) dir).stampAt b = root.stampAt b := by
  obtain ⟨entries, time, hget⟩ := get?_of_sightAt_directory hdir
  by_cases hp : dir <+: b
  · obtain ⟨rest, rfl⟩ := hp
    rw [stampAt, stampAt, get?_modify_append, get?_append, hget]
    cases rest with
    | nil => exact absurd (List.append_nil dir) hd
    | cons other rest =>
      simp only [Option.bind_some, addEntry, get?, Node.entries, child?_putEntry]
      by_cases hn : name = other
      · subst hn
        have hfree : child? name entries = none := by
          rw [sightAt, get?_append, hget] at hnone
          cases hc : child? name entries with
          | none => rfl
          | some child => simp [get?, Node.entries, hc] at hnone
        rw [if_pos rfl, hfree]
        cases rest with
        | nil => exact absurd rfl hb
        | cons next rest => rfl
      · rw [if_neg hn]
  · exact map_get?_modify_elsewhere (fun _ _ _ => rfl) _ root hp

end Node

namespace FileSystem

variable {fs fs' fs'' : FileSystem} {p : String} {a b : Address} {content content' : ByteArray}

/-! ## Writes -/

/-- The file system after a file was written at an address: no other file is changed, and no time but
those of the file and of the directory that it is in. -/
structure Put (fs : FileSystem) (a : Address) (content : ByteArray) (fs' : FileSystem) :
    Prop where
  wrote : fs.Wrote a content fs'
  stampAt (b : Address) : b ≠ a → b ≠ a.dropLast → fs'.root.stampAt b = fs.root.stampAt b

/-- What is written to a path is put where it leads. -/
theorem Leads.put (h : fs.Leads p a) (hwrite : fs.write p content = .ok fs') :
    fs.Put a content fs' := by
  obtain ⟨written, hwrite', hwrote⟩ := h.write content
  cases hwrite.symm.trans hwrite'
  refine ⟨hwrote, fun b hb hd => ?_⟩
  cases h with
  | file hloc hfile =>
    obtain ⟨before, time, hs⟩ := Node.sightAt_of_shapeAt_file hfile
    rw [FileSystem.write, hloc] at hwrite
    simp only [Node.get?_of_sightAt_file hs] at hwrite
    cases hwrite
    exact Node.stampAt_replace hs content fs.now hb
  | @free dir name hloc =>
    obtain ⟨hdir, hnone⟩ := locate_absent hloc
    rw [FileSystem.write, hloc] at hwrite
    cases hwrite
    rw [List.dropLast_concat] at hd
    exact Node.stampAt_add (Node.sightAt_of_shapeAt_directory hdir)
      (Node.sightAt_of_shapeAt_none hnone) content fs.now hb hd

theorem Put.trans (h : fs.Put a content fs') (h' : fs'.Put a content' fs'') :
    fs.Put a content' fs'' where
  wrote := h.wrote.trans h'.wrote
  stampAt b hb hd := (h'.stampAt b hb hd).trans (h.stampAt b hb hd)

/-! ## Times of paths -/

theorem modifiedAt_eq (fs : FileSystem) (p : String) :
    fs.modifiedAt p =
      match fs.locate p with
      | .error e => .error e
      | .ok (.absent ..) => .error .notFound
      | .ok (.found a) =>
        match fs.root.stampAt a with
        | none => .error .notFound
        | some none => .error .linkLoop
        | some (some time) => .ok time := by
  rw [modifiedAt, find]
  cases fs.locate p with
  | error e => rfl
  | ok place =>
    cases place with
    | absent dir name => rfl
    | found a =>
      simp only [Node.stampAt]
      cases fs.root.get? a with
      | none => rfl
      | some node => cases node <;> rfl

theorem modifiedAt_ok {time : Time} :
    fs.modifiedAt p = .ok time ↔
      ∃ a, fs.locate p = .ok (.found a) ∧ fs.root.stampAt a = some (some time) := by
  rw [modifiedAt_eq]
  constructor
  · intro h
    split at h
    · cases h
    · cases h
    · rename_i a hloc
      split at h
      · cases h
      · cases h
      · rename_i stamp hstamp
        cases h
        exact ⟨a, hloc, hstamp⟩
  · rintro ⟨a, hloc, hstamp⟩
    simp only [hloc, hstamp]

/-- A path has the time that it had, unless it leads to the file that was written, or to the directory
that the file is in. -/
theorem Put.modifiedAt {time : Time} (h : fs.Put a content fs') (hp : fs'.modifiedAt p = .ok time) :
    fs.modifiedAt p = .ok time ∨ fs'.locate p = .ok (.found a) ∨
      fs'.locate p = .ok (.found a.dropLast) := by
  obtain ⟨b, hloc, hstamp⟩ := modifiedAt_ok.mp hp
  by_cases ha : b = a
  · exact .inr (.inl (ha ▸ hloc))
  by_cases hd : b = a.dropLast
  · exact .inr (.inr (hd ▸ hloc))
  rw [h.stampAt b ha hd] at hstamp
  have hstood : fs.root.shapeAt b ≠ none := by
    intro hnone
    rw [Node.stampAt_eq_none_iff.mpr hnone] at hstamp
    cases hstamp
  exact .inl (modifiedAt_ok.mpr
    ⟨b, locate_found_before h.wrote.grows h.wrote.cwd hloc hstood, hstamp⟩)

/-- A write to the first path changes the time of the second: that leads to the same file, or to the
directory that the file is in. -/
def Touches (fs : FileSystem) (q p : String) : Prop :=
  ∃ a, fs.locate q = .ok (.found a) ∧
    (fs.locate p = .ok (.found a) ∨ fs.locate p = .ok (.found a.dropLast))

/-- The file system after paths were written to, each once and in this order. -/
inductive WroteEach : FileSystem → List String → FileSystem → Prop
  | nil {fs : FileSystem} : WroteEach fs [] fs
  | cons {fs fs' fs'' : FileSystem} {p : String} {paths : List String} {a : Address}
    {content : ByteArray} : fs.Leads p a → fs.Put a content fs' → WroteEach fs' paths fs'' →
    WroteEach fs (p :: paths) fs''

namespace WroteEach

variable {paths : List String}

theorem grows (h : WroteEach fs paths fs') : fs.root.Grows fs'.root := by
  induction h with
  | nil => exact fun _ => .inl rfl
  | cons _ hput _ ih => exact hput.wrote.grows.trans ih

theorem cwd (h : WroteEach fs paths fs') : fs'.cwd = fs.cwd := by
  induction h with
  | nil => rfl
  | cons _ hput _ ih => exact ih.trans hput.wrote.cwd

theorem locate_found (h : WroteEach fs paths fs') (hp : fs.locate p = .ok (.found a)) :
    fs'.locate p = .ok (.found a) :=
  locate_grows h.grows h.cwd hp

/-- A path has the time that it had before, unless a write to one of the others changes it. -/
theorem modifiedAt {time : Time} (h : WroteEach fs paths fs') (hp : fs'.modifiedAt p = .ok time) :
    fs.modifiedAt p = .ok time ∨ ∃ q ∈ paths, fs'.Touches q p := by
  induction h with
  | nil => exact .inl hp
  | @cons fs mid fs' q paths a content hleads hput hrest ih =>
    rcases ih hp with hmid | ⟨q', hq', htouches⟩
    · rcases hput.modifiedAt hmid with hsame | hplace
      · exact .inl hsame
      · refine .inr ⟨q, List.mem_cons_self, a, hrest.locate_found ?_,
          hplace.imp hrest.locate_found hrest.locate_found⟩
        exact (hput.wrote.leads hleads).locate_file hput.wrote.shapeAt_self
    · exact .inr ⟨q', List.mem_cons_of_mem _ hq', htouches⟩

end WroteEach

end FileSystem

end Stencil
