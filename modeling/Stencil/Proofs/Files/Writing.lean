import Stencil.Proofs.Files.Sight

/-!
# Reading after writing

A path that leads to a file, or to a free name in a directory, can be written to. The write is
seen at that address and nowhere else, and every other path leads where it led before.

* `Enters`, `walkSteps_into_ok_iff`: where a walk goes by a step to a name;
* `walkSteps_grows`, `walkSteps_before`: a walk through a tree in which files were added;
* `FileSystem.Leads.write`: what writing to a path does;
* `FileSystem.Wrote.leads`: where paths lead afterwards;
* `FileSystem.Alike.readBytes`: files read the same wherever only times differ.
-/

namespace Stencil

/-- What a walk through a tree sees of a node. -/
inductive Shape where
  | file
  | directory
  | link (target : String)
  deriving DecidableEq

namespace Shape

theorem directory_ne_file : Shape.directory ≠ .file := by
  intro h
  cases h

theorem link_ne_file {target : String} : Shape.link target ≠ .file := by
  intro h
  cases h

theorem file_ne_link (target : String) : Shape.file ≠ .link target := by
  intro h
  cases h

theorem directory_ne_link (target : String) : Shape.directory ≠ .link target := by
  intro h
  cases h

end Shape

/-- The shape of a sight. -/
def Sight.shape : Sight → Shape
  | .file .. => .file
  | .directory => .directory
  | .link target => .link target

/-- A sight with its time left out. -/
def Sight.timeless : Sight → Sight
  | .file content _ => .file content 0
  | sight => sight

theorem Sight.shape_timeless (s : Sight) : s.timeless.shape = s.shape := by
  cases s <;> rfl

/-- The shape of what stands at an address. -/
def Node.shapeAt (root : Node) (a : Address) : Option Shape :=
  (root.sightAt a).map Sight.shape

theorem Node.sightAt_of_shapeAt_file {root : Node} {a : Address}
    (h : root.shapeAt a = some .file) :
    ∃ content time, root.sightAt a = some (.file content time) := by
  obtain ⟨sight, hs, hshape⟩ := Option.map_eq_some_iff.mp h
  cases sight with
  | file content time => exact ⟨content, time, hs⟩
  | directory => cases hshape
  | link target => cases hshape

theorem Node.sightAt_of_shapeAt_directory {root : Node} {a : Address}
    (h : root.shapeAt a = some .directory) : root.sightAt a = some .directory := by
  obtain ⟨sight, hs, hshape⟩ := Option.map_eq_some_iff.mp h
  cases sight with
  | file content time => cases hshape
  | directory => exact hs
  | link target => cases hshape

theorem Node.sightAt_of_shapeAt_none {root : Node} {a : Address} (h : root.shapeAt a = none) :
    root.sightAt a = none :=
  Option.map_eq_none_iff.mp h

/-! ## Walks -/

variable {root new : Node} {last : Bool} {follow follow' : Address → List Step → Except IoError Place}

/-- A step to a name needs a directory, and goes by the shape of what has the name there. -/
theorem walkSteps_into (follow : Address → List Step → Except IoError Place) (name : String)
    (rest : List Step) {dir : Address} (h : root.shapeAt dir = some .directory) :
    walkSteps root last follow dir (.into name :: rest) =
      match root.shapeAt (dir ++ [name]) with
      | none => if rest.isEmpty then .ok (.absent dir name) else .error .notFound
      | some .directory => walkSteps root last follow (dir ++ [name]) rest
      | some .file =>
        if rest.isEmpty then .ok (.found (dir ++ [name])) else .error .notADirectory
      | some (.link target) =>
        if rest.isEmpty && !last then .ok (.found (dir ++ [name]))
        else follow (if Path.isAbsolute target then [] else dir) (Step.ofPath target ++ rest) := by
  obtain ⟨entries, time, hget⟩ := Node.get?_of_sightAt_directory
    (Node.sightAt_of_shapeAt_directory h)
  rw [walkSteps, Node.shapeAt, Node.sightAt, Node.get?_append, hget]
  simp only [Option.bind_some, Node.get?, Node.entries]
  cases Node.child? name entries with
  | none => rfl
  | some child => cases child <;> rfl

theorem walkSteps_into_blocked (follow : Address → List Step → Except IoError Place)
    (name : String) (rest : List Step) {dir : Address} (h : root.shapeAt dir ≠ some .directory) :
    walkSteps root last follow dir (.into name :: rest) = .error .notADirectory := by
  rw [walkSteps]
  split
  · rename_i hget
    rw [Node.shapeAt, Node.sightAt, hget] at h
    exact absurd rfl h
  · rfl

/-- A guarded result that is there passed its guard. -/
theorem ok_of_ite {ε α : Type} {b : Bool} {x y : α} {e : ε}
    (h : (if b then Except.ok x else Except.error e) = .ok y) : b = true ∧ x = y := by
  cases b with
  | true => cases h; exact ⟨rfl, rfl⟩
  | false => cases h

/-- Where a walk goes from a directory by a step to a name, and by the steps after it. -/
inductive Enters (root : Node) (last : Bool)
    (follow : Address → List Step → Except IoError Place) (dir : Address) (name : String) :
    List Step → Place → Prop
  | free (hs : root.shapeAt (dir ++ [name]) = none) :
    Enters root last follow dir name [] (.absent dir name)
  | file (hs : root.shapeAt (dir ++ [name]) = some .file) :
    Enters root last follow dir name [] (.found (dir ++ [name]))
  | directory {rest : List Step} {place : Place}
    (hs : root.shapeAt (dir ++ [name]) = some .directory)
    (hrest : walkSteps root last follow (dir ++ [name]) rest = .ok place) :
    Enters root last follow dir name rest place
  | unfollowed {target : String} (hs : root.shapeAt (dir ++ [name]) = some (.link target))
    (hlast : last = false) : Enters root last follow dir name [] (.found (dir ++ [name]))
  | followed {target : String} {rest : List Step} {place : Place}
    (hs : root.shapeAt (dir ++ [name]) = some (.link target)) (hend : rest = [] → last = true)
    (hrest : follow (if Path.isAbsolute target then [] else dir) (Step.ofPath target ++ rest) =
      .ok place) :
    Enters root last follow dir name rest place

theorem walkSteps_into_ok_iff {dir : Address} {name : String} {rest : List Step} {place : Place} :
    walkSteps root last follow dir (.into name :: rest) = .ok place ↔
      root.shapeAt dir = some .directory ∧ Enters root last follow dir name rest place := by
  constructor
  · intro h
    by_cases hd : root.shapeAt dir = some .directory
    · refine ⟨hd, ?_⟩
      rw [walkSteps_into _ _ _ hd] at h
      cases hs : root.shapeAt (dir ++ [name]) with
      | none =>
        rw [hs] at h
        obtain ⟨hrest, rfl⟩ := ok_of_ite h
        rw [List.isEmpty_iff.mp hrest]
        exact .free hs
      | some shape =>
        rw [hs] at h
        cases shape with
        | file =>
          obtain ⟨hrest, rfl⟩ := ok_of_ite h
          rw [List.isEmpty_iff.mp hrest]
          exact .file hs
        | directory => exact .directory hs h
        | link target =>
          by_cases hend : rest = [] → last = true
          · have hguard : (rest.isEmpty && !last) = false := by simpa using hend
            simp only [hguard] at h
            exact .followed hs hend h
          · obtain ⟨rfl, hlast⟩ := Classical.not_imp.mp hend
            rw [Bool.not_eq_true] at hlast
            subst hlast
            cases h
            exact .unfollowed hs rfl
    · rw [walkSteps_into_blocked _ _ _ hd] at h
      cases h
  · rintro ⟨hd, h⟩
    rw [walkSteps_into _ _ _ hd]
    cases h with
    | free hs => rw [hs]; rfl
    | file hs => rw [hs]; rfl
    | directory hs hrest => rw [hs]; exact hrest
    | unfollowed hs hlast => rw [hs, hlast]; rfl
    | followed hs hend hrest =>
      have hguard : (rest.isEmpty && !last) = false := by simpa using hend
      rw [hs]
      simp only [hguard]
      exact hrest

/-- Walks do not tell trees of the same shape apart. -/
theorem walkSteps_congr (h : ∀ a, new.shapeAt a = root.shapeAt a)
    (hf : ∀ dir steps, follow' dir steps = follow dir steps) (dir : Address) (steps : List Step) :
    walkSteps new last follow' dir steps = walkSteps root last follow dir steps := by
  induction steps generalizing dir with
  | nil => rfl
  | cons step rest ih =>
    cases step with
    | here => exact ih dir
    | up => exact ih dir.dropLast
    | into name =>
      by_cases hd : root.shapeAt dir = some .directory
      · rw [walkSteps_into _ _ _ hd, walkSteps_into _ _ _ ((h dir).trans hd), h, ih]
        simp only [hf]
      · rw [walkSteps_into_blocked _ _ _ hd, walkSteps_into_blocked _ _ _ (h dir ▸ hd)]

theorem walkLinks_congr (h : ∀ a, new.shapeAt a = root.shapeAt a) (links : Nat) (dir : Address)
    (steps : List Step) : walkLinks new last links dir steps = walkLinks root last links dir steps := by
  induction links generalizing dir steps with
  | zero => rfl
  | succ links ih => exact walkSteps_congr h ih dir steps

/-- The second tree is the first one with some files added. -/
def Node.Grows (root new : Node) : Prop :=
  ∀ a, new.shapeAt a = root.shapeAt a ∨ root.shapeAt a = none ∧ new.shapeAt a = some .file

theorem Node.Grows.shapeAt (h : root.Grows new) {a : Address} {shape : Shape}
    (ha : root.shapeAt a = some shape) : new.shapeAt a = some shape := by
  rcases h a with hs | ⟨hs, -⟩
  · rw [hs, ha]
  · rw [hs] at ha
    cases ha

/-- What is no file stood there before. -/
theorem Node.Grows.shapeAt_before (h : root.Grows new) {a : Address} {shape : Shape}
    (ha : new.shapeAt a = some shape) (hne : shape ≠ .file) : root.shapeAt a = some shape := by
  rcases h a with hs | ⟨-, hs⟩
  · rw [← hs, ha]
  · rw [ha] at hs
    cases hs
    exact absurd rfl hne

theorem Node.Grows.trans {last : Node} (h : root.Grows new) (h' : new.Grows last) :
    root.Grows last := by
  intro a
  rcases h' a with hs' | ⟨hnone, hfile⟩
  · rw [hs']
    exact h a
  · rcases h a with hs | ⟨-, hs⟩
    · exact .inr ⟨hs.symm.trans hnone, hfile⟩
    · rw [hnone] at hs
      cases hs

/-- The place in a tree with files added: a name that was free may be taken. -/
def Place.settle (root : Node) : Place → Place
  | .found a => .found a
  | .absent dir name =>
    match root.shapeAt (dir ++ [name]) with
    | none => .absent dir name
    | some _ => .found (dir ++ [name])

/-- A walk that gets somewhere gets there again once files were added. -/
theorem walkSteps_grows (hg : root.Grows new)
    (hf : ∀ dir steps place, follow dir steps = .ok place →
      follow' dir steps = .ok (place.settle new))
    {dir : Address} {steps : List Step} {place : Place}
    (h : walkSteps root last follow dir steps = .ok place) :
    walkSteps new last follow' dir steps = .ok (place.settle new) := by
  induction steps generalizing dir with
  | nil => cases h; rfl
  | cons step rest ih =>
    cases step with
    | here => exact ih h
    | up => exact ih h
    | into name =>
      rw [walkSteps_into_ok_iff] at h ⊢
      obtain ⟨hd, h⟩ := h
      refine ⟨hg.shapeAt hd, ?_⟩
      cases h with
      | free hs =>
        -- The name is still free, or it is that of an added file.
        rw [Place.settle]
        rcases hg (dir ++ [name]) with hs' | ⟨-, hs'⟩
        · rw [hs', hs]
          exact .free (hs'.trans hs)
        · rw [hs']
          exact .file hs'
      | file hs => exact .file (hg.shapeAt hs)
      | directory hs hrest => exact .directory (hg.shapeAt hs) (ih hrest)
      | unfollowed hs hlast => exact .unfollowed (hg.shapeAt hs) hlast
      | followed hs hend hrest => exact .followed (hg.shapeAt hs) hend (hf _ _ _ hrest)

theorem walkLinks_grows (hg : root.Grows new) {links : Nat} {dir : Address} {steps : List Step}
    {place : Place} (h : walkLinks root last links dir steps = .ok place) :
    walkLinks new last links dir steps = .ok (place.settle new) := by
  induction links generalizing dir steps place with
  | zero => cases h
  | succ links ih => exact walkSteps_grows hg (fun _ _ _ => ih) h

/-- A walk through a tree in which files were added got somewhere before them: a file that is new
had a free name. -/
theorem walkSteps_before (hg : root.Grows new)
    (hf : ∀ dir steps place, follow' dir steps = .ok place →
      ∃ before, follow dir steps = .ok before)
    {dir : Address} {steps : List Step} {place : Place}
    (h : walkSteps new last follow' dir steps = .ok place) :
    ∃ before, walkSteps root last follow dir steps = .ok before := by
  induction steps generalizing dir with
  | nil => exact ⟨_, rfl⟩
  | cons step rest ih =>
    cases step with
    | here => exact ih h
    | up => exact ih h
    | into name =>
      simp only [walkSteps_into_ok_iff] at h ⊢
      obtain ⟨hd, h⟩ := h
      suffices henters : ∃ before, Enters root last follow dir name rest before by
        obtain ⟨before, henters⟩ := henters
        exact ⟨before, hg.shapeAt_before hd Shape.directory_ne_file, henters⟩
      cases h with
      | free hs =>
        rcases hg (dir ++ [name]) with hs' | ⟨hs', -⟩
        · exact ⟨_, .free (hs'.symm.trans hs)⟩
        · exact ⟨_, .free hs'⟩
      | file hs =>
        rcases hg (dir ++ [name]) with hs' | ⟨hs', -⟩
        · exact ⟨_, .file (hs'.symm.trans hs)⟩
        · exact ⟨_, .free hs'⟩
      | directory hs hrest =>
        obtain ⟨before, hbefore⟩ := ih hrest
        exact ⟨before, .directory (hg.shapeAt_before hs Shape.directory_ne_file) hbefore⟩
      | unfollowed hs hlast =>
        exact ⟨_, .unfollowed (hg.shapeAt_before hs Shape.link_ne_file) hlast⟩
      | followed hs hend hrest =>
        obtain ⟨before, hbefore⟩ := hf _ _ _ hrest
        exact ⟨before, .followed (hg.shapeAt_before hs Shape.link_ne_file) hend hbefore⟩

theorem walkLinks_before (hg : root.Grows new) {links : Nat} {dir : Address} {steps : List Step}
    {place : Place} (h : walkLinks new last links dir steps = .ok place) :
    ∃ before, walkLinks root last links dir steps = .ok before := by
  induction links generalizing dir steps place with
  | zero => cases h
  | succ links ih => exact walkSteps_before hg (fun _ _ _ => ih) h

/-- A name that a walk found free is free, in a directory. -/
theorem walkSteps_absent
    (hf : ∀ d steps dir name, follow d steps = .ok (.absent dir name) →
      root.shapeAt dir = some .directory ∧ root.shapeAt (dir ++ [name]) = none)
    {d dir : Address} {steps : List Step} {name : String}
    (h : walkSteps root last follow d steps = .ok (.absent dir name)) :
    root.shapeAt dir = some .directory ∧ root.shapeAt (dir ++ [name]) = none := by
  induction steps generalizing d with
  | nil => cases h
  | cons step rest ih =>
    cases step with
    | here => exact ih h
    | up => exact ih h
    | into next =>
      obtain ⟨hd, h⟩ := walkSteps_into_ok_iff.mp h
      cases h with
      | free hs => exact ⟨hd, hs⟩
      | directory hs hrest => exact ih hrest
      | followed hs hend hrest => exact hf _ _ _ _ hrest

theorem walkLinks_absent {links : Nat} {d dir : Address} {steps : List Step} {name : String}
    (h : walkLinks root last links d steps = .ok (.absent dir name)) :
    root.shapeAt dir = some .directory ∧ root.shapeAt (dir ++ [name]) = none := by
  induction links generalizing d steps dir name with
  | zero => cases h
  | succ links ih => exact walkSteps_absent (fun _ _ _ _ => ih) h

/-! ## Paths -/

namespace FileSystem

variable {fs fs' : FileSystem} {p : String} {a b : Address}

theorem locate_congr (h : ∀ a, fs'.root.shapeAt a = fs.root.shapeAt a) (hcwd : fs'.cwd = fs.cwd)
    (p : String) : fs'.locate p = fs.locate p := by
  rw [locate, locate, locateWith, locateWith, hcwd]
  split
  · rfl
  · exact walkLinks_congr h _ _ _

theorem locate_grows (hg : fs.root.Grows fs'.root) (hcwd : fs'.cwd = fs.cwd) {place : Place}
    (h : fs.locate p = .ok place) : fs'.locate p = .ok (place.settle fs'.root) := by
  rw [locate, locateWith] at h ⊢
  rw [hcwd]
  split at h
  · cases h
  · rename_i hp
    rw [if_neg hp]
    exact walkLinks_grows hg h

theorem locate_before (hg : fs.root.Grows fs'.root) (hcwd : fs'.cwd = fs.cwd) {place : Place}
    (h : fs'.locate p = .ok place) : ∃ before, fs.locate p = .ok before := by
  rw [locate, locateWith] at h ⊢
  rw [hcwd] at h
  split at h
  · cases h
  · rename_i hp
    rw [if_neg hp]
    exact walkLinks_before hg h

theorem locate_absent {dir : Address} {name : String} (h : fs.locate p = .ok (.absent dir name)) :
    fs.root.shapeAt dir = some .directory ∧ fs.root.shapeAt (dir ++ [name]) = none := by
  rw [locate, locateWith] at h
  split at h
  · cases h
  · exact walkLinks_absent h

/-- A path to what stood there before led to it before. -/
theorem locate_found_before (hg : fs.root.Grows fs'.root) (hcwd : fs'.cwd = fs.cwd)
    (h : fs'.locate p = .ok (.found a)) (ha : fs.root.shapeAt a ≠ none) :
    fs.locate p = .ok (.found a) := by
  obtain ⟨place, hbefore⟩ := locate_before hg hcwd h
  have hafter := locate_grows hg hcwd hbefore
  rw [h] at hafter
  cases place with
  | found c =>
    cases hafter
    exact hbefore
  | absent dir name =>
    rw [Place.settle] at hafter
    split at hafter
    · cases hafter
    · cases hafter
      exact absurd (locate_absent hbefore).2 ha

/-- A directory that a path leads to is none of the files that were added. -/
theorem locate_directory (hg : fs.root.Grows fs'.root) (hcwd : fs'.cwd = fs.cwd)
    (h : fs'.locate p = .ok (.found a)) (ha : fs'.root.shapeAt a = some .directory) :
    fs.locate p = .ok (.found a) ∧ fs.root.shapeAt a = some .directory := by
  have hshape := hg.shapeAt_before ha Shape.directory_ne_file
  refine ⟨locate_found_before hg hcwd h ?_, hshape⟩
  rw [hshape]
  exact Option.some_ne_none _

/-- A path leads to a file, or to a free name in a directory: it can be written to. -/
inductive Leads (fs : FileSystem) (p : String) : Address → Prop
  | file {a : Address} :
    fs.locate p = .ok (.found a) → fs.root.shapeAt a = some .file → Leads fs p a
  | free {dir : Address} {name : String} :
    fs.locate p = .ok (.absent dir name) → Leads fs p (dir ++ [name])

theorem Leads.locate_file (hp : fs.Leads p a) (ha : fs.root.shapeAt a = some .file) :
    fs.locate p = .ok (.found a) := by
  cases hp with
  | file hloc => exact hloc
  | free hloc =>
    rw [(locate_absent hloc).2] at ha
    cases ha

/-- A path leads to one address. -/
theorem Leads.unique (h : fs.Leads p a) {b : Address} (h' : fs.Leads p b) : a = b := by
  cases h with
  | file hloc _ =>
    cases h' with
    | file hloc' _ => cases hloc.symm.trans hloc'; rfl
    | free hloc' => cases hloc.symm.trans hloc'
  | free hloc =>
    cases h' with
    | file hloc' _ => cases hloc.symm.trans hloc'
    | free hloc' => cases hloc.symm.trans hloc'; rfl

/-- The file system after a file was written at an address. -/
structure Wrote (fs : FileSystem) (a : Address) (content : ByteArray) (fs' : FileSystem) :
    Prop where
  cwd : fs'.cwd = fs.cwd
  now : fs'.now = fs.now
  room : fs.root.shapeAt a = none ∨ fs.root.shapeAt a = some .file
  sightAt (b : Address) :
    fs'.root.sightAt b = if b = a then some (.file content fs.now) else fs.root.sightAt b

/-! ## Writing -/

/-- A path that leads to an address can be written to, there and nowhere else. -/
theorem Leads.write (h : fs.Leads p a) (content : ByteArray) :
    ∃ fs', fs.write p content = .ok fs' ∧ fs.Wrote a content fs' := by
  cases h with
  | file hloc hfile =>
    obtain ⟨before, time, hs⟩ := Node.sightAt_of_shapeAt_file hfile
    rw [FileSystem.write, hloc]
    simp only [Node.get?_of_sightAt_file hs]
    exact ⟨_, rfl, rfl, rfl, .inr hfile, Node.sightAt_replace hs content fs.now⟩
  | @free dir name hloc =>
    obtain ⟨hdir, hnone⟩ := locate_absent hloc
    rw [FileSystem.write, hloc]
    exact ⟨_, rfl, rfl, rfl, .inl hnone,
      Node.sightAt_add name (Node.sightAt_of_shapeAt_directory hdir)
        (Node.sightAt_of_shapeAt_none hnone) content fs.now⟩

namespace Wrote

variable {content : ByteArray} (h : fs.Wrote a content fs')

include h

theorem sightAt_self : fs'.root.sightAt a = some (.file content fs.now) := by
  rw [h.sightAt, if_pos rfl]

theorem sightAt_other (hb : b ≠ a) : fs'.root.sightAt b = fs.root.sightAt b := by
  rw [h.sightAt, if_neg hb]

theorem shapeAt_self : fs'.root.shapeAt a = some .file := by
  rw [Node.shapeAt, h.sightAt_self]
  rfl

theorem grows : fs.root.Grows fs'.root := by
  intro b
  by_cases hb : b = a
  · subst hb
    rw [h.shapeAt_self]
    exact h.room.elim (fun hn => .inr ⟨hn, rfl⟩) fun hf => .inl hf.symm
  · rw [Node.shapeAt, h.sightAt_other hb]
    exact .inl rfl

/-- Paths lead where they led before. -/
theorem leads (hp : fs.Leads p b) : fs'.Leads p b := by
  cases hp with
  | file hloc hfile => exact .file (locate_grows h.grows h.cwd hloc) (h.grows.shapeAt hfile)
  | @free dir name hloc =>
    have hloc' := locate_grows h.grows h.cwd hloc
    rw [Place.settle] at hloc'
    rcases h.grows (dir ++ [name]) with hs | ⟨-, hs⟩
    · rw [hs, (locate_absent hloc).2] at hloc'
      exact .free hloc'
    · rw [hs] at hloc'
      exact .file hloc' hs

/-- A file that is written twice holds what was written last. -/
theorem trans {fs'' : FileSystem} {content' : ByteArray} (h' : fs'.Wrote a content' fs'') :
    fs.Wrote a content' fs'' where
  cwd := h'.cwd.trans h.cwd
  now := h'.now.trans h.now
  room := h.room
  sightAt b := by
    by_cases hb : b = a
    · rw [if_pos hb, hb, h'.sightAt_self, h.now]
    · rw [if_neg hb, h'.sightAt_other hb, h.sightAt_other hb]

end Wrote

/-! ## Reading -/

theorem Leads.find_file (h : fs.Leads p a) {content : ByteArray} {time : Time}
    (hs : fs.root.sightAt a = some (.file content time)) :
    fs.find p = .ok (a, .file content time) := by
  cases h with
  | file hloc => simp only [find, hloc, Node.get?_of_sightAt_file hs]
  | free hloc =>
    have hnone := Node.sightAt_of_shapeAt_none (locate_absent hloc).2
    rw [hs] at hnone
    cases hnone

theorem Leads.readBytes_file (h : fs.Leads p a) {content : ByteArray} {time : Time}
    (hs : fs.root.sightAt a = some (.file content time)) : fs.readBytes p = .ok content := by
  rw [readBytes, h.find_file hs]

theorem Leads.modifiedAt_file (h : fs.Leads p a) {content : ByteArray} {time : Time}
    (hs : fs.root.sightAt a = some (.file content time)) : fs.modifiedAt p = .ok time := by
  rw [modifiedAt, h.find_file hs]

theorem Wrote.modifiedAt_other {content content' : ByteArray} {time : Time}
    (h : fs.Wrote a content fs') (hp : fs.Leads p b) (hb : b ≠ a)
    (hs : fs.root.sightAt b = some (.file content' time)) : fs'.modifiedAt p = .ok time :=
  (h.leads hp).modifiedAt_file ((h.sightAt_other hb).trans hs)

theorem Leads.canonical_file (h : fs.Leads p a) {content : ByteArray} {time : Time}
    (hs : fs.root.sightAt a = some (.file content time)) : fs.canonical p = .ok (pathOf a) := by
  rw [canonical, h.find_file hs]

theorem Leads.modifiedAt_free (h : fs.Leads p a) (hs : fs.root.sightAt a = none) :
    fs.modifiedAt p = .error .notFound := by
  cases h with
  | file hloc hfile =>
    rw [Node.shapeAt, hs] at hfile
    cases hfile
  | free hloc => rw [modifiedAt, find, hloc]

/-- Where a path leads, there is a file or nothing. -/
theorem Leads.sightAt (h : fs.Leads p a) :
    fs.root.sightAt a = none ∨ ∃ content time, fs.root.sightAt a = some (.file content time) := by
  cases h with
  | file hloc hfile => exact .inr (Node.sightAt_of_shapeAt_file hfile)
  | free hloc => exact .inl (Node.sightAt_of_shapeAt_none (locate_absent hloc).2)

/-! ## File systems that differ in times only -/

/-- The same files with the same content, whenever they were changed. -/
structure Alike (fs fs' : FileSystem) : Prop where
  cwd : fs'.cwd = fs.cwd
  timeless (a : Address) :
    (fs'.root.sightAt a).map Sight.timeless = (fs.root.sightAt a).map Sight.timeless

namespace Alike

theorem refl (fs : FileSystem) : fs.Alike fs :=
  ⟨rfl, fun _ => rfl⟩

theorem shapeAt (h : fs.Alike fs') (a : Address) : fs'.root.shapeAt a = fs.root.shapeAt a := by
  have hs := congrArg (Option.map Sight.shape) (h.timeless a)
  rw [Option.map_map, Option.map_map] at hs
  rwa [show Sight.shape ∘ Sight.timeless = Sight.shape from funext Sight.shape_timeless] at hs

theorem locate (h : fs.Alike fs') (p : String) : fs'.locate p = fs.locate p :=
  locate_congr h.shapeAt h.cwd p

theorem leads (h : fs.Alike fs') (hp : fs.Leads p a) : fs'.Leads p a := by
  cases hp with
  | file hloc hfile => exact .file (h.locate p ▸ hloc) (h.shapeAt a ▸ hfile)
  | free hloc => exact .free (h.locate p ▸ hloc)

theorem sightAt_file (h : fs.Alike fs') {content : ByteArray} {time : Time}
    (hs : fs.root.sightAt a = some (.file content time)) :
    ∃ time', fs'.root.sightAt a = some (.file content time') := by
  have ht := h.timeless a
  rw [hs] at ht
  obtain ⟨sight, hsight, heq⟩ := Option.map_eq_some_iff.mp ht
  cases sight with
  | file content' time' => cases heq; exact ⟨time', hsight⟩
  | directory => cases heq
  | link target => cases heq

/-- Writing the same to both keeps them alike. -/
theorem wrote (h : fs.Alike fs') {content : ByteArray} {gs gs' : FileSystem}
    (hw : fs.Wrote a content gs) (hw' : fs'.Wrote a content gs') : gs.Alike gs' where
  cwd := by rw [hw.cwd, hw'.cwd, h.cwd]
  timeless b := by
    by_cases hb : b = a
    · rw [hb, hw.sightAt_self, hw'.sightAt_self]
      rfl
    · rw [hw.sightAt_other hb, hw'.sightAt_other hb, h.timeless]

/-- So does writing what one of them holds already to the other. -/
theorem wrote_again (h : fs.Alike fs') {content : ByteArray} {time : Time} {gs' : FileSystem}
    (hs : fs.root.sightAt a = some (.file content time)) (hw : fs'.Wrote a content gs') :
    fs.Alike gs' where
  cwd := by rw [hw.cwd, h.cwd]
  timeless b := by
    by_cases hb : b = a
    · rw [hb, hs, hw.sightAt_self]
      rfl
    · rw [hw.sightAt_other hb, h.timeless]

end Alike

theorem readBytes_eq (fs : FileSystem) (p : String) :
    fs.readBytes p =
      match fs.locate p with
      | .error e => .error e
      | .ok (.absent ..) => .error .notFound
      | .ok (.found a) =>
        match (fs.root.sightAt a).map Sight.timeless with
        | none => .error .notFound
        | some (.file content _) => .ok content
        | some _ => .error .isADirectory := by
  rw [readBytes, find]
  cases fs.locate p with
  | error e => rfl
  | ok place =>
    cases place with
    | absent dir name => rfl
    | found a =>
      simp only [Node.sightAt]
      cases fs.root.get? a with
      | none => rfl
      | some node => cases node <;> rfl

/-- Files read the same wherever only times differ. -/
theorem Alike.readBytes (h : fs.Alike fs') (p : String) : fs'.readBytes p = fs.readBytes p := by
  rw [readBytes_eq, readBytes_eq, h.locate]
  simp only [h.timeless]

end FileSystem

end Stencil
