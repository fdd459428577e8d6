import Stencil.Proofs.Files.Writing
import Stencil.Proofs.Path.Naming

/-!
# File systems without links

Where there are no symbolic links, a path goes from directory to directory, and what stands before
its last name leads to the directory that the name is looked up in. So a path and the same path
with another extension lead into one directory.

* `walkSteps_snoc`, `walkSteps_append`: the last step of a walk, and a walk from where another ends;
* `FileSystem.Opens`: what stands before a name leads to a directory;
* `FileSystem.Plain.opens_of_file`: so does what stands before the name of a file, in any path to it;
* `FileSystem.Plain.locate_pathOf`: the canonical path of a file leads to the file;
* `FileSystem.Plain.leads_withExtension`: where a path can be written once its extension is replaced.
-/

namespace Stencil

open Stencil.Path (Proper Lead renamed)

/-- The address that a place has, or would have. -/
def Place.address : Place → Address
  | .found a => a
  | .absent dir name => dir ++ [name]

/-! ## Steps -/

/-- The step of the last piece of a path. -/
def Step.ofName (name : List Char) : Step :=
  if name = ['.'] then .here else if name = ['.', '.'] then .up else .into (String.ofList name)

theorem Step.ofName_proper {name : List Char} (h : Proper name) :
    Step.ofName name = .into (String.ofList name) := by
  rw [ofName, if_neg h.ne_dot, if_neg h.ne_dots]

/-- The step of a piece of a path; an empty piece is none. -/
def Step.ofPiece (piece : List Char) : Option Step :=
  if piece = [] then none else some (Step.ofName piece)

/-- The steps of the pieces of a path. -/
def Step.ofLead (dir : List Char) : List Step :=
  (Text.splitAt '/' dir).filterMap Step.ofPiece

/-- The pieces of a path as steps. -/
theorem Step.filterMap_pieces (cs : List Char) :
    ((Text.pieces '/' (String.ofList cs)).filterMap fun piece =>
      if piece = "" then none else if piece = "." then some .here
      else if piece = ".." then some .up else some (.into piece)) = Step.ofLead cs := by
  rw [Text.pieces, String.toList_ofList, List.filterMap_map]
  refine List.filterMap_congr fun piece _ => ?_
  simp only [Function.comp, ofPiece, ofName]
  by_cases h₀ : piece = []
  · rw [if_pos h₀, if_pos (by rw [h₀])]
  · rw [if_neg h₀, if_neg (fun h => h₀ (String.ofList_eq_empty_iff.mp h))]
    by_cases h₁ : piece = ['.']
    · rw [if_pos h₁, if_pos (by rw [h₁])]
    · have h₁' : String.ofList piece ≠ "." := fun h => h₁ (String.ofList_injective h)
      rw [if_neg h₁, if_neg h₁']
      by_cases h₂ : piece = ['.', '.']
      · rw [if_pos h₂, if_pos (by rw [h₂])]
      · have h₂' : String.ofList piece ≠ ".." := fun h => h₂ (String.ofList_injective h)
        rw [if_neg h₂, if_neg h₂']

/-- A path that does not end in a separator has the steps of its pieces. -/
theorem Step.ofPath_eq {cs : List Char} (h : (Text.splitAt '/' cs).getLast? ≠ some []) :
    Step.ofPath (String.ofList cs) = Step.ofLead cs := by
  have hlast : (Text.pieces '/' (String.ofList cs)).getLast? ≠ some "" := by
    rw [Text.pieces, String.toList_ofList, List.getLast?_map]
    intro heq
    obtain ⟨piece, hp, hnil⟩ := Option.map_eq_some_iff.mp heq
    rw [hp] at h
    exact h (congrArg some (String.ofList_eq_empty_iff.mp hnil))
  rw [Step.ofPath]
  simp only [if_neg hlast]
  exact filterMap_pieces cs

theorem Step.ofPiece_of_ne_nil {piece : List Char} (h : piece ≠ []) :
    Step.ofPiece piece = some (Step.ofName piece) := if_neg h

theorem Step.ofLead_append_slash (init : List Char) :
    Step.ofLead (init ++ ['/']) = Step.ofLead init := by
  rw [ofLead, Text.splitAt_append_cons, Text.splitAt_of_notMem List.not_mem_nil,
    List.filterMap_append, List.filterMap_cons_none rfl, List.filterMap_nil, List.append_nil, ofLead]

theorem Step.ofLead_append {dir name : List Char} (hd : Lead dir) (hne : name ≠ [])
    (hno : '/' ∉ name) : Step.ofLead (dir ++ name) = Step.ofLead dir ++ [Step.ofName name] := by
  rcases hd with rfl | ⟨init, rfl⟩
  · rw [List.nil_append, ofLead, Text.splitAt_of_notMem hno,
      List.filterMap_cons_some (Step.ofPiece_of_ne_nil hne)]
    rfl
  · rw [Step.ofLead_append_slash, ofLead, List.append_assoc, List.singleton_append,
      Text.splitAt_append_cons, Text.splitAt_of_notMem hno, List.filterMap_append,
      List.filterMap_cons_some (Step.ofPiece_of_ne_nil hne)]
    rfl

theorem getLast?_splitAt {dir name : List Char} (hd : Lead dir) (hno : '/' ∉ name) :
    (Text.splitAt '/' (dir ++ name)).getLast? = some name := by
  rcases hd with rfl | ⟨init, rfl⟩
  · rw [List.nil_append, Text.splitAt_of_notMem hno]
    rfl
  · rw [List.append_assoc, List.singleton_append, Text.splitAt_append_cons,
      Text.splitAt_of_notMem hno, List.getLast?_concat]

/-- What stands before the last name of a path makes the same steps whatever the name is. -/
theorem Step.ofPath_append {dir name : List Char} (hd : Lead dir) (hne : name ≠ [])
    (hno : '/' ∉ name) :
    Step.ofPath (String.ofList (dir ++ name)) = Step.ofLead dir ++ [Step.ofName name] := by
  rw [Step.ofPath_eq, Step.ofLead_append hd hne hno]
  rw [getLast?_splitAt hd hno]
  exact fun h => hne (Option.some.inj h)

/-- A path that ends in a separator ends with a step that stays. -/
theorem Step.ofPath_lead (init : List Char) :
    Step.ofPath (String.ofList (init ++ ['/'])) = Step.ofLead init ++ [.here] := by
  have hlast : (Text.pieces '/' (String.ofList (init ++ ['/']))).getLast? = some "" := by
    rw [Text.pieces, String.toList_ofList, Text.splitAt_append_cons, List.map_append]
    exact List.getLast?_concat
  rw [Step.ofPath]
  simp only [if_pos hlast]
  rw [filterMap_pieces, Step.ofLead_append_slash]

/-- A path that does not end in a separator makes the steps that it makes before a name. -/
theorem Step.ofPath_open {cs : List Char} (hne : cs ≠ []) (hlast : cs.getLast? ≠ some '/') :
    Step.ofPath (String.ofList cs) = Step.ofLead cs := by
  obtain ⟨dir, name, rfl, hd, hno⟩ := Text.exists_split_last '/' cs
  refine Step.ofPath_eq ?_
  rw [getLast?_splitAt hd hno]
  intro hname
  cases hname
  rcases hd with rfl | ⟨init, rfl⟩
  · exact hne rfl
  · exact hlast (by rw [List.append_nil, List.getLast?_concat])

/-- The steps of a path go into names that entries can have. -/
theorem Step.proper_of_mem {p name : String} (h : Step.into name ∈ Step.ofPath p) :
    Proper name.toList := by
  rw [Step.ofPath] at h
  have h : Step.into name ∈ (Text.pieces '/' p).filterMap fun piece =>
      if piece = "" then none else if piece = "." then some .here
      else if piece = ".." then some .up else some (.into piece) := by
    split at h
    · rcases List.mem_append.mp h with h | h
      · exact h
      · cases List.mem_singleton.mp h
    · exact h
  obtain ⟨piece, hp, hstep⟩ := List.mem_filterMap.mp h
  split at hstep
  · cases hstep
  · rename_i hempty
    split at hstep
    · cases hstep
    · rename_i hdot
      split at hstep
      · cases hstep
      · rename_i hdots
        cases hstep
        obtain ⟨cs, hcs, rfl⟩ := List.mem_map.mp hp
        rw [String.toList_ofList]
        exact ⟨fun h => hempty (by rw [h]), fun h => hdot (by rw [h]),
          fun h => hdots (by rw [h]), Text.notMem_of_mem_splitAt hcs⟩

/-! ## Walks -/

section

variable {root : Node} {last : Bool} {follow : Address → List Step → Except IoError Place}
  {dir : Address} {steps : List Step}

/-- A tree without links. -/
def Node.Linkless (root : Node) : Prop :=
  ∀ a target, root.shapeAt a ≠ some (.link target)

theorem Node.linkless_file (content : ByteArray) (time : Time) :
    Linkless (.file content time) := by
  intro a target h
  cases a with
  | nil => cases h
  | cons name a => cases h

/-- A directory is free of links if its entries are. -/
theorem Node.linkless_directory {entries : List (String × Node)} {time : Time}
    (h : ∀ e ∈ entries, e.2.Linkless) : Linkless (.directory entries time) := by
  intro a target ha
  cases a with
  | nil => cases ha
  | cons name a =>
    cases hchild : Node.child? name entries with
    | none =>
      have hget : Node.get? (.directory entries time) (name :: a) = none := by
        rw [Node.get?, Node.entries, hchild]
      rw [Node.shapeAt, Node.sightAt, hget] at ha
      cases ha
    | some child =>
      have hget : Node.get? (.directory entries time) (name :: a) = child.get? a := by
        rw [Node.get?, Node.entries, hchild]
      obtain ⟨e, he, rfl⟩ := Option.map_eq_some_iff.mp hchild
      rw [Node.shapeAt, Node.sightAt, hget] at ha
      exact h e (List.mem_of_find?_eq_some he) a target ha

/-- Whether a node is a file. -/
def Node.isFile : Node → Bool
  | .file .. => true
  | .directory .. => false
  | .link .. => false

theorem Node.eq_file {node : Node} (h : node.isFile = true) :
    ∃ content time, node = .file content time := by
  cases node with
  | file content time => exact ⟨content, time, rfl⟩
  | directory entries time => cases h
  | link target => cases h

theorem Node.linkless_files {entries : List (String × Node)} {time : Time}
    (h : ∀ e ∈ entries, e.2.isFile = true) : Linkless (.directory entries time) := by
  refine linkless_directory fun e he => ?_
  obtain ⟨content, changed, hfile⟩ := eq_file (h e he)
  rw [hfile]
  exact linkless_file content changed

/-- What has something below it is a directory. -/
theorem Node.shapeAt_of_below {a b : Address} {name : String} {shape : Shape}
    (h : root.shapeAt (a ++ name :: b) = some shape) : root.shapeAt a = some .directory := by
  rw [shapeAt, sightAt, get?_append] at h
  rw [shapeAt, sightAt]
  cases hn : root.get? a with
  | none => rw [hn] at h; cases h
  | some node =>
    rw [hn] at h
    cases node with
    | directory entries time => rfl
    | file content time => cases h
    | link target => cases h

/-- What a directory is in is a directory. -/
theorem Node.shapeAt_of_append {a b : Address} (h : root.shapeAt (a ++ b) = some .directory) :
    root.shapeAt a = some .directory := by
  cases b with
  | nil => rwa [List.append_nil] at h
  | cons name b => exact Node.shapeAt_of_below h

theorem Node.shapeAt_dropLast (h : root.shapeAt dir = some .directory) :
    root.shapeAt dir.dropLast = some .directory := by
  rcases List.eq_nil_or_concat dir with rfl | ⟨init, name, rfl⟩
  · exact h
  · rw [List.concat_eq_append, List.dropLast_concat]
    rw [List.concat_eq_append] at h
    exact Node.shapeAt_of_append h

/-- A step to a name where there are no links. -/
theorem walkSteps_name (hl : root.Linkless) (hd : root.shapeAt dir = some .directory)
    (name : String) :
    walkSteps root last follow dir [.into name] =
      .ok (if root.shapeAt (dir ++ [name]) = none then .absent dir name
        else .found (dir ++ [name])) := by
  rw [walkSteps_into _ _ _ hd]
  cases hs : root.shapeAt (dir ++ [name]) with
  | none => rfl
  | some shape =>
    cases shape with
    | file => rfl
    | directory => rfl
    | link target => exact absurd hs (hl _ _)

/-- The last step of a walk is made from a directory that the others lead to. -/
theorem walkSteps_snoc (hl : root.Linkless) (hd : root.shapeAt dir = some .directory)
    {step : Step} {place : Place}
    (h : walkSteps root last follow dir (steps ++ [step]) = .ok place) :
    ∃ d, walkSteps root last follow dir steps = .ok (.found d) ∧
      root.shapeAt d = some .directory ∧ walkSteps root last follow d [step] = .ok place := by
  induction steps generalizing dir with
  | nil => exact ⟨dir, rfl, hd, h⟩
  | cons next rest ih =>
    cases next with
    | here => exact ih hd h
    | up => exact ih (Node.shapeAt_dropLast hd) h
    | into name =>
      rw [List.cons_append, walkSteps_into_ok_iff] at h
      rw [walkSteps_into _ _ _ hd]
      generalize hsteps : rest ++ [step] = steps at h
      cases h.2 with
      | free _ => cases rest <;> cases hsteps
      | file _ => cases rest <;> cases hsteps
      | directory hs hrest =>
        rw [hs]
        exact ih hs (hsteps ▸ hrest)
      | unfollowed hs _ => exact absurd hs (hl _ _)
      | followed hs _ _ => exact absurd hs (hl _ _)

/-- A walk goes on from the directory that its first steps lead to. -/
theorem walkSteps_append (hl : root.Linkless) (hd : root.shapeAt dir = some .directory)
    {d : Address} (h : walkSteps root last follow dir steps = .ok (.found d))
    (hd' : root.shapeAt d = some .directory) (more : List Step) :
    walkSteps root last follow dir (steps ++ more) = walkSteps root last follow d more := by
  induction steps generalizing dir with
  | nil => cases h; rfl
  | cons next rest ih =>
    cases next with
    | here => exact ih hd h
    | up => exact ih (Node.shapeAt_dropLast hd) h
    | into name =>
      rw [List.cons_append, walkSteps_into _ _ _ hd]
      cases (walkSteps_into_ok_iff.mp h).2 with
      | file hs =>
        rw [hs] at hd'
        cases hd'
      | directory hs hrest =>
        rw [hs]
        exact ih hs hrest
      | unfollowed hs _ => exact absurd hs (hl _ _)
      | followed hs _ _ => exact absurd hs (hl _ _)

/-- The names on the way to where a walk ends are those of its steps. -/
theorem walkSteps_names {P : String → Prop} (hl : root.Linkless) (hdir : ∀ name ∈ dir, P name)
    (hsteps : ∀ name, Step.into name ∈ steps → P name) {place : Place}
    (h : walkSteps root last follow dir steps = .ok place) : ∀ name ∈ place.address, P name := by
  induction steps generalizing dir with
  | nil => cases h; exact hdir
  | cons next rest ih =>
    have hrest : ∀ name, Step.into name ∈ rest → P name :=
      fun name hn => hsteps name (List.mem_cons_of_mem _ hn)
    cases next with
    | here => exact ih hdir hrest h
    | up => exact ih (fun name hn => hdir name (List.mem_of_mem_dropLast hn)) hrest h
    | into next =>
      have hnext : ∀ name ∈ dir ++ [next], P name := by
        intro name hn
        rcases List.mem_append.mp hn with hn | hn
        · exact hdir name hn
        · rw [List.mem_singleton.mp hn]
          exact hsteps next List.mem_cons_self
      cases (walkSteps_into_ok_iff.mp h).2 with
      | free _ => exact hnext
      | file _ => exact hnext
      | directory _ hwalk => exact ih hnext hrest hwalk
      | unfollowed _ _ => exact hnext
      | followed hs _ _ => exact absurd hs (hl _ _)

/-- A directory is reached by its names. -/
theorem walkSteps_address {d : Address} (h : root.shapeAt (dir ++ d) = some .directory) :
    walkSteps root last follow dir (d.map .into) = .ok (.found (dir ++ d)) := by
  induction d generalizing dir with
  | nil => rw [List.append_nil]; rfl
  | cons name d ih =>
    have hsplit : dir ++ name :: d = dir ++ [name] ++ d := by simp
    rw [hsplit] at h ⊢
    have hnext := Node.shapeAt_of_append h
    rw [List.map_cons, walkSteps_into _ _ _ (Node.shapeAt_of_append hnext), hnext]
    exact ih h

end

/-! ## Directories and the names in them -/

/-- The address of a file whose extension is replaced. -/
def Address.renamed (a : Address) (ext : String) : Address :=
  match a.getLast? with
  | none => a
  | some name => a.dropLast ++ [String.ofList (Path.renamed name.toList ext.toList)]

theorem Address.renamed_concat (d : Address) (name : List Char) (ext : String) :
    Address.renamed (d ++ [String.ofList name]) ext =
      d ++ [String.ofList (Path.renamed name ext.toList)] := by
  rw [Address.renamed, List.getLast?_concat, List.dropLast_concat]
  simp only [String.toList_ofList]

namespace FileSystem

/-- A file system without links, whose root is a directory. -/
structure Plain (fs : FileSystem) : Prop where
  root : fs.root.shapeAt [] = some .directory
  linkless : fs.root.Linkless

/-- The steps of a path from the root. -/
def stepsOf (fs : FileSystem) (p : String) : List Step :=
  if Path.isAbsolute p then Step.ofPath p else Step.ofPath fs.cwd ++ Step.ofPath p

/-- Where steps lead from a directory. -/
def walk (fs : FileSystem) (dir : Address) (steps : List Step) : Except IoError Place :=
  walkSteps fs.root true (walkLinks fs.root true 40) dir steps

/-- What stands where a path leads. -/
def look (fs : FileSystem) (p : String) : Except IoError Sight :=
  (fs.find p).map fun found => found.2.sight

variable {fs fs' : FileSystem} {p q : String} {a b d : Address} {dir name : List Char}

theorem locate_eq (hp : p ≠ "") : fs.locate p = fs.walk [] (fs.stepsOf p) :=
  if_neg (by simpa using hp)

theorem locate_ne_empty {place : Place} (h : fs.locate p = .ok place) : p ≠ "" := by
  rintro rfl
  cases h

/-- The steps from the root of what stands before a name in a path. -/
def leadSteps (fs : FileSystem) (dir : List Char) : List Step :=
  (if dir.head? = some '/' then [] else Step.ofPath fs.cwd) ++ Step.ofLead dir

theorem stepsOf_of_head {cs dir : List Char} (fs : FileSystem)
    (hhead : cs.head? = some '/' ↔ dir.head? = some '/') :
    fs.stepsOf (String.ofList cs) =
      (if dir.head? = some '/' then [] else Step.ofPath fs.cwd) ++ Step.ofPath (String.ofList cs) := by
  rw [stepsOf, Path.isAbsolute, String.toList_ofList]
  by_cases h : dir.head? = some '/'
  · rw [if_pos h, if_pos (decide_eq_true (hhead.mpr h))]
    rfl
  · rw [if_neg h, if_neg (by simpa using mt hhead.mp h)]

theorem stepsOf_append (fs : FileSystem) (hd : Lead dir) (hne : name ≠ []) (hno : '/' ∉ name) :
    fs.stepsOf (String.ofList (dir ++ name)) = fs.leadSteps dir ++ [Step.ofName name] := by
  have hhead : (dir ++ name).head? = some '/' ↔ dir.head? = some '/' := by
    cases dir with
    | cons c dir => rfl
    | nil =>
      obtain ⟨c, rest, rfl⟩ := List.exists_cons_of_ne_nil hne
      have hc : c ≠ '/' := fun h => hno (h ▸ List.mem_cons_self)
      simp [hc]
  rw [stepsOf_of_head fs hhead, Step.ofPath_append hd hne hno, leadSteps, List.append_assoc]

/-- A path that ends in a separator makes its steps, and then one that stays. -/
theorem stepsOf_lead (fs : FileSystem) (init : List Char) :
    fs.stepsOf (String.ofList (init ++ ['/'])) = fs.leadSteps (init ++ ['/']) ++ [.here] := by
  rw [stepsOf_of_head fs Iff.rfl, Step.ofPath_lead, leadSteps, Step.ofLead_append_slash,
    List.append_assoc]

/-- A path that ends in a name makes the steps that it makes before another. -/
theorem stepsOf_open (fs : FileSystem) {cs : List Char} (hne : cs ≠ [])
    (hlast : cs.getLast? ≠ some '/') :
    fs.stepsOf (String.ofList cs) = fs.leadSteps (cs ++ ['/']) := by
  have hhead : cs.head? = some '/' ↔ (cs ++ ['/']).head? = some '/' := by
    obtain ⟨c, rest, rfl⟩ := List.exists_cons_of_ne_nil hne
    rfl
  rw [stepsOf_of_head fs hhead, Step.ofPath_open hne hlast, leadSteps, Step.ofLead_append_slash]

/-- What stands before a name in a path leads to a directory, in which the name is looked up. -/
structure Opens (fs : FileSystem) (dir : List Char) (d : Address) : Prop where
  lead : Lead dir
  directory : fs.root.shapeAt d = some .directory
  locate (name : List Char) : name ≠ [] → '/' ∉ name →
    fs.locate (String.ofList (dir ++ name)) = fs.walk d [Step.ofName name]

theorem Plain.opens (h : fs.Plain) (hd : Lead dir)
    (hwalk : fs.walk [] (fs.leadSteps dir) = .ok (.found d))
    (hdir : fs.root.shapeAt d = some .directory) : fs.Opens dir d where
  lead := hd
  directory := hdir
  locate name hne hno := by
    have hp : String.ofList (dir ++ name) ≠ "" := fun h =>
      hne (List.append_eq_nil_iff.mp (String.ofList_eq_empty_iff.mp h)).2
    rw [locate_eq hp, fs.stepsOf_append hd hne hno]
    exact walkSteps_append h.linkless h.root hwalk hdir _

/-- A path to a file ends in the name of the file, and what stands before it leads to the file's
directory. -/
theorem Plain.opens_of_file (h : fs.Plain) (hp : fs.locate p = .ok (.found a))
    (ha : fs.root.shapeAt a = some .file) :
    ∃ dir name d, p = String.ofList (dir ++ name) ∧ Proper name ∧
      a = d ++ [String.ofList name] ∧ fs.Opens dir d := by
  obtain ⟨dir, name, hcs, hlead, hno⟩ := Text.exists_split_last '/' p.toList
  have hpath : p = String.ofList (dir ++ name) := by rw [← hcs, String.ofList_toList]
  have hlocate := hp
  rw [locate_eq (locate_ne_empty hp)] at hlocate
  -- No step but one into a name ends at a file.
  have hstay : ∀ d step, fs.root.shapeAt d = some .directory →
      fs.walk d [step] = .ok (.found a) → ∃ name, step = .into name := by
    intro d step hd hstep
    cases step with
    | here => cases hstep; rw [hd] at ha; cases ha
    | up => cases hstep; rw [Node.shapeAt_dropLast hd] at ha; cases ha
    | into name => exact ⟨name, rfl⟩
  by_cases hne : name = []
  · -- The path ends in a separator.
    rcases hlead with rfl | ⟨init, rfl⟩
    · exact absurd (by rw [hpath, hne]; rfl) (locate_ne_empty hp)
    rw [hpath, hne, List.append_nil, fs.stepsOf_lead] at hlocate
    obtain ⟨d, -, hd, hstep⟩ := walkSteps_snoc h.linkless h.root hlocate
    obtain ⟨_, hinto⟩ := hstay d .here hd hstep
    cases hinto
  · rw [hpath, fs.stepsOf_append hlead hne hno] at hlocate
    obtain ⟨d, hwalk, hd, hstep⟩ := walkSteps_snoc h.linkless h.root hlocate
    obtain ⟨_, hinto⟩ := hstay d _ hd hstep
    have hproper : Proper name := by
      refine ⟨hne, ?_, ?_, hno⟩
      · rintro rfl
        cases hinto
      · rintro rfl
        cases hinto
    refine ⟨dir, name, d, hpath, hproper, ?_, h.opens hlead hwalk hd⟩
    rw [Step.ofName_proper hproper, walkSteps_name h.linkless hd] at hstep
    split at hstep
    · cases hstep
    · cases hstep
      rfl

theorem Opens.locate_proper (h : fs.Opens dir d) (hl : fs.root.Linkless) (hn : Proper name) :
    fs.locate (String.ofList (dir ++ name)) =
      .ok (if fs.root.shapeAt (d ++ [String.ofList name]) = none then .absent d (String.ofList name)
        else .found (d ++ [String.ofList name])) := by
  rw [h.locate name hn.ne_nil hn.no_slash, Step.ofName_proper hn]
  exact walkSteps_name hl h.directory _

theorem Opens.locate_dots (h : fs.Opens dir d) :
    fs.locate (String.ofList (dir ++ ['.', '.'])) = .ok (.found d.dropLast) := by
  rw [h.locate ['.', '.'] (by decide) (by decide)]
  rfl

/-! ## Canonical paths -/

/-- What stands before the names in a directory, in their canonical paths. -/
def leadOf (d : Address) : List Char :=
  '/' :: d.flatMap fun name => name.toList ++ ['/']

theorem lead_leadOf (d : Address) : Lead (leadOf d) := by
  rcases List.eq_nil_or_concat d with rfl | ⟨init, name, rfl⟩
  · exact .inr ⟨[], rfl⟩
  · refine .inr ⟨leadOf init ++ name.toList, ?_⟩
    simp [leadOf]

theorem pathOf_concat (d : Address) (name : String) :
    pathOf (d ++ [name]) = String.ofList (leadOf d ++ name.toList) := by
  have hjoin : ∀ d : Address, ['/'].intercalate ((d ++ [name]).map String.toList) =
      (d.flatMap fun name => name.toList ++ ['/']) ++ name.toList := by
    intro d
    induction d with
    | nil => simp
    | cons first d ih =>
      rw [List.cons_append, List.map_cons, List.flatMap_cons, List.append_assoc, ← ih]
      cases d with
      | nil => simp
      | cons second d => simp
  rw [← String.toList_inj, pathOf, String.toList_append, String.toList_intercalate,
    show "/".toList = ['/'] from rfl, hjoin, String.toList_ofList]
  rfl

theorem splitAt_leadOf (d : Address) (hd : ∀ n ∈ d, Proper n.toList) (hno : '/' ∉ name) :
    Text.splitAt '/' (leadOf d ++ name) = [] :: d.map String.toList ++ [name] := by
  have hbody : ∀ d : Address, (∀ n ∈ d, Proper n.toList) →
      Text.splitAt '/' ((d.flatMap fun name => name.toList ++ ['/']) ++ name) =
        d.map String.toList ++ [name] := by
    intro d hd
    induction d with
    | nil => exact Text.splitAt_of_notMem hno
    | cons first d ih =>
      rw [List.flatMap_cons, List.append_assoc, List.append_assoc, List.singleton_append,
        Text.splitAt_append_cons, ih fun n hn => hd n (List.mem_cons_of_mem _ hn),
        Text.splitAt_of_notMem (hd first List.mem_cons_self).no_slash]
      rfl
  have hroot := Text.splitAt_append_cons '/' [] ((d.flatMap fun name => name.toList ++ ['/']) ++ name)
  rw [hbody d hd] at hroot
  exact hroot

/-- The canonical path of a directory's name opens the directory. -/
theorem Plain.opens_leadOf (h : fs.Plain) (hd : ∀ n ∈ d, Proper n.toList)
    (hdir : fs.root.shapeAt d = some .directory) : fs.Opens (leadOf d) d := by
  have hwalk : fs.walk [] (d.map .into) = .ok (.found d) := walkSteps_address hdir
  refine h.opens (lead_leadOf d) ?_ hdir
  have hs := splitAt_leadOf d hd List.not_mem_nil
  rw [List.append_nil] at hs
  have hmap : (d.map String.toList).filterMap Step.ofPiece = d.map .into := by
    rw [List.filterMap_map, ← List.filterMap_eq_map]
    refine List.filterMap_congr fun n hn => ?_
    rw [Function.comp, Step.ofPiece_of_ne_nil (hd n hn).ne_nil, Step.ofName_proper (hd n hn),
      String.ofList_toList]
    rfl
  have hsteps : fs.leadSteps (leadOf d) = d.map .into := by
    rw [leadSteps, if_pos (by rfl), List.nil_append, Step.ofLead, hs, List.cons_append,
      List.filterMap_cons_none rfl, List.filterMap_append, hmap, List.filterMap_cons_none rfl,
      List.filterMap_nil, List.append_nil]
  rw [hsteps]
  exact hwalk

/-- The names on the way to where a path leads are names that entries can have. -/
theorem Plain.proper_address (h : fs.Plain) {place : Place} (hp : fs.locate p = .ok place) :
    ∀ n ∈ place.address, Proper n.toList := by
  rw [locate_eq (locate_ne_empty hp)] at hp
  refine walkSteps_names (P := fun n => Proper n.toList) h.linkless
    (fun _ hn => absurd hn List.not_mem_nil) (fun n hn => ?_) hp
  rw [stepsOf] at hn
  split at hn
  · exact Step.proper_of_mem hn
  · rcases List.mem_append.mp hn with hn | hn
    · exact Step.proper_of_mem hn
    · exact Step.proper_of_mem hn

/-- The canonical path of a file leads to it. -/
theorem Plain.locate_pathOf (h : fs.Plain) (hp : fs.locate p = .ok (.found a))
    (ha : fs.root.shapeAt a = some .file) : fs.locate (pathOf a) = .ok (.found a) := by
  obtain ⟨dir, name, d, -, hn, rfl, hopens⟩ := h.opens_of_file hp ha
  have hnames := h.proper_address hp
  have hd : ∀ n ∈ d, Proper n.toList := fun n hn => hnames n (List.mem_append_left _ hn)
  rw [pathOf_concat, String.toList_ofList,
    (h.opens_leadOf hd hopens.directory).locate_proper h.linkless hn, ha]
  rfl

/-! ## Replaced extensions -/

/-- A path whose extension is replaced leads to a renamed file beside the file, or to a directory
above it. -/
theorem Plain.locate_withExtension (h : fs.Plain) (hp : fs.locate p = .ok (.found a))
    (ha : fs.root.shapeAt a = some .file) {ext : String} (hext : '/' ∉ ext.toList)
    (hq : Path.withExtension p ext = some q) :
    ∃ d name, a = d ++ [String.ofList name] ∧ fs.root.shapeAt d = some .directory ∧
      ((renamed name ext.toList = ['.', '.'] ∧ fs.locate q = .ok (.found d.dropLast)) ∨
        (renamed name ext.toList ≠ ['.', '.'] ∧ ∃ place, fs.locate q = .ok place ∧
          place.address = a.renamed ext)) := by
  obtain ⟨dir, name, d, rfl, hn, rfl, hopens⟩ := h.opens_of_file hp ha
  rw [Path.withExtension_append hopens.lead hn hext] at hq
  cases hq
  refine ⟨d, name, rfl, hopens.directory, ?_⟩
  rcases Path.renamed_cases hn hext with hproper | hdots
  · refine .inr ⟨hproper.ne_dots, _, hopens.locate_proper h.linkless hproper, ?_⟩
    rw [Address.renamed_concat]
    split
    · rfl
    · rfl
  · exact .inl ⟨hdots, by rw [hdots]; exact hopens.locate_dots⟩

theorem Leads.address_eq (hl : fs.Leads q b) {place : Place} (hq : fs.locate q = .ok place) :
    b = place.address := by
  cases hl with
  | file hloc => rw [hloc] at hq; cases hq; rfl
  | free hloc => rw [hloc] at hq; cases hq; rfl

/-- A path whose extension is replaced can only be written to beside the file. -/
theorem Plain.leads_withExtension (h : fs.Plain) (hp : fs.locate p = .ok (.found a))
    (ha : fs.root.shapeAt a = some .file) {ext : String} (hext : '/' ∉ ext.toList)
    (hq : Path.withExtension p ext = some q) (hl : fs.Leads q b) :
    b = a.renamed ext := by
  obtain ⟨d, name, rfl, hdir, ⟨-, hloc⟩ | ⟨-, place, hloc, hplace⟩⟩ :=
    h.locate_withExtension hp ha hext hq
  · cases hl with
    | file hloc' hfile =>
      rw [hloc] at hloc'
      cases hloc'
      rw [Node.shapeAt_dropLast hdir] at hfile
      cases hfile
    | free hloc' => rw [hloc] at hloc'; cases hloc'
  · rw [hl.address_eq hloc, hplace]

/-- What stands where a path leads is not changed by a write to another address. -/
theorem Wrote.look {content : ByteArray} (hw : fs.Wrote b content fs') {place : Place}
    (hq : fs.locate q = .ok place) (hne : place.address ≠ b) : fs'.look q = fs.look q := by
  have hq' := locate_grows hw.grows hw.cwd hq
  have hsight := hw.sightAt_other hne
  rw [FileSystem.look, FileSystem.look, find, find, hq]
  cases place with
  | found a =>
    have hnode : (fs'.root.get? a).map Node.sight = (fs.root.get? a).map Node.sight := hsight
    rw [hq']
    simp only [Place.settle]
    cases hget : fs.root.get? a with
    | none =>
      rw [hget] at hnode
      rw [Option.map_eq_none_iff.mp hnode]
    | some node =>
      rw [hget] at hnode
      obtain ⟨node', hget', hsame⟩ := Option.map_eq_some_iff.mp hnode
      rw [hget']
      exact congrArg Except.ok hsame
  | absent dir name =>
    have hnone : fs'.root.shapeAt (dir ++ [name]) = none := by
      rw [Node.shapeAt, show fs'.root.sightAt (dir ++ [name]) = _ from hsight]
      exact (locate_absent hq).2
    rw [hq', Place.settle, hnone]

/-- Where only a longer extension was written, a path with a shorter one shows what it showed. -/
theorem Plain.look_withExtension (h : fs.Plain) (hp : fs.locate p = .ok (.found a))
    (ha : fs.root.shapeAt a = some .file) {ext longer : String} (hext : '/' ∉ ext.toList)
    (hlt : ext.length < longer.length) (hq : Path.withExtension p ext = some q)
    {content : ByteArray} (hw : fs.Wrote (a.renamed longer) content fs') :
    fs'.look q = fs.look q := by
  obtain ⟨d, name, rfl, hdir, ⟨-, hloc⟩ | ⟨hdots, place, hloc, hplace⟩⟩ :=
    h.locate_withExtension hp ha hext hq
  · refine hw.look hloc fun heq => ?_
    have hlen := congrArg List.length heq
    rw [Address.renamed_concat, Place.address, List.length_dropLast, List.length_append] at hlen
    simp only [List.length_singleton] at hlen
    omega
  · refine hw.look hloc fun heq => ?_
    rw [hplace, Address.renamed_concat, Address.renamed_concat] at heq
    have hname := String.ofList_injective (List.cons.inj (List.append_cancel_left heq)).1
    exact Path.renamed_ne hdots hlt hname

/-- A write keeps a file system free of links. -/
theorem Wrote.plain {content : ByteArray} (hw : fs.Wrote b content fs') (h : fs.Plain) :
    fs'.Plain where
  root := hw.grows.shapeAt h.root
  linkless a target ha := by
    rcases hw.grows a with hs | ⟨-, hs⟩
    · exact h.linkless a target (hs ▸ ha)
    · rw [hs] at ha
      cases ha

end FileSystem

end Stencil
