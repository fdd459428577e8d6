import Stencil.Files.Discovery
import Stencil.Proofs.Files.Plain

/-!
# Paths below a directory

Names that are joined to a path to a directory are looked up in the directory, one in the other,
however many links the path itself goes through.

* `walkLinks_append`: a walk goes on from the directory that another one leads to;
* `FileSystem.locate_descend`: the path of an address below a directory leads there;
* `FileSystem.exists_locateWith`: a path that leads to something also does if a link at its end is
  not followed;
* `Path.components_descend`, `Path.components_withExtension_descend`: the components of such a path
  are those of the directory's path, and the names.
-/

namespace Stencil

open Stencil.Path (Proper leadTo)

/-! ## Walks through links -/

section

variable {root : Node} {last : Bool} {follow follow' : Address → List Step → Except IoError Place}
  {dir d : Address} {steps : List Step}

/-- A walk goes on from the directory that its first steps lead to. -/
theorem walkSteps_continue {more : List Step} {place : Place}
    (hf : ∀ dir steps, follow dir steps = .ok (.found d) → follow dir (steps ++ more) = .ok place)
    (hd : root.shapeAt d = some .directory)
    (hmore : walkSteps root true follow d more = .ok place)
    (h : walkSteps root true follow dir steps = .ok (.found d)) :
    walkSteps root true follow dir (steps ++ more) = .ok place := by
  induction steps generalizing dir with
  | nil => cases h; exact hmore
  | cons step rest ih =>
    cases step with
    | here => exact ih h
    | up => exact ih h
    | into name =>
      rw [List.cons_append, walkSteps_into_ok_iff]
      obtain ⟨hdir, h⟩ := walkSteps_into_ok_iff.mp h
      refine ⟨hdir, ?_⟩
      cases h with
      | file hs =>
        rw [hs] at hd
        cases hd
      | directory hs hrest => exact .directory hs (ih hrest)
      | unfollowed _ hlast => cases hlast
      | followed hs _ hrest =>
        refine .followed hs (fun _ => rfl) ?_
        rw [← List.append_assoc]
        exact hf _ _ hrest

/-- So it does through links, if the rest of the way meets none. -/
theorem walkLinks_append {links : Nat} {more : List Step} {place : Place}
    (hd : root.shapeAt d = some .directory)
    (hmore : ∀ follow, walkSteps root true follow d more = .ok place)
    (h : walkLinks root true links dir steps = .ok (.found d)) :
    walkLinks root true links dir (steps ++ more) = .ok place := by
  induction links generalizing dir steps with
  | zero => cases h
  | succ links ih => exact walkSteps_continue (fun _ _ => ih) hd (hmore _) h

/-- A step that stays, at the end of a walk, can be left out. -/
theorem walkSteps_here
    (hf : ∀ dir steps, follow dir (steps ++ [.here]) = .ok (.found d) →
      follow dir steps = .ok (.found d))
    (h : walkSteps root true follow dir (steps ++ [.here]) = .ok (.found d)) :
    walkSteps root true follow dir steps = .ok (.found d) := by
  induction steps generalizing dir with
  | nil => exact h
  | cons step rest ih =>
    cases step with
    | here => exact ih h
    | up => exact ih h
    | into name =>
      rw [List.cons_append, walkSteps_into_ok_iff] at h
      obtain ⟨hdir, h⟩ := h
      refine walkSteps_into_ok_iff.mpr ⟨hdir, ?_⟩
      generalize hsteps : rest ++ [Step.here] = steps at h
      cases h with
      | file _ => cases rest <;> cases hsteps
      | directory hs hrest => exact .directory hs (ih (hsteps ▸ hrest))
      | unfollowed _ hlast => cases hlast
      | followed hs _ hrest =>
        refine .followed hs (fun _ => rfl) (hf _ _ ?_)
        rw [List.append_assoc, hsteps]
        exact hrest

theorem walkLinks_here {links : Nat}
    (h : walkLinks root true links dir (steps ++ [.here]) = .ok (.found d)) :
    walkLinks root true links dir steps = .ok (.found d) := by
  induction links generalizing dir steps with
  | zero => cases h
  | succ links ih => exact walkSteps_here (fun _ _ => ih) h

/-- A walk that leads to something also does if a link at its end is not followed. -/
theorem walkSteps_unfollowed
    (hf : ∀ dir steps, follow dir steps = .ok (.found d) →
      ∃ a, follow' dir steps = .ok (.found a))
    (h : walkSteps root true follow dir steps = .ok (.found d)) :
    ∃ a, walkSteps root last follow' dir steps = .ok (.found a) := by
  induction steps generalizing dir with
  | nil => exact ⟨dir, rfl⟩
  | cons step rest ih =>
    cases step with
    | here => exact ih h
    | up => exact ih h
    | into name =>
      simp only [walkSteps_into_ok_iff] at h ⊢
      obtain ⟨hdir, h⟩ := h
      suffices henters : ∃ a, Enters root last follow' dir name rest (.found a) by
        obtain ⟨a, henters⟩ := henters
        exact ⟨a, hdir, henters⟩
      cases h with
      | file hs => exact ⟨_, .file hs⟩
      | directory hs hrest =>
        obtain ⟨a, ha⟩ := ih hrest
        exact ⟨a, .directory hs ha⟩
      | unfollowed _ hlast => cases hlast
      | followed hs _ hrest =>
        by_cases hend : rest = [] → last = true
        · obtain ⟨a, ha⟩ := hf _ _ hrest
          exact ⟨a, .followed hs hend ha⟩
        · obtain ⟨rfl, hlast⟩ := Classical.not_imp.mp hend
          exact ⟨_, .unfollowed hs (eq_false_of_ne_true hlast)⟩

theorem walkLinks_unfollowed {links : Nat}
    (h : walkLinks root true links dir steps = .ok (.found d)) :
    ∃ a, walkLinks root last links dir steps = .ok (.found a) := by
  induction links generalizing dir steps d with
  | zero => cases h
  | succ links ih => exact walkSteps_unfollowed (fun _ _ => ih) h

end

/-! ## Paths -/

namespace FileSystem

variable {fs : FileSystem} {p : String} {a d : Address}

theorem exists_locateWith (last : Bool) (h : fs.locate p = .ok (.found d)) :
    ∃ a, fs.locateWith last p = .ok (.found a) := by
  rw [locate, locateWith] at h
  rw [locateWith]
  split at h
  · cases h
  · rename_i hp
    rw [if_neg hp]
    exact walkLinks_unfollowed h

/-- A name that is joined to a path to a directory is looked up in the directory. -/
theorem locate_join (hp : fs.locate p = .ok (.found d))
    (hd : fs.root.shapeAt d = some .directory) {name : String} (hn : Proper name.toList)
    {shape : Shape} (hs : fs.root.shapeAt (d ++ [name]) = some shape)
    (hlink : ∀ target, shape ≠ .link target) :
    fs.locate (Path.join p name) = .ok (.found (d ++ [name])) := by
  have hempty := locate_ne_empty hp
  rw [locate_eq hempty] at hp
  have hp : walkLinks fs.root true 41 [] (fs.stepsOf p) = .ok (.found d) := hp
  -- What stands before the name leads to the directory, with or without the separator.
  have hlead : walkLinks fs.root true 41 [] (fs.leadSteps (leadTo p)) = .ok (.found d) := by
    rcases Path.leadTo_cases p with ⟨init, h, rfl⟩ | ⟨cs, h, rfl, hlast⟩
    · rw [fs.stepsOf_lead, ← h] at hp
      exact walkLinks_here hp
    · have hne : cs ≠ [] := fun h => hempty (String.ofList_eq_empty_iff.mpr h)
      rwa [fs.stepsOf_open hne hlast, ← h] at hp
  have hstep (follow) :
      walkSteps fs.root true follow d [.into name] = .ok (.found (d ++ [name])) := by
    rw [walkSteps_into _ _ _ hd, hs]
    cases shape with
    | file => rfl
    | directory => rfl
    | link target => exact absurd rfl (hlink target)
  rw [locate_eq (Path.join_ne_empty hempty hn), Path.join_eq hempty hn,
    fs.stepsOf_append (Path.lead_leadTo p) hn.ne_nil hn.no_slash, Step.ofName_proper hn,
    String.ofList_toList]
  exact walkLinks_append hd hstep hlead

/-- The path of an address below a directory leads there. -/
theorem locate_descend (hp : fs.locate p = .ok (.found d))
    (hnames : ∀ name ∈ a, Proper name.toList) {shape : Shape}
    (ha : fs.root.shapeAt (d ++ a) = some shape) (hlink : ∀ target, shape ≠ .link target) :
    fs.locate (Path.descend p a) = .ok (.found (d ++ a)) := by
  induction a generalizing p d with
  | nil => rw [List.append_nil]; exact hp
  | cons name a ih =>
    have hd : fs.root.shapeAt d = some .directory := Node.shapeAt_of_below ha
    have hsplit : d ++ name :: a = d ++ [name] ++ a := by simp
    rw [hsplit] at ha ⊢
    have hthere : ∃ shape, fs.root.shapeAt (d ++ [name]) = some shape ∧
        ∀ target, shape ≠ .link target := by
      cases a with
      | nil => rw [List.append_nil] at ha; exact ⟨shape, ha, hlink⟩
      | cons next a => exact ⟨.directory, Node.shapeAt_of_below ha, Shape.directory_ne_link⟩
    obtain ⟨between, hbetween, hnolink⟩ := hthere
    have hnext := locate_join hp hd (hnames name List.mem_cons_self) hbetween hnolink
    exact ih hnext (fun n hn => hnames n (List.mem_cons_of_mem _ hn)) ha

end FileSystem

namespace Path

variable {p ext : String} {a : Address}

theorem descend_concat (p : String) (a : Address) (name : String) :
    descend p (a ++ [name]) = join (descend p a) name :=
  List.foldl_concat ..

theorem descend_ne_empty (hp : p ≠ "") (hnames : ∀ name ∈ a, Proper name.toList) :
    descend p a ≠ "" := by
  induction a generalizing p with
  | nil => exact hp
  | cons name a ih =>
    exact ih (join_ne_empty hp (hnames name List.mem_cons_self))
      fun n h => hnames n (List.mem_cons_of_mem _ h)

/-- The components of the path of an address below a directory. -/
theorem components_descend (hp : p ≠ "") (hnames : ∀ name ∈ a, Proper name.toList) :
    components (descend p a) = components p ++ a.map .normal := by
  induction a generalizing p with
  | nil => exact (List.append_nil _).symm
  | cons name a ih =>
    have hn := hnames name List.mem_cons_self
    show components (descend (join p name) a) = _
    rw [ih (join_ne_empty hp hn) fun n h => hnames n (List.mem_cons_of_mem _ h), join_eq hp hn,
      components_leadTo hp hn.no_slash, pieceComponent_proper hn, String.ofList_toList,
      List.append_assoc]
    rfl

/-- With its extension replaced, it has another component in the place of the last. -/
theorem components_withExtension_descend {name : String} (hp : p ≠ "")
    (hnames : ∀ n ∈ a ++ [name], Proper n.toList) (hext : '/' ∉ ext.toList) :
    ∃ c, pieceComponent (renamed name.toList ext.toList) = some c ∧
      (withExtension (descend p (a ++ [name])) ext).map components =
        some (components p ++ a.map .normal ++ [c]) := by
  have ha : ∀ n ∈ a, Proper n.toList := fun n hn => hnames n (List.mem_append_left _ hn)
  have hn : Proper name.toList := hnames name (List.mem_append_right _ List.mem_cons_self)
  have hdir := descend_ne_empty hp ha
  have hpiece : ∃ c, pieceComponent (renamed name.toList ext.toList) = some c := by
    rcases renamed_cases hn hext with h | h
    · exact ⟨_, pieceComponent_proper h⟩
    · rw [h]; exact ⟨_, rfl⟩
  have hslash : '/' ∉ renamed name.toList ext.toList := by
    rcases renamed_cases hn hext with h | h
    · exact h.no_slash
    · rw [h]; decide
  obtain ⟨c, hc⟩ := hpiece
  refine ⟨c, hc, ?_⟩
  rw [descend_concat, join_eq hdir hn, withExtension_append (lead_leadTo _) hn hext,
    Option.map_some, components_leadTo hdir hslash, hc, components_descend hp ha]
  rfl

end Path

end Stencil
