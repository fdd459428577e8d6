import Mathlib.Data.List.Forall2
import Mathlib.Data.List.Nodup
import Stencil.Proofs.Files.Below

/-!
# What discovery finds

Where every directory has proper names, each once, and there are no links, discovery finds files:
the path that it makes for a file leads to the file, and no file is found twice.

* `Node.Tidy`: the entries of every directory have proper names, each once;
* `Node.Tidy.mem_files`, `Node.Tidy.sorted_files`: the files below a node, and their order;
* `discover_directory`, `discover_listed`, `discover_cases`: what discovery makes of the files below a
  directory, and what else it can find;
* `FileSystem.Plain.discover_found`: what is discovered.
-/

namespace Stencil

open Stencil.Path (Proper Lead renamed)

/-! ## Tidy trees -/

/-- A tree in which the entries of every directory have proper names, each once. -/
def Node.Tidy (root : Node) : Prop :=
  ∀ a entries time, root.get? a = some (.directory entries time) →
    (entries.map Prod.fst).Nodup ∧ ∀ e ∈ entries, Proper e.1.toList

namespace Node

variable {root node : Node} {entries : List (String × Node)} {time : Time} {e : String × Node}

theorem tidy_file (content : ByteArray) (time : Time) : Tidy (.file content time) := by
  intro a entries time h
  cases a with
  | nil => cases h
  | cons name a => cases h

theorem tidy_link (target : String) : Tidy (.link target) := by
  intro a entries time h
  cases a with
  | nil => cases h
  | cons name a => cases h

/-- A directory is tidy if its names and its entries are. -/
theorem tidy_directory (hnodup : (entries.map Prod.fst).Nodup)
    (hproper : ∀ e ∈ entries, Proper e.1.toList) (h : ∀ e ∈ entries, e.2.Tidy) :
    Tidy (.directory entries time) := by
  intro a inner changed ha
  cases a with
  | nil =>
    cases ha
    exact ⟨hnodup, hproper⟩
  | cons name a =>
    rw [get?, Node.entries] at ha
    cases hchild : child? name entries with
    | none => rw [hchild] at ha; cases ha
    | some child =>
      rw [hchild] at ha
      obtain ⟨e, he, rfl⟩ := Option.map_eq_some_iff.mp hchild
      exact h e (List.mem_of_find?_eq_some he) a inner changed ha

theorem tidy_files (hnodup : (entries.map Prod.fst).Nodup)
    (hproper : ∀ e ∈ entries, Proper e.1.toList) (h : ∀ e ∈ entries, e.2.isFile = true) :
    Tidy (.directory entries time) := by
  refine tidy_directory hnodup hproper fun e he => ?_
  obtain ⟨content, changed, hfile⟩ := eq_file (h e he)
  rw [hfile]
  exact tidy_file content changed

/-- The entry of a name that comes once. -/
theorem child?_of_mem (hnodup : (entries.map Prod.fst).Nodup) (he : e ∈ entries) :
    child? e.1 entries = some e.2 := by
  induction entries with
  | nil => cases he
  | cons first rest ih =>
    rw [List.map_cons, List.nodup_cons] at hnodup
    rw [child?_cons]
    rcases List.mem_cons.mp he with rfl | he
    · exact if_pos rfl
    · have hne : first.1 ≠ e.1 := fun h => hnodup.1 (h ▸ List.mem_map_of_mem he)
      rw [if_neg hne]
      exact ih hnodup.2 he

theorem Tidy.get? (h : root.Tidy) {a : Address} (ha : root.get? a = some node) : node.Tidy := by
  intro b entries time hb
  refine h (a ++ b) entries time ?_
  rw [get?_append, ha]
  exact hb

theorem Tidy.entry (h : Tidy (.directory entries time)) (he : e ∈ entries) : e.2.Tidy := by
  refine h.get? (a := [e.1]) ?_
  rw [Node.get?, Node.entries, child?_of_mem (h [] entries time rfl).1 he]
  rfl

/-! ## Files -/

theorem entryFiles_eq (entries : List (String × Node)) :
    entryFiles entries = entries.map fun e => (e.1, e.2.files) := by
  induction entries with
  | nil => rfl
  | cons e rest ih =>
    rw [entryFiles, ih]
    rfl

theorem mem_files_directory {a : Address} :
    a ∈ files (.directory entries time) ↔
      ∃ e ∈ entries, ∃ rest ∈ e.2.files, a = e.1 :: rest := by
  rw [files, entryFiles_eq, List.mem_flatMap]
  constructor
  · rintro ⟨found, hfound, ha⟩
    obtain ⟨e, he, rfl⟩ := List.mem_map.mp (List.mem_mergeSort.mp hfound)
    obtain ⟨rest, hrest, rfl⟩ := List.mem_map.mp ha
    exact ⟨e, he, rest, hrest, rfl⟩
  · rintro ⟨e, he, rest, hrest, rfl⟩
    exact ⟨(e.1, e.2.files), List.mem_mergeSort.mpr (List.mem_map_of_mem he),
      List.mem_map_of_mem hrest⟩

/-- The addresses of files lead to files, by proper names. -/
theorem Tidy.mem_files (h : node.Tidy) {a : Address} (ha : a ∈ node.files) :
    node.shapeAt a = some .file ∧ ∀ name ∈ a, Proper name.toList := by
  induction a generalizing node with
  | nil =>
    cases node with
    | file content time => exact ⟨rfl, fun _ hn => absurd hn List.not_mem_nil⟩
    | link target => rw [files] at ha; cases ha
    | directory entries time =>
      obtain ⟨_, _, _, _, hnil⟩ := mem_files_directory.mp ha
      cases hnil
  | cons name a ih =>
    cases node with
    | file content time =>
      rw [files] at ha
      cases List.mem_singleton.mp ha
    | link target => rw [files] at ha; cases ha
    | directory entries time =>
      obtain ⟨e, he, rest, hrest, heq⟩ := mem_files_directory.mp ha
      cases heq
      obtain ⟨hnodup, hproper⟩ := h [] entries time rfl
      obtain ⟨hshape, hnames⟩ := ih (h.entry he) hrest
      refine ⟨?_, fun n hn => ?_⟩
      · rw [shapeAt, sightAt_cons, Node.entries, child?_of_mem hnodup he]
        exact hshape
      · rcases List.mem_cons.mp hn with rfl | hn
        · exact hproper e he
        · exact hnames n hn

/-- Entries that are sorted by name, each name once, have names that go up. -/
theorem pairwise_lt_mergeSort {α : Type} {entries : List (String × α)}
    (h : (entries.map Prod.fst).Nodup) :
    (entries.mergeSort byName).Pairwise fun e e' => e.1 < e'.1 := by
  have hle : (entries.mergeSort byName).Pairwise fun e e' => e.1 ≤ e'.1 := by
    refine (@List.pairwise_mergeSort _ byName ?_ ?_ entries).imp fun h => of_decide_eq_true h
    · exact fun a b c hab hbc =>
        decide_eq_true (String.le_trans (of_decide_eq_true hab) (of_decide_eq_true hbc))
    · intro a b
      rw [Bool.or_eq_true, byName, byName, decide_eq_true_iff, decide_eq_true_iff]
      exact String.le_total a.1 b.1
  have hne : (entries.mergeSort byName).Pairwise fun e e' => e.1 ≠ e'.1 := by
    rw [(List.mergeSort_perm _ _).pairwise_iff fun hne => Ne.symm hne,
      ← List.pairwise_map (f := Prod.fst) (R := (· ≠ ·))]
    exact h
  exact (hle.and hne).imp fun ⟨hle, hne⟩ =>
    String.not_le.mp fun hge => hne (String.le_antisymm hle hge)

mutual

/-- The files below a node are listed in the order of their addresses. -/
theorem Tidy.sorted_files : (node : Node) → node.Tidy → node.files.Pairwise (· < ·)
  | .file .., _ => by rw [files]; exact List.pairwise_singleton _ _
  | .link .., _ => by rw [files]; exact .nil
  | .directory entries time, h => by
    have heach := Tidy.sorted_entryFiles entries fun e he => h.entry he
    have hnames : ((entryFiles entries).mergeSort byName).Pairwise fun e e' => e.1 < e'.1 := by
      refine pairwise_lt_mergeSort ?_
      rw [entryFiles_eq, List.map_map]
      exact (h [] entries time rfl).1
    rw [files, List.pairwise_flatMap]
    refine ⟨fun e he => ?_, hnames.imp fun hlt a ha b hb => ?_⟩
    · rw [List.pairwise_map]
      exact (heach e (List.mem_mergeSort.mp he)).imp fun hlt =>
        List.cons_lt_cons_iff.mpr (.inr ⟨rfl, hlt⟩)
    · obtain ⟨_, -, rfl⟩ := List.mem_map.mp ha
      obtain ⟨_, -, rfl⟩ := List.mem_map.mp hb
      exact List.cons_lt_cons_iff.mpr (.inl hlt)

theorem Tidy.sorted_entryFiles : (entries : List (String × Node)) → (∀ e ∈ entries, e.2.Tidy) →
    ∀ e ∈ entryFiles entries, e.2.Pairwise (· < ·)
  | [], _ => by
    rw [entryFiles]
    exact fun _ he => absurd he List.not_mem_nil
  | (name, node) :: rest, h => by
    rw [entryFiles]
    intro e he
    rcases List.mem_cons.mp he with rfl | he
    · exact Tidy.sorted_files node (h (name, node) List.mem_cons_self)
    · exact Tidy.sorted_entryFiles rest (fun e he => h e (List.mem_cons_of_mem _ he)) e he

end

/-- No file is listed twice. -/
theorem Tidy.nodup_files (h : node.Tidy) : node.files.Nodup := by
  refine (sorted_files node h).imp ?_
  rintro a _ hlt rfl
  exact List.lt_irrefl a hlt

theorem shapeAt_append {a d : Address} (h : root.get? d = some node) :
    root.shapeAt (d ++ a) = node.shapeAt a := by
  rw [shapeAt, sightAt, get?_append, h]
  rfl

end Node

/-! ## Discovery -/

section

variable {fs : FileSystem} {root : String} {d : Address}

theorem FileSystem.find_ok {a : Address} {node : Node} (h : fs.find root = .ok (a, node)) :
    fs.locate root = .ok (.found a) ∧ fs.root.get? a = some node := by
  rw [find] at h
  split at h
  · cases h
  · cases h
  · split at h
    · cases h
      exact ⟨‹_›, ‹_›⟩
    · cases h

/-- Below a directory, the files with the extension are discovered. -/
theorem discover_directory (hroot : fs.locate root = .ok (.found d))
    (hdir : fs.root.shapeAt d = some .directory) (ext : String) :
    ∃ node, fs.root.get? d = some node ∧
      discover fs root ext = (node.templates ext).map (Path.descend root) := by
  obtain ⟨entries, time, hget⟩ := Node.get?_of_sightAt_directory
    (Node.sightAt_of_shapeAt_directory hdir)
  obtain ⟨there, hthere⟩ := FileSystem.exists_locateWith false hroot
  have hfind : fs.find root = .ok (d, .directory entries time) := by
    rw [FileSystem.find, hroot]
    simp only [hget]
  refine ⟨.directory entries time, hget, ?_⟩
  rw [discover, hthere, hfind]

/-- What is discovered below a directory whose files are known. -/
theorem discover_listed {node : Node} {files : List Address}
    (hroot : fs.locate root = .ok (.found d)) (hdir : fs.root.shapeAt d = some .directory)
    (hget : fs.root.get? d = some node) (hfiles : node.files = files) (ext : String) :
    discover fs root ext =
      (files.filter fun a => a.extension == some ext).map (Path.descend root) := by
  obtain ⟨there, hthere, hdiscover⟩ := discover_directory hroot hdir ext
  cases hget.symm.trans hthere
  rw [hdiscover, Node.templates, hfiles]

/-- Where there is no directory, discovery finds nothing but what it starts from. -/
theorem discover_cases (fs : FileSystem) (root ext : String) :
    discover fs root ext = [] ∨
      (discover fs root ext = [root] ∧ Path.extension root = some ext ∧
        ∃ a shape, fs.locate root = .ok (.found a) ∧ fs.root.shapeAt a = some shape ∧
          shape ≠ .directory) ∨
      ∃ d, fs.locate root = .ok (.found d) ∧ fs.root.shapeAt d = some .directory := by
  rw [discover]
  split
  · rename_i there a node _ hfind
    obtain ⟨hroot, hget⟩ := FileSystem.find_ok hfind
    have hshape : fs.root.shapeAt a = some node.sight.shape := by
      rw [Node.shapeAt, Node.sightAt, hget]
      rfl
    have hother (hnode : ∀ entries time, node ≠ .directory entries time) :
        node.sight.shape ≠ .directory := by
      intro hdir
      cases node with
      | directory entries time => exact hnode entries time rfl
      | file content time => cases hdir
      | link target => cases hdir
    split
    · exact .inr (.inr ⟨a, hroot, hshape⟩)
    · rename_i hnode
      split
      · rename_i hext
        exact .inr (.inl ⟨rfl, eq_of_beq hext, a, _, hroot, hshape, hother hnode⟩)
      · exact .inl rfl
    · exact .inl rfl
  · exact .inl rfl

end

namespace FileSystem

variable {fs : FileSystem} {p : String} {a d : Address}

/-- A path to a file with an extension, and the address of the file. -/
structure Found (fs : FileSystem) (ext p : String) (a : Address) : Prop where
  locate : fs.locate p = .ok (.found a)
  file : fs.root.shapeAt a = some .file
  extension : a.extension = some ext

theorem Address.extension_append {name : String} (d a : Address) :
    (d ++ (a ++ [name])).extension = (a ++ [name]).extension := by
  rw [Address.extension, Address.extension, ← List.append_assoc, List.getLast?_concat,
    List.getLast?_concat]

/-- Discovery finds paths to files with the extension asked for, and no file twice. -/
theorem Plain.discover_found (h : fs.Plain) (ht : fs.root.Tidy) (root ext : String) :
    ∃ addresses : List Address, addresses.Nodup ∧
      List.Forall₂ (fs.Found ext) (discover fs root ext) addresses := by
  rcases discover_cases fs root ext with hdiscover | ⟨hdiscover, hext, a, shape, hloc, hshape, hne⟩ |
    ⟨d, hloc, hdir⟩
  · rw [hdiscover]
    exact ⟨[], List.nodup_nil, .nil⟩
  · rw [hdiscover]
    have hfile : fs.root.shapeAt a = some .file := by
      cases shape with
      | file => exact hshape
      | directory => exact absurd rfl hne
      | link target => exact absurd hshape (h.linkless a target)
    obtain ⟨dir, name, d, hroot, hn, ha, hopens⟩ := h.opens_of_file hloc hfile
    have hsame : Path.extension root = a.extension := by
      rw [hroot, ha, Path.extension_append hopens.lead hn, Address.extension,
        List.getLast?_concat]
      simp only [String.toList_ofList]
    exact ⟨[a], List.nodup_singleton a, .cons ⟨hloc, hfile, hsame.symm.trans hext⟩ .nil⟩
  · obtain ⟨node, hget, hdiscover⟩ := discover_directory hloc hdir ext
    have htidy := ht.get? hget
    rw [hdiscover]
    refine ⟨(node.templates ext).map (d ++ ·), ?_, ?_⟩
    · exact (htidy.nodup_files.filter _).map (List.append_right_injective d)
    rw [List.forall₂_map_left_iff, List.forall₂_map_right_iff, List.forall₂_same]
    intro b hb
    obtain ⟨hb, hext⟩ := List.mem_filter.mp hb
    obtain ⟨hshape, hnames⟩ := htidy.mem_files hb
    have hfile : fs.root.shapeAt (d ++ b) = some .file := (Node.shapeAt_append hget).trans hshape
    refine ⟨locate_descend hloc hnames hfile Shape.file_ne_link, hfile, ?_⟩
    rcases List.eq_nil_or_concat b with rfl | ⟨init, name, rfl⟩
    · rw [Address.extension] at hext
      cases hext
    · rw [List.concat_eq_append, Address.extension_append, ← List.concat_eq_append]
      exact eq_of_beq hext

end FileSystem

end Stencil
