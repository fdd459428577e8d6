import Stencil.Proofs.Files.Discovery
import Stencil.Proofs.Text.Order

/-!
# The walk of discovery

A walk that visits the entries of each directory by name, and goes into a directory when it comes to
it, meets the files below a directory in the order of their names on the way: the name in which two of
them first differ tells. With links in the tree too, it meets the files themselves and no others.

* `Address.Before`: the order of addresses, name by name, by the bytes of the names;
* `Address.extension_eq_some_iff`: when a file has an extension;
* `Node.Tidy.mem_files_iff`, `Node.Tidy.before_templates`: the walk meets every file, and in order;
* `discover_exact`: what is discovered below a directory, and in which order.
-/

namespace Stencil

open Stencil.Path (Proper splitName)

variable {a b : Address} {ext : String}

/-! ## Addresses -/

/-- The bytes of the names of an address. -/
def Address.bytes (a : Address) : List (List UInt8) :=
  a.map fun name => Text.utf8 name.toList

/-- An address comes before another: name by name, in the order of the bytes of the names. -/
def Address.Before (a b : Address) : Prop :=
  a.bytes < b.bytes

instance (a b : Address) : Decidable (a.Before b) :=
  inferInstanceAs (Decidable (a.bytes < b.bytes))

/-- Addresses in the order of their names are in the order of the bytes of these. -/
theorem Address.before_of_lt (h : a < b) : a.Before b := by
  induction h with
  | nil => exact List.nil_lt_cons _ _
  | cons _ ih => exact List.cons_lt_cons_iff.mpr (.inr ⟨rfl, ih⟩)
  | rel h => exact List.cons_lt_cons_iff.mpr (.inl (Text.lt_iff_bytes_lt.mp h))

/-- The last name of an address is something, a dot, and the extension, in which there is no other
dot. -/
def Address.HasExtension (a : Address) (ext : String) : Prop :=
  ∃ dirs stem, a = dirs ++ [stem ++ "." ++ ext] ∧ stem ≠ "" ∧ '.' ∉ ext.toList

theorem Address.extension_eq_some_iff : a.extension = some ext ↔ a.HasExtension ext := by
  rw [Address.extension]
  constructor
  · intro h
    rcases List.eq_nil_or_concat a with rfl | ⟨dirs, name, rfl⟩
    · cases h
    · rw [List.concat_eq_append, List.getLast?_concat] at h
      obtain ⟨old, hold, rfl⟩ := Option.map_eq_some_iff.mp h
      rcases Path.splitName_cases name.toList with hnone | ⟨stem, old', hstem, hdot, hname, hsome⟩
      · rw [hnone] at hold
        cases hold
      · rw [hsome] at hold
        cases hold
        refine ⟨dirs, String.ofList stem, ?_, ?_, ?_⟩
        · rw [List.concat_eq_append, ← String.ofList_toList (s := name), hname,
            show "." = String.ofList ['.'] from rfl, ← String.ofList_append, ← String.ofList_append,
            List.append_assoc]
          rfl
        · exact fun hempty => hstem (String.ofList_eq_empty_iff.mp hempty)
        · rwa [String.toList_ofList]
  · rintro ⟨dirs, stem, rfl, hstem, hdot⟩
    have hne : stem.toList ≠ [] := mt String.toList_eq_nil_iff.mp hstem
    have hname : (stem ++ "." ++ ext).toList = stem.toList ++ '.' :: ext.toList := by simp
    rw [List.getLast?_concat]
    simp only [hname, Path.splitName_append hne hdot, Option.map_some, String.ofList_toList]

/-! ## What a walk meets -/

namespace Node

variable {node : Node}

/-- A file that stands below a node is listed. -/
theorem mem_files_of_shapeAt (h : node.shapeAt a = some .file) : a ∈ node.files := by
  induction a generalizing node with
  | nil =>
    cases node with
    | file content time => rw [files]; exact List.mem_singleton.mpr rfl
    | directory entries time => cases h
    | link target => cases h
  | cons name a ih =>
    rw [shapeAt, sightAt_cons] at h
    cases node with
    | file content time => cases h
    | link target => cases h
    | directory entries time =>
      rw [Node.entries] at h
      cases hchild : child? name entries with
      | none => rw [hchild] at h; cases h
      | some child =>
        rw [hchild] at h
        obtain ⟨e, he, rfl⟩ := Option.map_eq_some_iff.mp hchild
        have hfound := List.find?_some he
        have hname : e.1 = name := eq_of_beq hfound
        exact mem_files_directory.mpr ⟨e, List.mem_of_find?_eq_some he, a, ih h, by rw [hname]⟩

/-- The files that are listed are those that stand below the node. -/
theorem Tidy.mem_files_iff (h : node.Tidy) : a ∈ node.files ↔ node.shapeAt a = some .file :=
  ⟨fun ha => (h.mem_files ha).1, mem_files_of_shapeAt⟩

/-- The names on the way to a file are names that entries can have. -/
theorem Tidy.proper_of_file (h : node.Tidy) (ha : node.shapeAt a = some .file) :
    ∀ name ∈ a, Proper name.toList :=
  (h.mem_files (h.mem_files_iff.mpr ha)).2

end Node

namespace Node.Tidy

variable {node : Node}

/-- The files with an extension are the ones that stand below the node and have it. -/
theorem mem_templates_iff (h : node.Tidy) :
    a ∈ node.templates ext ↔ node.shapeAt a = some .file ∧ a.HasExtension ext := by
  rw [templates, List.mem_filter, h.mem_files_iff, beq_iff_eq, Address.extension_eq_some_iff]

/-- They are found in the order of their addresses. -/
theorem before_templates (h : node.Tidy) (ext : String) :
    (node.templates ext).Pairwise Address.Before :=
  ((sorted_files _ h).filter _).imp Address.before_of_lt

theorem nodup_templates (h : node.Tidy) (ext : String) : (node.templates ext).Nodup :=
  h.nodup_files.filter _

end Node.Tidy

/-! ## Discovery -/

section

variable {fs : FileSystem} {root : String} {d : Address}

/-- Discovery below a directory finds the files with the extension, each once, in the order of their
addresses. The way to each is one of directories; its path leads to it, and is the directory's with
the names on the way. -/
theorem discover_exact (htidy : fs.root.Tidy) (hroot : fs.locate root = .ok (.found d))
    (hdir : fs.root.shapeAt d = some .directory) (ext : String) :
    ∃ addresses : List Address,
      discover fs root ext = addresses.map (Path.descend root) ∧
      addresses.Pairwise Address.Before ∧
      (∀ a, a ∈ addresses ↔ fs.root.shapeAt (d ++ a) = some .file ∧ a.HasExtension ext) ∧
      ∀ a ∈ addresses,
        (∀ way rest, a = way ++ rest → rest ≠ [] →
          fs.root.shapeAt (d ++ way) = some .directory) ∧
        fs.locate (Path.descend root a) = .ok (.found (d ++ a)) ∧
        Path.components (Path.descend root a) = Path.components root ++ a.map .normal := by
  obtain ⟨node, hget, hdiscover⟩ := discover_directory hroot hdir ext
  have hbelow := htidy.get? hget
  have hmem (a : Address) : a ∈ node.templates ext ↔
      fs.root.shapeAt (d ++ a) = some .file ∧ a.HasExtension ext := by
    rw [hbelow.mem_templates_iff, Node.shapeAt_append hget]
  refine ⟨node.templates ext, hdiscover, hbelow.before_templates ext, hmem, fun a ha => ?_⟩
  have hfile := ((hmem a).mp ha).1
  have hnames := hbelow.proper_of_file (hbelow.mem_templates_iff.mp ha).1
  refine ⟨?_, FileSystem.locate_descend hroot hnames hfile Shape.file_ne_link,
    Path.components_descend (FileSystem.locate_ne_empty hroot) hnames⟩
  rintro way rest rfl hrest
  obtain ⟨next, rest, rfl⟩ := List.exists_cons_of_ne_nil hrest
  rw [← List.append_assoc] at hfile
  exact Node.shapeAt_of_below hfile

end

/-- A tree with a template beside a directory of its stem, a directory and links that are named like
templates, and a file whose only dot comes first. -/
def mixedFiles : FileSystem where
  root := .directory
    [(".tt", .file "".toUTF8 1), ("a", .directory [("x.tt", .file "".toUTF8 1)] 1),
      ("a.tt", .file "".toUTF8 1), ("b.tt", .directory [("y.rs", .file "".toUTF8 1)] 1),
      ("l.tt", .link "a.tt"), ("m", .link "a")] 1
  cwd := "/"
  now := 1

theorem mixedFiles_tidy : mixedFiles.root.Tidy := by
  refine Node.tidy_directory (by decide) (by decide) fun e he => ?_
  have hfiles (name : String) (hn : Proper name.toList) :
      Node.Tidy (.directory [(name, .file "".toUTF8 1)] 1) := by
    refine Node.tidy_files (List.nodup_singleton _) (fun e he => ?_) (fun e he => ?_)
    · rw [List.mem_singleton.mp he]
      exact hn
    · rw [List.mem_singleton.mp he]
      rfl
  simp only [List.mem_cons, List.not_mem_nil, or_false] at he
  rcases he with rfl | rfl | rfl | rfl | rfl | rfl
  · exact Node.tidy_file _ _
  · exact hfiles "x.tt" (by decide)
  · exact Node.tidy_file _ _
  · exact hfiles "y.rs" (by decide)
  · exact Node.tidy_link _
  · exact Node.tidy_link _

/-- What is in a directory comes before the template that is named like it. -/
theorem discover_exact_mixed :
    discover mixedFiles "." "tt" = ["./a/x.tt", "./a.tt"] ∧
    ∃ addresses : List Address, addresses.map (Path.descend ".") = ["./a/x.tt", "./a.tt"] ∧
      addresses.Pairwise Address.Before ∧
      ["a", "x.tt"] ∈ addresses ∧ ["a.tt"] ∈ addresses ∧ [".tt"] ∉ addresses ∧
      ["b.tt"] ∉ addresses ∧ ["l.tt"] ∉ addresses ∧ ["m", "x.tt"] ∉ addresses := by
  obtain ⟨addresses, hdiscover, horder, hmem, -⟩ :=
    discover_exact mixedFiles_tidy (d := []) (show mixedFiles.locate "." = _ by decide) rfl "tt"
  have hfiles : mixedFiles.root.files =
      [[".tt"], ["a", "x.tt"], ["a.tt"], ["b.tt", "y.rs"]] := by
    rw [mixedFiles, Node.files, List.mergeSort_of_pairwise (by decide)]
    simp only [Node.entryFiles, Node.files, List.mergeSort_singleton]
    rfl
  have hpaths : discover mixedFiles "." "tt" = ["./a/x.tt", "./a.tt"] := by
    rw [discover_listed (d := []) (by decide) rfl rfl hfiles]
    decide
  have hin (a : Address) (hfile : mixedFiles.root.shapeAt a = some .file)
      (hext : a.extension = some "tt") : a ∈ addresses :=
    (hmem a).mpr ⟨hfile, Address.extension_eq_some_iff.mp hext⟩
  have hout (a : Address)
      (h : mixedFiles.root.shapeAt a ≠ some .file ∨ a.extension ≠ some "tt") : a ∉ addresses :=
    fun ha => h.elim (· ((hmem a).mp ha).1)
      (· (Address.extension_eq_some_iff.mpr ((hmem a).mp ha).2))
  exact ⟨hpaths, addresses, hdiscover.symm.trans hpaths, horder, hin _ (by decide) (by decide),
    hin _ (by decide) (by decide), hout _ (by decide), hout _ (by decide), hout _ (by decide),
    hout _ (by decide)⟩

end Stencil
