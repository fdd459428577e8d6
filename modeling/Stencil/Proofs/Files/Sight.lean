import Stencil.Files.System

/-!
# What stands in a tree

A tree is looked at one address at a time: there is a file with its bytes and its time, a
directory, a link, or nothing. A change below one address is not seen from any other.

* `Node.map_get?_modify_elsewhere`, `Node.sightAt_modify_elsewhere`: a change at an address, seen from
  one that is not below it;
* `Node.sightAt_replace`, `Node.sightAt_add`: a file whose content is replaced, and a file that is
  added to a directory, are the only things that look different.
-/

namespace Stencil

/-- What a node is, without what is below it. -/
inductive Sight where
  | file (content : ByteArray) (modified : Time)
  | directory
  | link (target : String)

namespace Node

/-- What a node is. -/
def sight : Node → Sight
  | .file content modified => .file content modified
  | .directory .. => .directory
  | .link target => .link target

/-- What stands at an address of a tree. -/
def sightAt (root : Node) (a : Address) : Option Sight :=
  (root.get? a).map sight

/-! ## Entries -/

theorem child?_cons (name : String) (e : String × Node) (entries : List (String × Node)) :
    child? name (e :: entries) = if e.1 = name then some e.2 else child? name entries := by
  by_cases h : e.1 = name
  · simp [child?, h]
  · simp [child?, h]

theorem child?_putEntry (name other : String) (node : Node) (entries : List (String × Node)) :
    child? other (putEntry name node entries) =
      if name = other then some node else child? other entries := by
  induction entries with
  | nil => exact child?_cons other (name, node) []
  | cons e rest ih =>
    by_cases he : e.1 = name
    · rw [putEntry, if_pos (by simpa using he), child?_cons, child?_cons, he]
      by_cases hn : name = other
      · rw [if_pos hn, if_pos hn]
      · rw [if_neg hn, if_neg hn, if_neg hn]
    · rw [putEntry, if_neg (by simpa using he), child?_cons, child?_cons, ih]
      by_cases hn : name = other
      · rw [if_pos hn, if_pos hn, if_neg (hn ▸ he)]
      · rw [if_neg hn, if_neg hn]

/-! ## Addresses -/

theorem get?_append (root : Node) (a b : Address) :
    root.get? (a ++ b) = (root.get? a).bind fun node => node.get? b := by
  induction a generalizing root with
  | nil => rfl
  | cons name a ih =>
    simp only [List.cons_append, get?]
    cases child? name root.entries with
    | none => rfl
    | some child => exact ih child

theorem sightAt_cons (root : Node) (name : String) (a : Address) :
    root.sightAt (name :: a) = (child? name root.entries).bind fun child => child.sightAt a := by
  simp only [sightAt, get?]
  cases child? name root.entries with
  | none => rfl
  | some child => rfl

/-- Nothing is below a file. -/
theorem sightAt_below_file {root : Node} {a : Address} {content : ByteArray} {time : Time}
    (h : root.get? a = some (.file content time)) (name : String) (b : Address) :
    root.sightAt (a ++ name :: b) = none := by
  rw [sightAt, get?_append, h]
  rfl

theorem get?_of_sightAt_file {root : Node} {a : Address} {content : ByteArray} {time : Time}
    (h : root.sightAt a = some (.file content time)) : root.get? a = some (.file content time) := by
  obtain ⟨node, hn, hs⟩ := Option.map_eq_some_iff.mp h
  cases node with
  | file c t => rw [hn]; cases hs; rfl
  | directory entries t => cases hs
  | link target => cases hs

theorem get?_of_sightAt_directory {root : Node} {a : Address}
    (h : root.sightAt a = some .directory) :
    ∃ entries time, root.get? a = some (.directory entries time) := by
  obtain ⟨node, hn, hs⟩ := Option.map_eq_some_iff.mp h
  cases node with
  | file c t => cases hs
  | directory entries t => exact ⟨entries, t, hn⟩
  | link target => cases hs

/-! ## Changes -/

theorem modify_cons_some (f : Node → Node) {name : String} {entries : List (String × Node)}
    {child : Node} (h : child? name entries = some child) (a : Address) (time : Time) :
    (directory entries time).modify f (name :: a) =
      directory (putEntry name (child.modify f a) entries) time := by
  rw [modify, h]

theorem modify_cons_none (f : Node → Node) {name : String} {entries : List (String × Node)}
    (h : child? name entries = none) (a : Address) (time : Time) :
    (directory entries time).modify f (name :: a) = directory entries time := by
  rw [modify, h]

/-- Nothing is below a file, so nothing changes there. -/
theorem modify_file (f : Node → Node) (name : String) (a : Address) (content : ByteArray)
    (time : Time) : (file content time).modify f (name :: a) = file content time := by
  rw [modify]
  simp

theorem modify_link (f : Node → Node) (name : String) (a : Address) (target : String) :
    (link target).modify f (name :: a) = link target := by
  rw [modify]
  simp

theorem get?_modify_append (f : Node → Node) (a b : Address) (root : Node) :
    (root.modify f a).get? (a ++ b) = (root.get? a).bind fun node => (f node).get? b := by
  induction a generalizing root with
  | nil => rw [modify]; rfl
  | cons name a ih =>
    cases root with
    | directory entries time =>
      rw [List.cons_append]
      cases hc : child? name entries with
      | none =>
        rw [modify_cons_none f hc]
        simp only [get?, Node.entries, hc, Option.bind_none]
      | some child =>
        rw [modify_cons_some f hc]
        simp only [get?, Node.entries, child?_putEntry, if_true, hc]
        exact ih child
    | file content time => rw [modify_file]; rfl
    | link target => rw [modify_link]; rfl

/-- A change at an address leaves a node that is not below it as it is, but for its entries. -/
theorem map_get?_modify_elsewhere {α : Type} {view : Node → α}
    (hview : ∀ entries entries' time,
      view (directory entries time) = view (directory entries' time))
    (f : Node → Node) {a b : Address} (root : Node) (h : ¬ a <+: b) :
    ((root.modify f a).get? b).map view = (root.get? b).map view := by
  induction a generalizing root b with
  | nil => exact absurd List.nil_prefix h
  | cons name a ih =>
    cases root with
    | directory entries time =>
      cases hc : child? name entries with
      | none => rw [modify_cons_none f hc]
      | some child =>
        rw [modify_cons_some f hc]
        cases b with
        | nil => exact congrArg some (hview _ _ time)
        | cons other b =>
          simp only [get?, Node.entries, child?_putEntry]
          by_cases hn : name = other
          · subst hn
            rw [if_pos rfl, hc]
            exact ih child fun hp => h (List.cons_prefix_cons.mpr ⟨rfl, hp⟩)
          · rw [if_neg hn]
    | file content time => rw [modify_file]
    | link target => rw [modify_link]

/-- A change at an address is not seen from an address that is not below it. -/
theorem sightAt_modify_elsewhere (f : Node → Node) {a b : Address} (root : Node)
    (h : ¬ a <+: b) : (root.modify f a).sightAt b = root.sightAt b :=
  map_get?_modify_elsewhere (fun _ _ _ => rfl) f root h

/-- A file whose content is replaced is the only thing that looks different. -/
theorem sightAt_replace {root : Node} {a : Address} {before : ByteArray} {time : Time}
    (h : root.sightAt a = some (.file before time)) (content : ByteArray) (now : Time)
    (b : Address) :
    (root.modify (fun _ => file content now) a).sightAt b =
      if b = a then some (.file content now) else root.sightAt b := by
  have hget := get?_of_sightAt_file h
  by_cases hp : a <+: b
  · obtain ⟨rest, rfl⟩ := hp
    rw [sightAt, get?_modify_append, hget]
    cases rest with
    | nil => rw [List.append_nil, if_pos rfl]; rfl
    | cons name rest => rw [if_neg (by simp), sightAt_below_file hget]; rfl
  · rw [sightAt_modify_elsewhere _ _ hp, if_neg]
    rintro rfl
    exact hp List.prefix_rfl

/-- A file that is added to a directory is the only thing that looks different. -/
theorem sightAt_add {root : Node} {dir : Address} (name : String)
    (hdir : root.sightAt dir = some .directory) (hnone : root.sightAt (dir ++ [name]) = none)
    (content : ByteArray) (now : Time) (b : Address) :
    (root.modify (addEntry name (file content now) now) dir).sightAt b =
      if b = dir ++ [name] then some (.file content now) else root.sightAt b := by
  obtain ⟨entries, time, hget⟩ := get?_of_sightAt_directory hdir
  by_cases hp : dir <+: b
  · obtain ⟨rest, rfl⟩ := hp
    rw [sightAt, get?_modify_append, hget, Option.bind_some]
    cases rest with
    | nil => rw [List.append_nil, if_neg (by simp), hdir]; rfl
    | cons other rest =>
      have hold : root.sightAt (dir ++ other :: rest) =
          (child? other entries).bind fun child => child.sightAt rest := by
        rw [sightAt, get?_append, hget]
        exact sightAt_cons (directory entries time) other rest
      have hnew := sightAt_cons (addEntry name (file content now) now (directory entries time))
        other rest
      rw [sightAt] at hnew
      rw [hnew, hold, addEntry, Node.entries, child?_putEntry]
      by_cases hn : name = other
      · subst hn
        rw [if_pos rfl, Option.bind_some]
        cases rest with
        | nil => rw [if_pos rfl]; rfl
        | cons next rest =>
          have hfree : child? name entries = none := by
            rw [sightAt, get?_append, hget] at hnone
            cases hc : child? name entries with
            | none => rfl
            | some child => simp [get?, Node.entries, hc] at hnone
          rw [if_neg (by simp), hfree]
          rfl
      · rw [if_neg hn, if_neg (by simp [Ne.symm hn])]
  · rw [sightAt_modify_elsewhere _ _ hp, if_neg]
    rintro rfl
    exact hp (List.prefix_append ..)

end Node

end Stencil
