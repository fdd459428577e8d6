import Stencil.Text.Search

/-!
# The pieces between separators

`Text.splitAt sep cs` gives the pieces of `cs` between the occurrences of `sep`:

* `splitAt_of_notMem`: a list without separators is a single piece;
* `splitAt_append_cons`: cutting at a separator cuts the pieces in two;
* `length_splitAt`, `flatMap_splitAt`: there is one piece more than there are separators, and the
  pieces with a separator after each are the list with one more at its end;
* `splitAt_flatMap`, `flatMap_append_inj`: rows with a separator after each are read back as pieces;
* `exists_split_last`: every list is what stands up to its last separator, and the last piece.
-/

namespace Stencil.Text

variable {α : Type} [DecidableEq α]

theorem splitAt_ne_nil (sep : α) (cs : List α) : splitAt sep cs ≠ [] := by
  cases cs with
  | nil => exact List.cons_ne_nil [] []
  | cons c cs =>
    rw [splitAt]
    split
    · exact List.cons_ne_nil _ _
    · split
      · exact List.cons_ne_nil _ _
      · exact List.cons_ne_nil _ _

theorem splitAt_of_notMem {sep : α} {cs : List α} (h : sep ∉ cs) : splitAt sep cs = [cs] := by
  induction cs with
  | nil => rfl
  | cons c cs ih =>
    rw [List.mem_cons, not_or] at h
    rw [splitAt, if_neg (Ne.symm h.1), ih h.2]

theorem splitAt_append_cons (sep : α) (a b : List α) :
    splitAt sep (a ++ sep :: b) = splitAt sep a ++ splitAt sep b := by
  induction a with
  | nil => exact if_pos rfl
  | cons c a ih =>
    rw [List.cons_append, splitAt, splitAt, ih]
    by_cases hc : c = sep
    · rw [if_pos hc, if_pos hc, List.cons_append]
    · obtain ⟨piece, rest, hp⟩ := List.exists_cons_of_ne_nil (splitAt_ne_nil sep a)
      rw [if_neg hc, if_neg hc, hp]
      rfl

/-- The pieces before an occurrence and after it. -/
theorem pieces_append {sep : Char} {s : String} (hs : s.toList = [sep]) (a b : String) :
    pieces sep (a ++ s ++ b) = pieces sep a ++ pieces sep b := by
  have hsplit := splitAt_append_cons sep a.toList b.toList
  rw [pieces, pieces, pieces, ← List.map_append, ← hsplit, String.toList_append,
    String.toList_append, hs, List.append_assoc]
  rfl

theorem length_splitAt (sep : α) (cs : List α) :
    (splitAt sep cs).length = cs.count sep + 1 := by
  induction cs with
  | nil => rfl
  | cons c cs ih =>
    rw [splitAt]
    by_cases hc : c = sep
    · rw [if_pos hc, List.length_cons, ih, hc, List.count_cons_self]
    · obtain ⟨piece, rest, hp⟩ := List.exists_cons_of_ne_nil (splitAt_ne_nil sep cs)
      rw [hp, List.length_cons] at ih
      rw [if_neg hc, hp, List.count_cons_of_ne hc, List.length_cons, ih]

/-- The pieces of a list with a separator after each are the list with one more at its end. -/
theorem flatMap_splitAt (sep : α) (cs : List α) :
    (splitAt sep cs).flatMap (· ++ [sep]) = cs ++ [sep] := by
  induction cs with
  | nil => rfl
  | cons c cs ih =>
    rw [splitAt]
    by_cases hc : c = sep
    · rw [if_pos hc, List.flatMap_cons, ih, hc]
      rfl
    · obtain ⟨piece, rest, hp⟩ := List.exists_cons_of_ne_nil (splitAt_ne_nil sep cs)
      rw [hp, List.flatMap_cons] at ih
      rw [if_neg hc, hp, List.flatMap_cons, List.cons_append, List.cons_append, ih]
      rfl

/-- Rows with a separator after each are read back as pieces, with an empty one behind the last. -/
theorem splitAt_flatMap {sep : α} {rows : List (List α)} (h : ∀ row ∈ rows, sep ∉ row) :
    splitAt sep (rows.flatMap (· ++ [sep])) = rows ++ [[]] := by
  induction rows with
  | nil => rfl
  | cons row rows ih =>
    have hrow := splitAt_of_notMem (h row List.mem_cons_self)
    have ih := ih fun other ho => h other (List.mem_cons_of_mem row ho)
    rw [List.flatMap_cons, List.append_assoc, List.singleton_append, splitAt_append_cons, hrow, ih]
    rfl

/-- Rows with a separator after each are told apart. -/
theorem flatMap_append_inj {sep : α} {rows others : List (List α)} (h : ∀ row ∈ rows, sep ∉ row)
    (ho : ∀ row ∈ others, sep ∉ row)
    (heq : rows.flatMap (· ++ [sep]) = others.flatMap (· ++ [sep])) : rows = others := by
  have hpieces := congrArg (splitAt sep) heq
  rw [splitAt_flatMap h, splitAt_flatMap ho] at hpieces
  exact List.append_cancel_right hpieces

theorem splitAt_intercalate {sep : α} {rows : List (List α)} (hne : rows ≠ [])
    (h : ∀ row ∈ rows, sep ∉ row) : splitAt sep ([sep].intercalate rows) = rows := by
  induction rows with
  | nil => exact absurd rfl hne
  | cons row rows ih =>
    have hrow := splitAt_of_notMem (h row List.mem_cons_self)
    cases rows with
    | nil => rw [List.intercalate_singleton, hrow]
    | cons next rows =>
      rw [List.intercalate_cons_cons, List.append_assoc, List.singleton_append,
        splitAt_append_cons, hrow, ih (List.cons_ne_nil next rows)
          fun other ho => h other (List.mem_cons_of_mem row ho)]
      rfl

/-- What has no separator in it and stands in front belongs to the first piece. -/
theorem splitAt_append_of_notMem {sep : α} {a b piece : List α} {rest : List (List α)}
    (ha : sep ∉ a) (hb : splitAt sep b = piece :: rest) :
    splitAt sep (a ++ b) = (a ++ piece) :: rest := by
  induction a with
  | nil => exact hb
  | cons c a ih =>
    rw [List.mem_cons, not_or] at ha
    rw [List.cons_append, splitAt, if_neg (Ne.symm ha.1), ih ha.2]
    rfl

/-- The first piece starts with everything up to the first separator. -/
theorem exists_splitAt_append {sep : α} {a : List α} (ha : sep ∉ a) (b : List α) :
    ∃ piece rest, splitAt sep (a ++ b) = (a ++ piece) :: rest := by
  obtain ⟨piece, rest, hb⟩ := List.exists_cons_of_ne_nil (splitAt_ne_nil sep b)
  exact ⟨piece, rest, splitAt_append_of_notMem ha hb⟩

theorem notMem_of_mem_splitAt {sep : α} {cs piece : List α} (h : piece ∈ splitAt sep cs) :
    sep ∉ piece := by
  induction cs generalizing piece with
  | nil =>
    rw [List.mem_singleton.mp h]
    exact List.not_mem_nil
  | cons c cs ih =>
    rw [splitAt] at h
    split at h
    · rcases List.mem_cons.mp h with rfl | h
      · exact List.not_mem_nil
      · exact ih h
    · rename_i hc
      obtain ⟨first, rest, hp⟩ := List.exists_cons_of_ne_nil (splitAt_ne_nil sep cs)
      rw [hp] at h ih
      rcases List.mem_cons.mp h with rfl | h
      · intro hmem
        rcases List.mem_cons.mp hmem with heq | hmem
        · exact hc heq.symm
        · exact ih List.mem_cons_self hmem
      · exact ih (List.mem_cons_of_mem _ h)

/-- Every list is what stands up to its last separator, and the last piece. -/
theorem exists_split_last (sep : α) (cs : List α) :
    ∃ before last, cs = before ++ last ∧ (before = [] ∨ ∃ init, before = init ++ [sep]) ∧
      sep ∉ last := by
  induction cs with
  | nil => exact ⟨[], [], rfl, .inl rfl, List.not_mem_nil⟩
  | cons c cs ih =>
    obtain ⟨before, last, rfl, hbefore | ⟨init, rfl⟩, hlast⟩ := ih
    · subst hbefore
      by_cases hc : c = sep
      · exact ⟨[sep], last, by rw [hc]; rfl, .inr ⟨[], rfl⟩, hlast⟩
      · refine ⟨[], c :: last, rfl, .inl rfl, fun hmem => ?_⟩
        rcases List.mem_cons.mp hmem with h | h
        · exact hc h.symm
        · exact hlast h
    · exact ⟨c :: init ++ [sep], last, rfl, .inr ⟨c :: init, rfl⟩, hlast⟩

end Stencil.Text
