import Mathlib.Data.List.DropRight
import Stencil.Text.Blank

/-!
# Trimming

`Text.trim` gives the part of a text that has no outer blanks:

* `Bare`: a text without outer blanks;
* `trim_within`, `bare_trim`: trimming gives a part of the text, and that part is bare;
* `trim_eq_self_iff`: exactly the bare texts stay as they are;
* `trim_concat_blank`, `trim_blank_append`, `trim_append_blank`: outer blanks make no difference;
* `exists_trim`: every text is its trimmed part between blanks;
* `trim_append_cons`: around a character that is no blank, the two sides are trimmed apart.
-/

namespace Stencil.Text

/-- A text that neither starts nor ends with a blank. -/
structure Bare (cs : List Char) : Prop where
  head : ∀ c, cs.head? = some c → isBlank c = false
  last : ∀ c, cs.getLast? = some c → isBlank c = false

theorem trimEnd_eq (cs : List Char) : trimEnd cs = cs.rdropWhile isBlank := rfl

theorem trim_within (cs : List Char) : trim cs <:+: cs := by
  have hstart : trimStart cs <:+ cs := List.dropWhile_suffix isBlank
  have hend : trim cs <+: trimStart cs := List.rdropWhile_prefix isBlank _
  exact hend.isInfix.trans hstart.isInfix

theorem bare_trim (cs : List Char) : Bare (trim cs) where
  head c hc := by
    have hprefix : trim cs <+: trimStart cs := List.rdropWhile_prefix isBlank _
    obtain ⟨rest, hrest⟩ := hprefix
    have hhead := List.head?_dropWhile_not isBlank cs
    have htrim : (cs.dropWhile isBlank).head? = some c := by
      rw [show cs.dropWhile isBlank = trim cs ++ rest from hrest.symm, List.head?_append, hc,
        Option.some_or]
    rw [htrim] at hhead
    exact hhead
  last c hc := by
    obtain ⟨init, hinit⟩ := List.getLast?_eq_some_iff.mp hc
    have hne : (trimStart cs).rdropWhile isBlank ≠ [] := by
      rw [← trimEnd_eq, ← trim, hinit]
      exact List.append_ne_nil_of_right_ne_nil _ (List.cons_ne_nil _ _)
    have hlast := List.rdropWhile_last_not isBlank (trimStart cs) hne
    have heq : ((trimStart cs).rdropWhile isBlank).getLast hne = c :=
      Option.some.inj ((List.getLast?_eq_some_getLast hne).symm.trans hc)
    rw [heq] at hlast
    exact Bool.eq_false_iff.mpr hlast

theorem Bare.trim_eq {cs : List Char} (h : Bare cs) : trim cs = cs := by
  have hstart : trimStart cs = cs := by
    cases cs with
    | nil => rfl
    | cons c cs => exact List.dropWhile_cons_of_neg (Bool.eq_false_iff.mp (h.head c rfl))
  rw [trim, hstart, trimEnd_eq, List.rdropWhile_eq_self_iff]
  intro hne
  exact Bool.eq_false_iff.mp (h.last _ (List.getLast?_eq_some_getLast hne))

theorem trim_eq_self_iff {cs : List Char} : trim cs = cs ↔ Bare cs :=
  ⟨fun h => h ▸ bare_trim cs, Bare.trim_eq⟩

theorem trim_trim (cs : List Char) : trim (trim cs) = trim cs :=
  (bare_trim cs).trim_eq

theorem trim_concat_blank (cs : List Char) {c : Char} (hc : isBlank c = true) :
    trim (cs ++ [c]) = trim cs := by
  rw [trim, trim, trimStart, trimStart, List.dropWhile_append]
  split
  · rename_i hempty
    rw [List.isEmpty_iff.mp hempty, List.dropWhile_cons_of_pos hc]
    rfl
  · rw [trimEnd_eq, trimEnd_eq, List.rdropWhile_concat_pos isBlank _ _ hc]

/-! ## Blanks around a text -/

theorem trim_blank_append {w : List Char} (hw : allBlank w = true) (cs : List Char) :
    trim (w ++ cs) = trim cs := by
  rw [trim, trim, trimStart, trimStart, List.dropWhile_append_of_pos (List.all_eq_true.mp hw)]

theorem trim_append_blank (cs : List Char) {w : List Char} (hw : allBlank w = true) :
    trim (cs ++ w) = trim cs := by
  induction w using List.reverseRecOn with
  | nil => rw [List.append_nil]
  | append_singleton w c ih =>
    rw [allBlank, List.all_append, Bool.and_eq_true, List.all_cons, List.all_nil,
      Bool.and_true] at hw
    rw [← List.append_assoc, trim_concat_blank _ hw.2, ih hw.1]

/-- A bare text is what is left of it between blanks. -/
theorem Bare.trim_padded {cs : List Char} (h : Bare cs) {w w' : List Char}
    (hw : allBlank w = true) (hw' : allBlank w' = true) : trim (w ++ cs ++ w') = cs := by
  rw [trim_append_blank _ hw', trim_blank_append hw, h.trim_eq]

theorem trim_trimStart (cs : List Char) : trim (trimStart cs) = trim cs := by
  rw [trim, trim, trimStart, trimStart, List.dropWhile_idempotent]

/-- Every text is what is left of it without the blanks at its end, and those blanks. -/
theorem exists_trimEnd (cs : List Char) : ∃ w, allBlank w = true ∧ cs = trimEnd cs ++ w := by
  refine ⟨cs.rtakeWhile isBlank, ?_, List.rdropWhile_append_rtakeWhile.symm⟩
  exact List.all_eq_true.mpr fun c hc => List.mem_rtakeWhile_imp hc

theorem trim_trimEnd (cs : List Char) : trim (trimEnd cs) = trim cs := by
  obtain ⟨w, hw, hcs⟩ := exists_trimEnd cs
  conv_rhs => rw [hcs, trim_append_blank _ hw]

/-- Every text is its trimmed part between blanks. -/
theorem exists_trim (cs : List Char) :
    ∃ w w', allBlank w = true ∧ allBlank w' = true ∧ cs = w ++ trim cs ++ w' := by
  obtain ⟨w', hw', hend⟩ := exists_trimEnd (trimStart cs)
  refine ⟨cs.takeWhile isBlank, w', List.all_takeWhile, hw', ?_⟩
  rw [List.append_assoc, trim, ← hend, trimStart, List.takeWhile_append_dropWhile]

/-- Around a character that is no blank, the text before it is trimmed at its start and the text
after it at its end. -/
theorem trim_append_cons {c : Char} (hc : isBlank c = false) (a b : List Char) :
    trim (a ++ c :: b) = trimStart a ++ c :: trimEnd b := by
  have hstays (a b : List Char) :
      (a ++ c :: b).dropWhile isBlank = a.dropWhile isBlank ++ c :: b := by
    rw [List.dropWhile_append]
    split
    · next hempty =>
      rw [List.isEmpty_iff.mp hempty, List.dropWhile_cons_of_neg (Bool.eq_false_iff.mp hc)]
      rfl
    · rfl
  rw [trim, trimStart, hstays, trimEnd, List.reverse_append, List.reverse_cons, List.append_assoc,
    List.singleton_append, hstays, List.reverse_append, List.reverse_cons, List.reverse_reverse,
    List.append_assoc, List.singleton_append]
  rfl

end Stencil.Text
