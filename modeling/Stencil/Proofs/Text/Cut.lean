import Mathlib.Data.List.Infix
import Stencil.Text.Search

/-!
# The first occurrence of a marker

`Text.cut m cs` cuts a text at the first place where the marker `m` stands:

* `cut_eq_none_iff`: it fails exactly if `m` stands nowhere;
* `cut_eq_some_iff`: what it gives before the marker, followed by all of the marker but its last
  character, does not contain the marker. For a marker whose first character does not come again in
  it (such as `#>`), that is to say that what stands before it does not
  (`not_infix_append_dropLast`).
-/

namespace Stencil.Text

theorem cut_eq_none_iff {m : List Char} (hm : m ≠ []) {cs : List Char} :
    cut m cs = none ↔ ¬ m <:+: cs := by
  induction cs with
  | nil => simp [cut, hm]
  | cons c cs ih =>
    rw [cut, List.infix_cons_iff, not_or, ← ih]
    by_cases hp : m <+: c :: cs
    · simp [hp]
    · simp [hp]

theorem dropLast_prefix_append (a m b : List Char) : a ++ m.dropLast <+: a ++ m ++ b := by
  rw [List.append_assoc]
  have hm : m.dropLast <+: m := List.dropLast_prefix m
  exact (List.prefix_append_right_inj a).mpr (hm.trans (List.prefix_append m b))

/-- A marker at the start of a text stands in all but the last character of it and of any marker
that follows the first character. -/
theorem infix_cons_append_dropLast {m a b : List Char} {c : Char} (hm : m ≠ [])
    (h : m <+: c :: a ++ m ++ b) : m <:+: c :: a ++ m.dropLast := by
  have hl : m.length - 1 + 1 = m.length := Nat.sub_add_cancel (List.length_pos_iff.mpr hm)
  refine (List.prefix_of_prefix_length_le h (dropLast_prefix_append (c :: a) m b) ?_).isInfix
  simp only [List.cons_append, List.length_cons, List.length_append, List.length_dropLast]
  omega

theorem cut_eq_some_iff {m : List Char} (hm : m ≠ []) {cs a b : List Char} :
    cut m cs = some (a, b) ↔ cs = a ++ m ++ b ∧ ¬ m <:+: a ++ m.dropLast := by
  induction cs generalizing a with
  | nil => simp [cut, hm]
  | cons c cs ih =>
    rw [cut]
    by_cases hp : m <+: c :: cs
    · -- The marker stands right here: nothing comes before it.
      rw [if_pos (List.isPrefixOf_iff_prefix.mpr hp), Option.some.injEq, Prod.mk.injEq]
      constructor
      · rintro ⟨rfl, rfl⟩
        refine ⟨(List.prefix_iff_eq_append.mp hp).symm, fun h => ?_⟩
        have := h.length_le
        have := List.length_pos_iff.mpr hm
        simp only [List.nil_append, List.length_dropLast] at *
        omega
      · rintro ⟨h, hno⟩
        cases a with
        | nil => exact ⟨rfl, by rw [h, List.nil_append, List.drop_left]⟩
        | cons x a => exact absurd (infix_cons_append_dropLast hm (h ▸ hp)) hno
    · rw [if_neg (fun h => hp (List.isPrefixOf_iff_prefix.mp h)), Option.map_eq_some_iff]
      constructor
      · rintro ⟨⟨a', b'⟩, hc, he⟩
        obtain ⟨rfl, rfl⟩ := Prod.mk.inj he
        obtain ⟨rfl, hno⟩ := ih.mp hc
        refine ⟨rfl, fun h => ?_⟩
        rcases List.infix_cons_iff.mp h with h | h
        · exact hp (h.trans (dropLast_prefix_append (c :: a') m b'))
        · exact hno h
      · rintro ⟨h, hno⟩
        cases a with
        | nil => exact absurd (h ▸ List.prefix_append m b) hp
        | cons x a =>
          obtain ⟨rfl, rfl⟩ := List.cons.inj h
          exact ⟨(a, b), ih.mpr ⟨rfl, fun h => hno (List.infix_cons h)⟩, rfl⟩

/-- A marker whose first character does not come again in it does not stand across the end of a
text and its own first characters. -/
theorem not_infix_append_dropLast {x : Char} {r a : List Char} (hx : x ∉ r) :
    ¬ x :: r <:+: a ++ (x :: r).dropLast ↔ ¬ x :: r <:+: a := by
  refine not_congr ⟨fun h => ?_, fun h => h.trans (List.prefix_append _ _).isInfix⟩
  have hlast : (x :: r).dropLast <+: x :: r := List.dropLast_prefix _
  induction a with
  | nil =>
    have hlength := h.length_le
    rw [List.nil_append, List.length_dropLast, List.length_cons] at hlength
    omega
  | cons c a ih =>
    rcases List.infix_cons_iff.mp h with h | h
    · rcases List.prefix_or_prefix_of_prefix h (List.prefix_append (c :: a) _) with h' | ⟨rest, hrest⟩
      · exact h'.isInfix
      · -- The text would end inside the marker, and the marker begin again there.
        obtain ⟨rfl, rfl⟩ := List.cons.inj hrest
        rw [← hrest] at h
        have hagain := ((List.prefix_append_right_inj (c :: a)).mp h).trans hlast
        cases rest with
        | nil => exact ⟨[], [], by simp⟩
        | cons y rest =>
          have hy : y = c := (List.cons_prefix_cons.mp hagain).1
          exact absurd (List.mem_append_right a (hy ▸ List.mem_cons_self)) hx
    · exact List.infix_cons (ih h)

/-- A marker of two different characters does not stand across the end of a text and its own
first character. -/
theorem not_infix_append_dropLast_pair {x y : Char} (hxy : x ≠ y) {a : List Char} :
    ¬ [x, y] <:+: a ++ [x, y].dropLast ↔ ¬ [x, y] <:+: a :=
  not_infix_append_dropLast (mt List.mem_singleton.mp hxy)

end Stencil.Text
