import Mathlib.Data.Char
import Mathlib.Data.List.Lex
import Stencil.Proofs.Text.Bytes

/-!
# The order of texts and of their bytes

Texts are ordered character by character, and so are their UTF-8 bytes: a character that comes later
has more bytes or larger ones, and the first byte that differs tells. `utf8_lt_iff` states it for
texts, `lt_iff_bytes_lt` for strings.
-/

namespace Stencil.Text

open String (utf8EncodeChar)

/-- Lists of bytes that start with different bytes, or go on differently. -/
theorem ofNat_cons_lt {x y : Nat} (hx : x < 0x100) (hy : y < 0x100) {s t : List UInt8}
    (h : x < y ∨ x = y ∧ s < t) : UInt8.ofNat x :: s < UInt8.ofNat y :: t := by
  rw [List.cons_lt_cons_iff, UInt8.lt_iff_toNat_lt, UInt8.toNat_ofNat', UInt8.toNat_ofNat',
    Nat.mod_eq_of_lt hx, Nat.mod_eq_of_lt hy]
  exact h.imp_right fun ⟨heq, hlt⟩ => ⟨congrArg UInt8.ofNat heq, hlt⟩

/-- The first byte of a character tells how many bytes it has, so a character that comes later and has
more bytes starts with a larger one. -/
theorem utf8EncodeChar_append_lt {c d : Char} (h : c < d) (s t : List UInt8) :
    utf8EncodeChar c ++ s < utf8EncodeChar d ++ t := by
  have hlt : c.val.toNat < d.val.toNat := h
  have hd : d.val.toNat < 0x110000 := by
    rcases d.valid with hd | hd
    · exact Nat.lt_trans hd (by decide)
    · exact hd.2
  simp only [utf8EncodeChar]
  generalize c.val.toNat = v at hlt
  generalize d.val.toNat = w at hlt hd
  by_cases hv₁ : v ≤ 0x7F
  · rw [if_pos hv₁, List.singleton_append]
    split_ifs
    · exact ofNat_cons_lt (by omega) (by omega) (.inl hlt)
    · exact ofNat_cons_lt (by omega) (by omega) (.inl (by omega))
    · exact ofNat_cons_lt (by omega) (by omega) (.inl (by omega))
    · exact ofNat_cons_lt (by omega) (by omega) (.inl (by omega))
  rw [if_neg hv₁, if_neg (show ¬ w ≤ 0x7F by omega)]
  by_cases hv₂ : v ≤ 0x7FF
  · rw [if_pos hv₂]
    split_ifs
    · refine ofNat_cons_lt (by omega) (by omega) ?_
      rcases Nat.lt_or_ge (v / 64) (w / 64) with hfirst | hfirst
      · exact .inl (by omega)
      · exact .inr ⟨by omega, ofNat_cons_lt (by omega) (by omega) (.inl (by omega))⟩
    · exact ofNat_cons_lt (by omega) (by omega) (.inl (by omega))
    · exact ofNat_cons_lt (by omega) (by omega) (.inl (by omega))
  rw [if_neg hv₂, if_neg (show ¬ w ≤ 0x7FF by omega)]
  by_cases hv₃ : v ≤ 0xFFFF
  · rw [if_pos hv₃]
    split_ifs
    · refine ofNat_cons_lt (by omega) (by omega) ?_
      rcases Nat.lt_or_ge (v / 4096) (w / 4096) with hfirst | hfirst
      · exact .inl (by omega)
      refine .inr ⟨by omega, ofNat_cons_lt (by omega) (by omega) ?_⟩
      rcases Nat.lt_or_ge (v / 64) (w / 64) with hsecond | hsecond
      · exact .inl (by omega)
      · exact .inr ⟨by omega, ofNat_cons_lt (by omega) (by omega) (.inl (by omega))⟩
    · exact ofNat_cons_lt (by omega) (by omega) (.inl (by omega))
  rw [if_neg hv₃, if_neg (show ¬ w ≤ 0xFFFF by omega)]
  refine ofNat_cons_lt (by omega) (by omega) ?_
  rcases Nat.lt_or_ge (v / 262144) (w / 262144) with hfirst | hfirst
  · exact .inl (by omega)
  refine .inr ⟨by omega, ofNat_cons_lt (by omega) (by omega) ?_⟩
  rcases Nat.lt_or_ge (v / 4096) (w / 4096) with hsecond | hsecond
  · exact .inl (by omega)
  refine .inr ⟨by omega, ofNat_cons_lt (by omega) (by omega) ?_⟩
  rcases Nat.lt_or_ge (v / 64) (w / 64) with hthird | hthird
  · exact .inl (by omega)
  · exact .inr ⟨by omega, ofNat_cons_lt (by omega) (by omega) (.inl (by omega))⟩

theorem append_lt_append_left {α : Type} [LT α] (p : List α) {s t : List α} (h : s < t) :
    p ++ s < p ++ t := by
  induction p with
  | nil => exact h
  | cons x p ih => exact List.cons_lt_cons_iff.mpr (.inr ⟨rfl, ih⟩)

/-- A text that comes first has bytes that come first. -/
theorem utf8_lt {a b : List Char} (h : a < b) : utf8 a < utf8 b := by
  induction h with
  | @nil c b =>
    obtain ⟨x, s, hs⟩ := List.exists_cons_of_ne_nil (mt utf8_eq_nil_iff.mp (List.cons_ne_nil c b))
    rw [hs]
    exact List.nil_lt_cons x s
  | cons _ ih => exact append_lt_append_left _ ih
  | rel h => exact utf8EncodeChar_append_lt h _ _

/-- Texts come in the order of their bytes. -/
theorem utf8_lt_iff {a b : List Char} : utf8 a < utf8 b ↔ a < b := by
  refine ⟨fun h => ?_, utf8_lt⟩
  rcases lt_trichotomy a b with hlt | heq | hgt
  · exact hlt
  · rw [heq] at h
    exact absurd h (List.lt_irrefl _)
  · exact absurd h (List.lt_asymm (utf8_lt hgt))

/-- Strings come in the order of their bytes. -/
theorem lt_iff_bytes_lt {a b : String} : a < b ↔ utf8 a.toList < utf8 b.toList :=
  String.lt_iff.trans utf8_lt_iff.symm

end Stencil.Text
