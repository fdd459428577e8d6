import Stencil.Proofs.Text.Bytes
import Stencil.Text.Utf8

/-!
# Reading the bytes of a text

The bytes of a text read as its characters: `first_utf8EncodeChar` for one character, whatever
follows it, and `scan_toUTF8` for a text. So there is no fault in them (`fault?_toUTF8`), and the
text of the bytes is the text itself (`readable_toUTF8`).
-/

namespace Stencil.Utf8

open String (utf8EncodeChar)
open Text (utf8 utf8_cons)

theorem toNat_ofNat {n : Nat} (h : n < 0x100) : (UInt8.ofNat n).toNat = n := by
  rw [UInt8.toNat_ofNat', Nat.mod_eq_of_lt h]

/-! ## Single bytes -/

/-- A continuation byte in the range that is asked for. -/
theorem continuations_ofNat {count value seen n : Nat} {low high : UInt8} {rest : List UInt8}
    (hn : n < 0x40) (hl : low.toNat ≤ n + 0x80) (hh : n + 0x80 ≤ high.toNat) :
    continuations (count + 1) low high value seen (UInt8.ofNat (n + 0x80) :: rest) =
      continuations count 0x80 0xBF (value * 64 + n) (seen + 1) rest := by
  have hb : (UInt8.ofNat (n + 0x80)).toNat = n + 0x80 := toNat_ofNat (by omega)
  have hm : (n + 0x80) % 64 = n := by omega
  simp only [continuations, UInt8.le_iff_toNat_le, hb, hl, hh, decide_true, Bool.and_self,
    ↓reduceIte, hm]

/-- The first byte of two. -/
theorem shape_two {n : Nat} (hl : 2 ≤ n) (hh : n < 0x20) :
    shape (UInt8.ofNat (n + 0xC0)) = some (0x80, 0xBF, 1) := by
  have : ∀ n < 0x20, 2 ≤ n → shape (UInt8.ofNat (n + 0xC0)) = some (0x80, 0xBF, 1) := by decide
  exact this n hh hl

/-- The first byte of three. The range of the second leaves out what has a shorter spelling, and
the surrogates. -/
theorem shape_three {n : Nat} (hn : n < 0x10) : ∃ low high,
    shape (UInt8.ofNat (n + 0xE0)) = some (low, high, 2) ∧
      low.toNat = (if n = 0 then 0xA0 else 0x80) ∧ high.toNat = if n = 0xD then 0x9F else 0xBF := by
  have : ∀ n < 0x10, shape (UInt8.ofNat (n + 0xE0)) =
      some (if n = 0 then 0xA0 else 0x80, if n = 0xD then 0x9F else 0xBF, 2) := by decide
  refine ⟨_, _, this n hn, ?_, ?_⟩ <;> split <;> rfl

/-- The first byte of four. The range of the second leaves out what has a shorter spelling, and
what lies above the last character. -/
theorem shape_four {n : Nat} (hn : n < 5) : ∃ low high,
    shape (UInt8.ofNat (n + 0xF0)) = some (low, high, 3) ∧
      low.toNat = (if n = 0 then 0x90 else 0x80) ∧ high.toNat = if n = 4 then 0x8F else 0xBF := by
  have : ∀ n < 5, shape (UInt8.ofNat (n + 0xF0)) =
      some (if n = 0 then 0x90 else 0x80, if n = 4 then 0x8F else 0xBF, 3) := by decide
  refine ⟨_, _, this n hn, ?_, ?_⟩ <;> split <;> rfl

/-! ## Characters -/

theorem first_of_shape {b low high : UInt8} {count v : Nat} {rest : List UInt8}
    (hb : 0x80 ≤ b.toNat) (hs : shape b = some (low, high, count))
    (hc : continuations count low high (b.toNat % Nat.pow 2 (6 - count)) 0 rest = .ok v) :
    first b rest = (.char (Char.ofNat v), count + 1) := by
  have hb : ¬ b < 0x80 := by rw [UInt8.lt_iff_toNat_lt]; exact Nat.not_lt.mpr hb
  rw [first, if_neg hb, hs]
  simp only [hc]

/-- The bytes of a character are read as that character, whatever follows them. -/
theorem first_utf8EncodeChar (c : Char) (rest : List UInt8) :
    ∃ b bs, utf8EncodeChar c = b :: bs ∧ first b (bs ++ rest) = (.char c, bs.length + 1) := by
  have hc : Char.ofNat c.val.toNat = c := Char.ofNat_toNat c
  have hv : c.val.toNat < 0xD800 ∨ 0xDFFF < c.val.toNat ∧ c.val.toNat < 0x110000 := c.valid
  generalize hw : c.val.toNat = v at hc hv
  rw [utf8EncodeChar, hw]
  by_cases h₁ : v ≤ 0x7F
  · refine ⟨_, _, if_pos h₁, ?_⟩
    have hb : UInt8.ofNat v < 0x80 := by
      rw [UInt8.lt_iff_toNat_lt, toNat_ofNat (by omega)]
      exact Nat.lt_of_le_of_lt h₁ (by decide)
    rw [first, if_pos hb, toNat_ofNat (by omega), hc]
    rfl
  rw [if_neg h₁]
  by_cases h₂ : v ≤ 0x7FF
  · refine ⟨_, _, if_pos h₂, ?_⟩
    have hb : (UInt8.ofNat (v / 64 % 32 + 0xC0)).toNat = v / 64 % 32 + 0xC0 := toNat_ofNat (by omega)
    have hvalue : (v / 64 % 32 + 0xC0) % Nat.pow 2 (6 - 1) * 64 + v % 64 = v := by
      show (v / 64 % 32 + 0xC0) % 32 * 64 + v % 64 = v
      omega
    rw [first_of_shape (v := v) (by omega) (shape_two (by omega) (by omega)), hc]
    · rfl
    · rw [List.singleton_append, continuations_ofNat (by omega) (by simp) (by simp; omega), hb, hvalue]
      rfl
  rw [if_neg h₂]
  by_cases h₃ : v ≤ 0xFFFF
  · refine ⟨_, _, if_pos h₃, ?_⟩
    obtain ⟨low, high, hs, hl, hh⟩ := shape_three (n := v / 4096 % 16) (by omega)
    have hb : (UInt8.ofNat (v / 4096 % 16 + 0xE0)).toNat = v / 4096 % 16 + 0xE0 :=
      toNat_ofNat (by omega)
    have hvalue : ((v / 4096 % 16 + 0xE0) % Nat.pow 2 (6 - 2) * 64 + v / 64 % 64) * 64 + v % 64 =
        v := by
      show ((v / 4096 % 16 + 0xE0) % 16 * 64 + v / 64 % 64) * 64 + v % 64 = v
      omega
    rw [first_of_shape (v := v) (by omega) hs, hc]
    · rfl
    · rw [List.cons_append, continuations_ofNat (by omega) (by rw [hl]; split <;> omega)
        (by rw [hh]; split <;> omega), List.singleton_append,
        continuations_ofNat (by omega) (by simp) (by simp; omega), hb, hvalue]
      rfl
  · refine ⟨_, _, if_neg h₃, ?_⟩
    obtain ⟨low, high, hs, hl, hh⟩ := shape_four (n := v / 262144 % 8) (by omega)
    have hb : (UInt8.ofNat (v / 262144 % 8 + 0xF0)).toNat = v / 262144 % 8 + 0xF0 :=
      toNat_ofNat (by omega)
    have hvalue : (((v / 262144 % 8 + 0xF0) % Nat.pow 2 (6 - 3) * 64 + v / 4096 % 64) * 64 +
        v / 64 % 64) * 64 + v % 64 = v := by
      show (((v / 262144 % 8 + 0xF0) % 8 * 64 + v / 4096 % 64) * 64 + v / 64 % 64) * 64 +
        v % 64 = v
      omega
    rw [first_of_shape (v := v) (by omega) hs, hc]
    · rfl
    · rw [List.cons_append, continuations_ofNat (by omega) (by rw [hl]; split <;> omega)
        (by rw [hh]; split <;> omega), List.cons_append,
        continuations_ofNat (by omega) (by simp) (by simp; omega), List.singleton_append,
        continuations_ofNat (by omega) (by simp) (by simp; omega), hb, hvalue]
      rfl

/-! ## Texts -/

theorem scanFrom_utf8 (cs : List Char) (fuel : Nat) (h : (utf8 cs).length ≤ fuel) :
    scanFrom fuel (utf8 cs) = cs.map Piece.char := by
  induction cs generalizing fuel with
  | nil => cases fuel <;> rfl
  | cons c cs ih =>
    obtain ⟨b, bs, hbytes, hfirst⟩ := first_utf8EncodeChar c (utf8 cs)
    rw [utf8_cons, hbytes, List.length_append, List.length_cons] at h
    obtain ⟨fuel, rfl⟩ : ∃ k, fuel = k + 1 := ⟨fuel - 1, by omega⟩
    rw [utf8_cons, hbytes, List.cons_append, scanFrom, hfirst]
    simp only [Nat.add_sub_cancel, List.drop_left, List.map_cons]
    rw [ih fuel (by omega)]

theorem scan_toUTF8 (s : String) : scan s.toUTF8 = s.toList.map Piece.char := by
  rw [scan, Text.toList_toUTF8]
  refine scanFrom_utf8 s.toList _ (Nat.le_of_eq ?_)
  rw [← Text.toList_toUTF8, Array.length_toList]
  rfl

theorem faultIn_map_char (cs : List Char) (i : Nat) : faultIn i (cs.map Piece.char) = none := by
  induction cs generalizing i with
  | nil => rfl
  | cons c cs ih => exact ih _

/-- The bytes of a text have no fault. -/
theorem fault?_toUTF8 (s : String) : fault? s.toUTF8 = none := by
  rw [fault?, scan_toUTF8, faultIn_map_char]
  rfl

theorem fromUTF8?_toUTF8 (s : String) : String.fromUTF8? s.toUTF8 = some s := by
  rw [String.fromUTF8?]
  exact dif_pos s.isValidUTF8

/-- Bytes that are a text are its bytes. -/
theorem toUTF8_of_fromUTF8? {bytes : ByteArray} {s : String}
    (h : String.fromUTF8? bytes = some s) : s.toUTF8 = bytes := by
  rw [String.fromUTF8?] at h
  split at h
  · cases h
    rfl
  · cases h

/-- The text of the bytes of a text is the text itself. -/
theorem readable_toUTF8 (s : String) : readable s.toUTF8 = s := by
  rw [readable, fromUTF8?_toUTF8]

end Stencil.Utf8
