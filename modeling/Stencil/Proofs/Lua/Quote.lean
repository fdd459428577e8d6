import Stencil.Lua.Lexer
import Stencil.Lua.Quote
import Stencil.Proofs.Text.Bytes
import Mathlib.Tactic.IntervalCases

/-!
# Reading quoted texts back

Reading a quoted text as a string literal, whatever follows it.

* `read_quoteChar`: the spelling of one character puts the bytes of that character into the value
  and leaves the reader where it was, among ordinary bytes;
* `readQuoted_quote`: a quoted text, up to its closing quote, reads as the bytes of the text;
* `not_isControl_of_mem_quote`: no control character stands in a quoted text, so a program that is
  written around it keeps its lines.
-/

namespace Stencil.Lua

open Text (utf8 utf8_cons utf8_append utf8_cons_ascii utf8EncodeChar_ascii le_utf8EncodeChar)
open String (utf8EncodeChar)

theorem toList_bytesOf (s : String) : (bytesOf s).data.toList = utf8 s.toList :=
  Text.toList_toUTF8 s

/-! ## Spellings -/

theorem isControl_iff {c : Char} : isControl c = true ↔ c.toNat < 0x20 ∨ c.toNat = 0x7F := by
  simp [isControl]

theorem quoteChar_control {c : Char} (h : isControl c = true) (hn : c ≠ '\n') (hr : c ≠ '\r')
    (ht : c ≠ '\t') : quoteChar c =
      ['\\', digitChar (c.toNat / 100), digitChar (c.toNat / 10), digitChar c.toNat] := by
  rw [quoteChar, if_pos h]
  · rintro rfl; exact absurd h (by decide)
  · rintro rfl; exact absurd h (by decide)
  all_goals assumption

theorem quoteChar_plain {c : Char} (h : isControl c = false) (hq : c ≠ '"') (hb : c ≠ '\\') :
    quoteChar c = [c] := by
  rw [quoteChar, if_neg (by rw [h]; decide)]
  · exact hq
  · exact hb
  all_goals rintro rfl; exact absurd h (by decide)

theorem toNat_digitChar (n : Nat) : (digitChar n).toNat = 0x30 + n % 10 := by
  have : ∀ k < 10, (Char.ofNat ('0'.toNat + k)).toNat = 0x30 + k := by decide
  exact this (n % 10) (Nat.mod_lt n (by decide))

/-- The byte of a decimal digit. -/
def digitByte (n : Nat) : UInt8 :=
  UInt8.ofNat (0x30 + n % 10)

theorem utf8_digitChar (n : Nat) (cs : List Char) : utf8 (digitChar n :: cs) = digitByte n :: utf8 cs := by
  have h := toNat_digitChar n
  rw [utf8_cons_ascii (by omega), h]
  rfl

theorem digitByte_spec (n : Nat) : isDigit (digitByte n) = true ∧ (digitByte n).toNat - 0x30 = n % 10 := by
  have : ∀ k < 10, isDigit (UInt8.ofNat (0x30 + k)) = true ∧ (UInt8.ofNat (0x30 + k)).toNat - 0x30 = k := by
    decide
  exact this (n % 10) (Nat.mod_lt n (by decide))

/-! ## Reading -/

namespace LiteralScan

/-- Bytes that mean nothing special go into the value as they are. -/
theorem read_plain (line : Nat) (value bs rest : List UInt8)
    (h : ∀ b ∈ bs, b ≠ 0x22 ∧ b ≠ 0x5C ∧ isNewline b = false) :
    read 0x22 ⟨.plain, line, value, []⟩ (bs ++ rest) =
      read 0x22 ⟨.plain, line, bs.reverse ++ value, []⟩ rest := by
  induction bs generalizing value with
  | nil => rfl
  | cons b bs ih =>
    obtain ⟨⟨hq, hb, hn⟩, h⟩ := List.forall_mem_cons.mp h
    have hs : step 0x22 ⟨.plain, line, value, []⟩ b = .next ⟨.plain, line, b :: value, []⟩ := by
      simp [step, plainStep, put, hq, hb, hn]
    rw [List.cons_append, read, hs]
    simp only [ih _ h, List.reverse_cons, List.append_assoc, List.singleton_append]

/-- Three digits are a whole escape: what follows is read as if the byte stood there. -/
theorem read_decimal (line n : Nat) (hn : n ≤ 255) (value raw rest : List UInt8) :
    read 0x22 ⟨.decimal 3 n, line, value, raw⟩ rest =
      read 0x22 ⟨.plain, line, UInt8.ofNat n :: value, []⟩ rest := by
  have hn : ¬ n > 255 := Nat.not_lt.mpr hn
  cases rest with
  | nil => simp [read, atEnd, hn]
  | cons b rest => simp only [read, step, Nat.lt_irrefl, decide_false, Bool.false_and, hn,
      Bool.false_eq_true, ↓reduceIte]

theorem escapeStep_digit (line n : Nat) (value raw : List UInt8) :
    escapeStep 0x22 ⟨.escape, line, value, raw⟩ (digitByte n) =
      .next ⟨.decimal 1 (n % 10), line, value, digitByte n :: raw⟩ := by
  have : ∀ k < 10, escapeStep 0x22 ⟨.escape, line, value, raw⟩ (UInt8.ofNat (0x30 + k)) =
      .next ⟨.decimal 1 k, line, value, UInt8.ofNat (0x30 + k) :: raw⟩ := by
    intro k hk
    interval_cases k <;> rfl
  exact this (n % 10) (Nat.mod_lt n (by decide))

theorem read_digits (line n : Nat) (hn : n ≤ 255) (value rest : List UInt8) :
    read 0x22 ⟨.plain, line, value, []⟩
        (0x5C :: digitByte (n / 100) :: digitByte (n / 10) :: digitByte n :: rest) =
      read 0x22 ⟨.plain, line, UInt8.ofNat n :: value, []⟩ rest := by
  have hv : (n / 100 % 10 * 10 + n / 10 % 10) * 10 + n % 10 = n := by omega
  have h₁ : step 0x22 ⟨.plain, line, value, []⟩ 0x5C = .next ⟨.escape, line, value, [0x5C]⟩ := rfl
  rw [read, h₁]
  simp only [read, step, escapeStep_digit, (digitByte_spec _).1, (digitByte_spec _).2, Bool.and_true,
    show (1 < 3) = True from eq_true (by decide), show (2 < 3) = True from eq_true (by decide),
    decide_true, ↓reduceIte, Nat.reduceAdd, hv]
  exact read_decimal line n hn value _ rest

/-- A byte that is none of the four that mean something among ordinary bytes. -/
theorem plain_of_toNat {b : UInt8} (hq : b.toNat ≠ 0x22) (hb : b.toNat ≠ 0x5C)
    (hn : b.toNat ≠ 0x0A) (hr : b.toNat ≠ 0x0D) : b ≠ 0x22 ∧ b ≠ 0x5C ∧ isNewline b = false := by
  have hne : ∀ k : UInt8, b.toNat ≠ k.toNat → b ≠ k := fun _ h e => h (e ▸ rfl)
  refine ⟨hne 0x22 hq, hne 0x5C hb, ?_⟩
  rw [isNewline, beq_false_of_ne (hne 0x0A hn), beq_false_of_ne (hne 0x0D hr)]
  rfl

/-- The spelling of a character reads as the bytes of the character, whatever follows. -/
theorem read_quoteChar (line : Nat) (c : Char) (value rest : List UInt8) :
    read 0x22 ⟨.plain, line, value, []⟩ (utf8 (quoteChar c) ++ rest) =
      read 0x22 ⟨.plain, line, (utf8EncodeChar c).reverse ++ value, []⟩ rest := by
  by_cases hs : c = '"' ∨ c = '\\' ∨ c = '\n' ∨ c = '\r' ∨ c = '\t'
  · -- A character with an escape of its own.
    rcases hs with rfl | rfl | rfl | rfl | rfl <;> rfl
  simp only [not_or] at hs
  obtain ⟨hq, hb, hn, hr, ht⟩ := hs
  cases hc : isControl c with
  | true =>
    have ha : c.toNat < 0x80 := by
      rcases isControl_iff.mp hc with h | h <;> omega
    rw [quoteChar_control hc hn hr ht, utf8_cons_ascii (by decide), utf8_digitChar, utf8_digitChar,
      utf8_digitChar, utf8EncodeChar_ascii ha]
    exact read_digits line c.toNat (by omega) value rest
  | false =>
    rw [quoteChar_plain hc hq hb, utf8_cons, Text.utf8_nil, List.append_nil]
    refine read_plain line value _ rest fun b hm => ?_
    by_cases ha : c.toNat < 0x80
    · rw [utf8EncodeChar_ascii ha, List.mem_singleton] at hm
      have hbc : b.toNat = c.toNat := by rw [hm, UInt8.toNat_ofNat', Nat.mod_eq_of_lt (by omega)]
      have hne : ∀ {k : Char}, c ≠ k → b.toNat ≠ k.toNat := fun h e =>
        h (Char.toNat_inj.mp (hbc.symm.trans e))
      exact plain_of_toNat (hne hq) (hne hb) (hne hn) (hne hr)
    · have := le_utf8EncodeChar (Nat.le_of_not_lt ha) b hm
      exact plain_of_toNat (by omega) (by omega) (by omega) (by omega)

/-- The spellings of the characters of a text read as the bytes of the text. -/
theorem read_quoteChars (line : Nat) (cs : List Char) (value rest : List UInt8) :
    read 0x22 ⟨.plain, line, value, []⟩ (utf8 (cs.flatMap quoteChar) ++ rest) =
      read 0x22 ⟨.plain, line, (utf8 cs).reverse ++ value, []⟩ rest := by
  induction cs generalizing value with
  | nil => rfl
  | cons c cs ih =>
    rw [List.flatMap_cons, utf8_append, List.append_assoc, read_quoteChar, ih, utf8_cons,
      List.reverse_append, List.append_assoc]

end LiteralScan

/-- What follows the opening quote of a quoted text. -/
def quoteTail (s : String) : List UInt8 :=
  utf8 (s.toList.flatMap quoteChar ++ ['"'])

theorem toList_bytesOf_quote (s : String) : (bytesOf (quote s)).data.toList = 0x22 :: quoteTail s := by
  rw [toList_bytesOf, quote, String.toList_ofList, quoteChars, utf8_cons_ascii (by decide)]
  rfl

/-- A quoted text reads as the bytes of the text, and nothing more is read. -/
theorem readQuoted_quote (line : Nat) (s : String) (rest : List UInt8) :
    readQuoted 0x22 line (quoteTail s ++ rest) = .ok (utf8 s.toList) line rest := by
  rw [readQuoted, quoteTail, utf8_append, List.append_assoc, LiteralScan.read_quoteChars,
    List.append_nil, show utf8 ['"'] = [0x22] from rfl, List.singleton_append, LiteralScan.read]
  simp [LiteralScan.step, LiteralScan.plainStep]

theorem not_isControl_of_mem_quoteChar {c d : Char} (h : d ∈ quoteChar c) : isControl d = false := by
  by_cases hs : c = '"' ∨ c = '\\' ∨ c = '\n' ∨ c = '\r' ∨ c = '\t'
  · have : ['\\', '"', 'n', 'r', 't'].all (!isControl ·) = true := by decide
    refine Bool.not_eq_true' _ |>.mp (List.all_eq_true.mp this d ?_)
    rcases hs with rfl | rfl | rfl | rfl | rfl <;>
    · rcases List.mem_cons.mp h with rfl | h
      · simp
      · rw [List.mem_singleton.mp h]; simp
  simp only [not_or] at hs
  obtain ⟨hq, hb, hn, hr, ht⟩ := hs
  cases hc : isControl c with
  | true =>
    rw [quoteChar_control hc hn hr ht] at h
    have hd : ∀ n, isControl (digitChar n) = false := fun n => by
      have := toNat_digitChar n
      simp [isControl]
      omega
    simp only [List.mem_cons, List.not_mem_nil, or_false] at h
    rcases h with rfl | rfl | rfl | rfl
    · decide
    all_goals exact hd _
  | false =>
    rw [quoteChar_plain hc hq hb, List.mem_singleton] at h
    rw [h, hc]

theorem not_isControl_of_mem_quote {s : String} {c : Char} (h : c ∈ (quote s).toList) :
    isControl c = false := by
  rw [quote, String.toList_ofList, quoteChars, List.mem_cons, List.mem_append,
    List.mem_singleton, List.mem_flatMap] at h
  rcases h with rfl | ⟨d, -, h⟩ | rfl
  · decide
  · exact not_isControl_of_mem_quoteChar h
  · decide

end Stencil.Lua
