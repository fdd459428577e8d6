import Stencil.Proofs.Lua.Parsing
import Stencil.Proofs.Lua.Quote

/-!
# Reading the tokens of generated code

The tokens of the source that binds the host and writes quoted texts.

* `tokensFrom_quote`: a quoted text is one token, whatever follows it;
* `tokensFrom_writeBytes`: a call of the host with a quoted text, on a line of its own;
* `tokens_writes`: the source of a chunk that binds the host and then writes texts.
-/

namespace Stencil.Lua

open Text (utf8 utf8_append utf8_cons_ascii)

/-! ## Calls -/

/-- A quoted text is one token, whatever follows it. -/
theorem tokensFrom_quote (fuel line : Nat) (s : String) (rest : List UInt8) :
    tokensFrom (fuel + 1) line (0x22 :: (quoteTail s ++ rest)) =
      stringAt line (utf8 s.toList) :: tokensFrom fuel line rest := by
  have h : scanFirst line 0x22 (quoteTail s ++ rest) =
      .token (stringAt line (utf8 s.toList)) rest := by
    show scanQuoted 0x22 line (quoteTail s ++ rest) = _
    rw [scanQuoted, readQuoted_quote]
    rfl
  rw [tokensFrom, h]
  rfl

/-- A line end is one line, unless the second byte of a line end follows. -/
theorem tokensFrom_newline (fuel line : Nat) {rest : List UInt8} (h : rest.head? ≠ some 0x0D) :
    tokensFrom (fuel + 1) line (0x0A :: rest) = tokensFrom fuel (line + 1) rest := by
  have hs : scanFirst line 0x0A rest = .blank (line + 1) rest := by
    cases rest with
    | nil => rfl
    | cons b rest =>
      have hb : b ≠ 0x0D := fun e => h (e ▸ rfl)
      simp [scanFirst, hb]
  rw [tokensFrom, hs]

/-- The bytes of a call that writes a quoted text, with the end of its line. -/
def writeBytes (s : String) : List UInt8 :=
  utf8 "t4.write(".toList ++ 0x22 :: (quoteTail s ++ [0x29, 0x0A])

/-- The bytes of the declaration that binds the host, with the end of its line. -/
def bindingBytes (path : String) : List UInt8 :=
  utf8 "local Host <const> = t4.host(".toList ++ 0x22 :: (quoteTail path ++ [0x29, 0x0A])

theorem utf8_quote (s : String) (cs : List Char) :
    utf8 ((quote s).toList ++ cs) = 0x22 :: (quoteTail s ++ utf8 cs) := by
  rw [utf8_append, ← toList_bytesOf, toList_bytesOf_quote, List.cons_append]

theorem toList_bytesOf_hostBinding (path : String) :
    (bytesOf (dialect.hostBinding path)).data.toList = bindingBytes path := by
  have h : dialect.hostBinding path = "local Host <const> = t4.host(" ++ quote path ++ ")\n" := rfl
  rw [h, toList_bytesOf, String.toList_append, String.toList_append, List.append_assoc,
    utf8_append, utf8_quote, bindingBytes, show utf8 ")\n".toList = [0x29, 0x0A] from rfl]

theorem toList_bytesOf_writeLiteral (text : String) :
    (bytesOf (dialect.writeLiteral text ++ "\n")).data.toList = writeBytes text := by
  have h : dialect.writeLiteral text = "t4.write(" ++ quote text ++ ")" := rfl
  rw [h, toList_bytesOf, String.toList_append, String.toList_append, String.toList_append,
    List.append_assoc, List.append_assoc, utf8_append, utf8_quote, writeBytes,
    show utf8 (")".toList ++ "\n".toList) = [0x29, 0x0A] from rfl]

/-- The end of a call is a parenthesis and a line end. -/
theorem tokensFrom_close (fuel line : Nat) {rest : List UInt8} (h : rest.head? ≠ some 0x0D) :
    tokensFrom (fuel + 2) line (0x29 :: 0x0A :: rest) =
      markAt line .rightParen :: tokensFrom fuel (line + 1) rest := by
  rw [← tokensFrom_newline fuel line h]
  rfl

/-- The argument of a call, with what closes it. -/
theorem tokensFrom_argument (fuel line : Nat) (s : String) {rest : List UInt8}
    (h : rest.head? ≠ some 0x0D) :
    tokensFrom (fuel + 3) line (0x22 :: (quoteTail s ++ [0x29, 0x0A]) ++ rest) =
      [stringAt line (utf8 s.toList), markAt line .rightParen] ++ tokensFrom fuel (line + 1) rest := by
  have hbytes : 0x22 :: (quoteTail s ++ [0x29, 0x0A]) ++ rest =
      0x22 :: (quoteTail s ++ 0x29 :: 0x0A :: rest) := by
    rw [List.cons_append, List.append_assoc]
    rfl
  rw [hbytes, tokensFrom_quote, tokensFrom_close fuel line h]
  rfl

theorem tokensFrom_writeBytes (fuel line : Nat) (s : String) {rest : List UInt8}
    (h : rest.head? ≠ some 0x0D) :
    tokensFrom (fuel + 7) line (writeBytes s ++ rest) =
      hostCall line "write" (utf8 s.toList) ++ tokensFrom fuel (line + 1) rest := by
  have hopen : ∀ rest, tokensFrom (fuel + 7) line (utf8 "t4.write(".toList ++ rest) =
      [nameAt line "t4", markAt line .dot, nameAt line "write", markAt line .leftParen] ++
        tokensFrom (fuel + 3) line rest := fun _ => rfl
  rw [writeBytes, List.append_assoc, hopen, tokensFrom_argument fuel line s h]
  rfl

theorem tokensFrom_bindingBytes (fuel line : Nat) (path : String) {rest : List UInt8}
    (h : rest.head? ≠ some 0x0D) :
    tokensFrom (fuel + 17) line (bindingBytes path ++ rest) =
      bindingTokens line (utf8 path.toList) ++ tokensFrom fuel (line + 1) rest := by
  have hopen : ∀ rest, tokensFrom (fuel + 17) line
      (utf8 "local Host <const> = t4.host(".toList ++ rest) =
        [markAt line .localWord, nameAt line "Host", markAt line .less, nameAt line "const",
          markAt line .greater, markAt line .assign, nameAt line "t4", markAt line .dot,
          nameAt line "host", markAt line .leftParen] ++ tokensFrom (fuel + 3) line rest :=
    fun _ => rfl
  rw [bindingBytes, List.append_assoc, hopen, tokensFrom_argument fuel line path h]
  rfl

/-! ## Chunks -/

theorem tokensFrom_nil (fuel line : Nat) :
    tokensFrom fuel line [] = [⟨.eof, line, ByteArray.empty⟩] := by
  cases fuel <;> rfl

/-- Calls that write texts, to the end of the source. -/
theorem tokensFrom_writes (texts : List String) (fuel line : Nat) :
    tokensFrom (fuel + 7 * texts.length) line (texts.flatMap writeBytes) =
      writeTokens line (texts.map fun s => utf8 s.toList) ++
        [⟨.eof, line + texts.length, ByteArray.empty⟩] := by
  induction texts generalizing line with
  | nil => exact tokensFrom_nil _ _
  | cons s texts ih =>
    have h : (texts.flatMap writeBytes).head? ≠ some 0x0D := by
      cases texts with
      | nil => exact nofun
      | cons t texts => exact fun e => absurd (Option.some.inj e) (by decide)
    have hline : line + 1 + texts.length = line + (texts.length + 1) := by omega
    rw [List.flatMap_cons, List.length_cons, Nat.mul_succ, ← Nat.add_assoc, tokensFrom_writeBytes _ _ _ h,
      ih, hline, List.map_cons, writeTokens, List.append_assoc]

theorem length_le_flatMap_writeBytes (texts : List String) :
    7 * texts.length ≤ (texts.flatMap writeBytes).length := by
  induction texts with
  | nil => exact Nat.le_refl _
  | cons s texts ih =>
    have h : 7 ≤ (writeBytes s).length := by
      rw [writeBytes, List.length_append]
      exact Nat.le_trans (show 7 ≤ (utf8 "t4.write(".toList).length by decide) (Nat.le_add_right _ _)
    rw [List.flatMap_cons, List.length_append, List.length_cons]
    omega

theorem le_length_bindingBytes (path : String) : 17 ≤ (bindingBytes path).length := by
  rw [bindingBytes, List.length_append]
  exact Nat.le_trans (show 17 ≤ (utf8 "local Host <const> = t4.host(".toList).length by decide)
    (Nat.le_add_right _ _)

/-- The tokens of the source that binds the host and then writes texts. -/
theorem tokens_writes (path : String) (texts : List String) :
    tokens (bindingBytes path ++ texts.flatMap writeBytes) =
      bindingTokens 1 (utf8 path.toList) ++ (writeTokens 2 (texts.map fun s => utf8 s.toList) ++
        [⟨.eof, 2 + texts.length, ByteArray.empty⟩]) := by
  have h : (texts.flatMap writeBytes).head? ≠ some 0x0D := by
    cases texts with
    | nil => exact nofun
    | cons t texts => exact fun e => absurd (Option.some.inj e) (by decide)
  obtain ⟨fuel, hfuel⟩ : ∃ fuel, (bindingBytes path ++ texts.flatMap writeBytes).length + 1 =
      fuel + 7 * texts.length + 17 := by
    have h₁ := le_length_bindingBytes path
    have h₂ := length_le_flatMap_writeBytes texts
    refine ⟨(bindingBytes path).length - 17 +
      ((texts.flatMap writeBytes).length - 7 * texts.length) + 1, ?_⟩
    rw [List.length_append]
    omega
  rw [tokens, hfuel, tokensFrom_bindingBytes _ _ _ h, tokensFrom_writes]

/-- The tokens of the source that binds the host and gives it back. -/
theorem tokens_giveBack (path : String) :
    tokens (bindingBytes path ++ utf8 "return Host".toList) =
      bindingTokens 1 (utf8 path.toList) ++
        [markAt 2 .returnWord, nameAt 2 "Host", ⟨.eof, 2, ByteArray.empty⟩] := by
  obtain ⟨fuel, hfuel⟩ : ∃ fuel, (bindingBytes path ++ utf8 "return Host".toList).length + 1 =
      fuel + 4 + 17 := by
    have h := le_length_bindingBytes path
    refine ⟨(bindingBytes path).length - 17 + 8, ?_⟩
    rw [List.length_append, show (utf8 "return Host".toList).length = 11 from rfl]
    omega
  rw [tokens, hfuel, tokensFrom_bindingBytes _ _ _ (by decide)]
  rfl

end Stencil.Lua
