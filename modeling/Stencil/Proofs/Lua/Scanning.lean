import Mathlib.Tactic.SplitIfs
import Stencil.Lua.Lexer

/-!
# Where tokens end

A token ends where the next byte does not go on with it. So the bytes of a token read the same
wherever they stand and whatever follows, as long as its first byte does not go on.

* `Munch`: a reading, with the bytes that it took and those that would have gone on;
* `scanQuoted_munch`, `scanBracket_munch`: strings;
* `scanComment_munch`: comments, which end with their line or at their bracket;
* `scanNumber_munch`: numbers.
-/

namespace Stencil.Lua

/-! ## Readings without lines -/

/-- A token and its spelling, wherever it stands. -/
abbrev Word := Token × Bytes

/-- What was read, without its line: a token, or none for blanks and comments, and what follows. -/
def Scan.bare : Scan → Option (Option Word × List UInt8)
  | .blank _ rest => some (none, rest)
  | .token l rest =>
    match l.token with
    | .fault _ => none
    | t => some (some (t, l.spelling), rest)

theorem bare_ofMark (m : Mark) (line : Nat) (rest : List UInt8) :
    (Scan.ofMark m line rest).bare = some (some (.mark m, bytesOf m.spelling), rest) := rfl

/-- The bytes that part any two tokens: what closes a call, and the ends of lines. -/
def Parting (h : UInt8) : Prop :=
  h = 0x29 ∨ isNewline h = true

/-- What follows does not go on with what was read. -/
def Stops (goes : UInt8 → Bool) (rest : List UInt8) : Prop :=
  ∀ h ∈ rest.head?, goes h = false

/-- A reading of some bytes at the start of a source: it took the bytes `x`, and reads them the
same in any line and whatever follows, as long as its first byte does not go on. -/
structure Munch (read : Nat → List UInt8 → Option (Option Word × List UInt8)) (cs : List UInt8)
    (t : Option Word) (rest x : List UInt8) (goes : UInt8 → Bool) : Prop where
  split : cs = x ++ rest
  stops : Stops goes rest
  again (line : Nat) (r : List UInt8) : Stops goes r → read line (x ++ r) = some (t, r)

theorem Munch.prefixed {read read' : Nat → List UInt8 → Option (Option Word × List UInt8)}
    {cs rest x : List UInt8} {t : Option Word} {goes : UInt8 → Bool} (before : List UInt8)
    (h : Munch read cs t rest x goes) (hread : ∀ line r, read' line (before ++ r) = read line r) :
    Munch read' (before ++ cs) t rest (before ++ x) goes where
  split := by rw [h.split, List.append_assoc]
  stops := h.stops
  again line r hr := by rw [List.append_assoc, hread]; exact h.again line r hr

/-! ## Runs of bytes -/

section

variable {p : UInt8 → Bool} {x r : List UInt8}

theorem stops_nil (p : UInt8 → Bool) : Stops p [] :=
  fun _ hb => absurd hb nofun

theorem stops_cons {c : UInt8} (h : p c = false) (r : List UInt8) : Stops p (c :: r) := by
  rintro _ ⟨⟩
  exact h

theorem stops_dropWhile (p : UInt8 → Bool) (cs : List UInt8) : Stops p (cs.dropWhile p) := by
  intro b hb
  have hhead := List.head?_dropWhile_not p cs
  rw [Option.mem_def.mp hb] at hhead
  exact hhead

/-- A run of bytes ends where what follows does not go on with it. -/
theorem takeWhile_run (hx : ∀ b ∈ x, p b = true) (hr : Stops p r) : (x ++ r).takeWhile p = x := by
  rw [List.takeWhile_append_of_pos hx]
  cases r with
  | nil => exact List.append_nil x
  | cons c r =>
    rw [List.takeWhile_cons_of_neg (Bool.eq_false_iff.mp (hr c rfl)), List.append_nil]

theorem dropWhile_run (hx : ∀ b ∈ x, p b = true) (hr : Stops p r) : (x ++ r).dropWhile p = r := by
  rw [List.dropWhile_append_of_pos hx]
  cases r with
  | nil => rfl
  | cons c r => exact List.dropWhile_cons_of_neg (Bool.eq_false_iff.mp (hr c rfl))

end

/-! ## Strings between quotes -/

namespace LiteralScan

/-- A step without its line. -/
def unlined : LiteralStep → LiteralStep
  | .next s => .next { s with line := 0 }
  | .close value _ => .close value 0
  | .bad reason _ near => .bad reason 0 near

theorem unlined_plainStep (delimiter : UInt8) (s : LiteralScan) (line : Nat) (b : UInt8) :
    unlined (plainStep delimiter { s with line } b) = unlined (s.plainStep delimiter b) := by
  rw [plainStep, plainStep]
  split_ifs <;> rfl

theorem unlined_escapeStep (delimiter : UInt8) (s : LiteralScan) (line : Nat) (b : UInt8) :
    unlined (escapeStep delimiter { s with line } b) = unlined (s.escapeStep delimiter b) := by
  rw [escapeStep, escapeStep]
  split
  · rfl
  · split_ifs <;> rfl

theorem unlined_zapStep (delimiter : UInt8) (s : LiteralScan) (line : Nat) (b : UInt8) :
    unlined (zapStep delimiter { s with line } b) = unlined (s.zapStep delimiter b) := by
  rw [zapStep, zapStep]
  split
  · rfl
  · split
    · rfl
    · exact unlined_plainStep delimiter { s with mode := .plain } line b

/-- What a byte of a string leads to does not depend on the line. -/
theorem unlined_step (delimiter : UInt8) (s : LiteralScan) (line : Nat) (b : UInt8) :
    unlined (step delimiter { s with line } b) = unlined (s.step delimiter b) := by
  obtain ⟨mode, last, value, raw⟩ := s
  cases mode with
  | plain => exact unlined_plainStep delimiter _ line b
  | escape => exact unlined_escapeStep delimiter _ line b
  | zap => exact unlined_zapStep delimiter _ line b
  | hex first =>
    simp only [step]
    cases hexValue b <;> cases first <;> rfl
  | decimal count n =>
    simp only [step]
    split_ifs
    · rfl
    · rfl
    · exact unlined_plainStep delimiter ⟨.plain, last, UInt8.ofNat n :: value, []⟩ line b
  | brace =>
    simp only [step]
    split_ifs <;> rfl
  | firstDigit =>
    simp only [step]
    cases hexValue b <;> rfl
  | codePoint n =>
    simp only [step]
    cases hexValue b
    · simp only
      split_ifs <;> rfl
    · simp only
      split_ifs <;> rfl
  | pair other zap =>
    simp only [step]
    split
    · rfl
    · split
      · exact unlined_zapStep delimiter ⟨.pair other zap, last, value, raw⟩ line b
      · exact unlined_plainStep delimiter ⟨.plain, last, value, raw⟩ line b

theorem plainStep_close {delimiter b : UInt8} {s : LiteralScan} {value : List UInt8} {line : Nat}
    (h : s.plainStep delimiter b = .close value line) : b = delimiter := by
  rw [plainStep] at h
  split at h
  · exact eq_of_beq ‹_›
  · split_ifs at h
    cases h

theorem zapStep_close {delimiter b : UInt8} {s : LiteralScan} {value : List UInt8} {line : Nat}
    (h : s.zapStep delimiter b = .close value line) : b = delimiter := by
  rw [zapStep] at h
  split_ifs at h
  exact plainStep_close h

/-- Only its quote closes a string. -/
theorem step_close {delimiter b : UInt8} {s : LiteralScan} {value : List UInt8} {line : Nat}
    (h : s.step delimiter b = .close value line) : b = delimiter := by
  obtain ⟨mode, last, before, raw⟩ := s
  cases mode with
  | plain => exact plainStep_close h
  | zap => exact zapStep_close h
  | escape =>
    simp only [step, escapeStep] at h
    split at h
    · cases h
    · split_ifs at h
  | hex first =>
    simp only [step] at h
    split at h <;> cases h
  | decimal count n =>
    simp only [step] at h
    split_ifs at h
    exact plainStep_close h
  | brace =>
    simp only [step] at h
    split_ifs at h
  | firstDigit =>
    simp only [step] at h
    split at h <;> cases h
  | codePoint n =>
    simp only [step] at h
    split at h
    · split_ifs at h
    · split_ifs at h
  | pair other zap =>
    simp only [step] at h
    split_ifs at h
    · exact zapStep_close h
    · exact plainStep_close h

theorem atEnd_ne_ok (delimiter : UInt8) (s : LiteralScan) {value rest : List UInt8} {line : Nat} :
    s.atEnd delimiter ≠ .ok value line rest := by
  intro h
  rw [atEnd] at h
  split at h
  · cases h
  · cases h
  · cases h
  · cases h
  · split at h <;> cases h
  · cases h

/-- A string is read to its closing quote, in any line and whatever follows. -/
theorem read_munch {delimiter : UInt8} {s : LiteralScan} {cs value rest : List UInt8} {last : Nat}
    (h : s.read delimiter cs = .ok value last rest) :
    ∃ x, cs = x ++ rest ∧ x.getLast? = some delimiter ∧
      ∀ line r, ∃ last', read delimiter { s with line } (x ++ r) = .ok value last' r := by
  induction cs generalizing s with
  | nil => exact absurd h (atEnd_ne_ok delimiter s)
  | cons b cs ih =>
    rw [read] at h
    cases hstep : s.step delimiter b with
    | bad reason line near => rw [hstep] at h; cases h
    | close v l =>
      rw [hstep] at h
      cases h
      refine ⟨[b], rfl, congrArg some (step_close hstep), fun line r => ?_⟩
      have hline := unlined_step delimiter s line b
      rw [hstep] at hline
      rw [List.singleton_append, read]
      cases hstep' : step delimiter { s with line } b with
      | next s' => rw [hstep'] at hline; cases hline
      | bad reason l near => rw [hstep'] at hline; cases hline
      | close v l =>
        rw [hstep'] at hline
        cases hline
        exact ⟨l, rfl⟩
    | next s' =>
      rw [hstep] at h
      obtain ⟨x, rfl, hlast, hagain⟩ := ih h
      refine ⟨b :: x, rfl, by rw [List.getLast?_cons, hlast]; rfl, fun line r => ?_⟩
      have hline := unlined_step delimiter s line b
      rw [hstep] at hline
      rw [List.cons_append, read]
      cases hstep' : step delimiter { s with line } b with
      | close v l => rw [hstep'] at hline; cases hline
      | bad reason l near => rw [hstep'] at hline; cases hline
      | next s'' =>
        rw [hstep'] at hline
        have hsame : s'' = { s' with line := s''.line } := by
          obtain ⟨mode, _, value, raw⟩ := s''
          cases hline
          rfl
        rw [hsame]
        exact hagain s''.line r

end LiteralScan

/-- A string between quotes is read to its closing quote, whatever follows. -/
theorem scanQuoted_munch {delimiter : UInt8} {line : Nat} {cs rest : List UInt8} {t : Option Word}
    (h : (scanQuoted delimiter line cs).bare = some (t, rest)) :
    ∃ x, x.getLast? = some delimiter ∧
      Munch (fun line cs => (scanQuoted delimiter line cs).bare) cs t rest x fun _ => false := by
  rw [scanQuoted] at h
  cases hread : readQuoted delimiter line cs with
  | bad reason last near => rw [hread] at h; cases h
  | ok value last rest' =>
    rw [hread] at h
    cases h
    obtain ⟨x, hsplit, hlast, hagain⟩ := LiteralScan.read_munch hread
    refine ⟨x, hlast, hsplit, fun _ _ => rfl, fun line r _ => ?_⟩
    obtain ⟨last', hagain⟩ := hagain line r
    have hquoted : readQuoted delimiter line (x ++ r) = .ok value last' r := hagain
    rw [scanQuoted, hquoted]
    rfl

/-! ## Strings between brackets -/

/-- A byte between long brackets closes them, or leads to a mode and a value, in any line. -/
theorem readBrackets_cons (level : Nat) (mode : BracketMode) (value : List UInt8) (b : UInt8) :
    (b = 0x5D ∧ ∀ line rest, readBrackets level mode line value (b :: rest) =
        some (value.reverse, line, rest)) ∨
      ∃ mode' more value', ∀ line rest, readBrackets level mode line value (b :: rest) =
        readBrackets level mode' (line + more) value' rest := by
  have hordinary : ∀ before : List UInt8, ∃ mode' more value', ∀ line rest,
      (if b == 0x5D then readBrackets level (.closing 0) line before rest
        else if isNewline b then
          readBrackets level (.pair (if b == 0x0A then 0x0D else 0x0A)) (line + 1)
            (0x0A :: before) rest
        else readBrackets level .plain line (b :: before) rest) =
        readBrackets level mode' (line + more) value' rest := by
    intro before
    split
    · exact ⟨_, 0, _, fun _ _ => rfl⟩
    · split
      · exact ⟨_, 1, _, fun _ _ => rfl⟩
      · exact ⟨_, 0, _, fun _ _ => rfl⟩
  cases mode with
  | plain => exact .inr (hordinary value)
  | pair other =>
    simp only [readBrackets]
    split
    · exact .inr ⟨.plain, 0, value, fun _ _ => rfl⟩
    · exact .inr (hordinary value)
  | closing signs =>
    simp only [readBrackets]
    split
    · rename_i hclose
      rw [Bool.and_eq_true] at hclose
      exact .inl ⟨eq_of_beq hclose.1, fun _ _ => rfl⟩
    · split
      · exact .inr ⟨.closing (signs + 1), 0, value, fun _ _ => rfl⟩
      · exact .inr (hordinary _)

/-- What stands between long brackets is read to the closing one, whatever follows. -/
theorem readBrackets_munch {level line last : Nat} {mode : BracketMode}
    {before cs value rest : List UInt8}
    (h : readBrackets level mode line before cs = some (value, last, rest)) :
    ∃ x, cs = x ++ rest ∧ x.getLast? = some 0x5D ∧ ∀ line r, ∃ last',
      readBrackets level mode line before (x ++ r) = some (value, last', r) := by
  induction cs generalizing mode line before with
  | nil => cases h
  | cons b cs ih =>
    rcases readBrackets_cons level mode before b with ⟨rfl, hclose⟩ | ⟨mode', more, before', hstep⟩
    · rw [hclose] at h
      cases h
      exact ⟨[0x5D], rfl, rfl, fun line r => ⟨line, hclose line r⟩⟩
    · rw [hstep] at h
      obtain ⟨x, rfl, hlast, hagain⟩ := ih h
      refine ⟨b :: x, rfl, by rw [List.getLast?_cons, hlast]; rfl, fun line r => ?_⟩
      rw [List.cons_append, hstep]
      exact hagain (line + more) r

theorem readBracketed_munch {level line last : Nat} {cs value rest : List UInt8}
    (h : readBracketed level line cs = some (value, last, rest)) :
    ∃ x, cs = x ++ rest ∧ x.getLast? = some 0x5D ∧ ∀ line r, ∃ last',
      readBracketed level line (x ++ r) = some (value, last', r) := by
  cases cs with
  | nil => cases h
  | cons b cs =>
    by_cases hb : isNewline b = true
    · have hread : ∀ line r, readBracketed level line (b :: r) =
          readBrackets level (.pair (if b == 0x0A then 0x0D else 0x0A)) (line + 1) [] r :=
        fun _ _ => if_pos hb
      rw [hread] at h
      obtain ⟨x, rfl, hlast, hagain⟩ := readBrackets_munch h
      refine ⟨b :: x, rfl, by rw [List.getLast?_cons, hlast]; rfl, fun line r => ?_⟩
      rw [List.cons_append, hread]
      exact hagain (line + 1) r
    · have hread : ∀ line r, readBracketed level line (b :: r) =
          readBrackets level .plain line [] (b :: r) := fun _ _ => if_neg hb
      rw [hread] at h
      obtain ⟨x, hsplit, hlast, hagain⟩ := readBrackets_munch h
      refine ⟨x, hsplit, hlast, fun line r => ?_⟩
      cases x with
      | nil => cases hlast
      | cons c x =>
        cases hsplit
        rw [List.cons_append, hread]
        exact hagain line r

/-- What opens a long bracket, after its first bracket. -/
def opening (level : Nat) : List UInt8 :=
  List.replicate level 0x3D ++ [0x5B]

theorem openingLevel_eq_some_iff {cs rest : List UInt8} {level : Nat} :
    openingLevel cs = some (level, rest) ↔ cs = opening level ++ rest := by
  constructor
  · intro h
    rw [openingLevel] at h
    simp only at h
    split at h
    · rename_i rest' hdrop
      cases h
      have hall : cs.takeWhile (· == 0x3D) =
          List.replicate (cs.takeWhile (· == 0x3D)).length 0x3D := by
        refine List.eq_replicate_of_mem fun b hb => ?_
        exact eq_of_beq (List.all_eq_true.mp List.all_takeWhile b hb)
      rw [opening, List.append_assoc, ← hall]
      have happend := List.takeWhile_append_dropWhile (p := (· == (0x3D : UInt8))) (l := cs)
      rw [hdrop] at happend
      exact happend.symm
    · cases h
  · rintro rfl
    have hsigns : ∀ b ∈ List.replicate level (0x3D : UInt8), (b == 0x3D) = true := by
      intro b hb
      rw [List.eq_of_mem_replicate hb]
      rfl
    have hstops : Stops (· == 0x3D) (0x5B :: rest) := stops_cons rfl rest
    rw [opening, List.append_assoc, openingLevel]
    simp only [List.singleton_append, takeWhile_run hsigns hstops, dropWhile_run hsigns hstops,
      List.length_replicate]

theorem openingLevel_eq_none_iff {cs : List UInt8} :
    openingLevel cs = none ↔ ∀ level rest, cs ≠ opening level ++ rest := by
  constructor
  · intro h level rest heq
    rw [openingLevel_eq_some_iff.mpr heq] at h
    cases h
  · intro h
    cases hopen : openingLevel cs with
    | none => rfl
    | some found => exact absurd (openingLevel_eq_some_iff.mp hopen) (h found.1 found.2)

/-- What stands from the opening of a long bracket to its end, whatever follows. -/
theorem longBracket_munch {level line last : Nat} {cs inner value rest : List UInt8}
    (hopen : openingLevel cs = some (level, inner))
    (h : readBracketed level line inner = some (value, last, rest)) :
    ∃ x, cs = x ++ rest ∧ x.getLast? = some 0x5D ∧ ∀ line r, ∃ inner' last',
      openingLevel (x ++ r) = some (level, inner') ∧
        readBracketed level line inner' = some (value, last', r) := by
  obtain ⟨x, rfl, hlast, hagain⟩ := readBracketed_munch h
  refine ⟨opening level ++ x, ?_, ?_, fun line r => ?_⟩
  · rw [openingLevel_eq_some_iff.mp hopen, List.append_assoc]
  · rw [List.getLast?_append, hlast]
    rfl
  · obtain ⟨last', hagain⟩ := hagain line r
    exact ⟨x ++ r, last', openingLevel_eq_some_iff.mpr (List.append_assoc ..), hagain⟩

theorem parting_false (goes : UInt8 → Bool) (hclose : goes 0x29 = false) (hfeed : goes 0x0A = false)
    (hreturn : goes 0x0D = false) {h : UInt8} (hp : Parting h) : goes h = false := by
  rcases hp with rfl | hn
  · exact hclose
  · rw [isNewline, Bool.or_eq_true] at hn
    rcases hn with hn | hn
    · rw [eq_of_beq hn]
      exact hfeed
    · rw [eq_of_beq hn]
      exact hreturn

/-- A bracket, or a string between long brackets. -/
theorem scanBracket_munch {line : Nat} {cs rest : List UInt8} {t : Option Word}
    (h : (scanBracket line cs).bare = some (t, rest)) :
    ∃ x goes, (x = [] ∨ x.getLast? = some 0x5D) ∧ (∀ b, Parting b → goes b = false) ∧
      Munch (fun line cs => (scanBracket line cs).bare) cs t rest x goes := by
  rw [scanBracket] at h
  cases hopen : openingLevel cs with
  | some found =>
    obtain ⟨level, inner⟩ := found
    rw [hopen] at h
    simp only at h
    cases hread : readBracketed level line inner with
    | none => rw [hread] at h; cases h
    | some read =>
      obtain ⟨value, last, rest'⟩ := read
      rw [hread] at h
      cases h
      obtain ⟨x, hsplit, hlast, hagain⟩ := longBracket_munch hopen hread
      refine ⟨x, fun _ => false, .inr hlast, fun _ _ => rfl, hsplit, fun _ _ => rfl,
        fun line r _ => ?_⟩
      obtain ⟨inner', last', hopen', hread'⟩ := hagain line r
      rw [scanBracket, hopen']
      simp only [hread']
      rfl
  | none =>
    rw [hopen] at h
    simp only at h
    split at h
    · rename_i hsigns
      cases h
      have hnone : ∀ r : List UInt8, Stops (fun b => b == 0x3D || b == 0x5B) r →
          openingLevel r = none ∧ r.takeWhile (· == 0x3D) = [] := by
        intro r hr
        cases r with
        | nil => exact ⟨rfl, rfl⟩
        | cons b r =>
          have hb : (b == 0x3D || b == 0x5B) = false := hr b rfl
          rw [Bool.or_eq_false_iff] at hb
          refine ⟨openingLevel_eq_none_iff.mpr fun level q heq => ?_,
            List.takeWhile_cons_of_neg (by rw [hb.1]; exact Bool.false_ne_true)⟩
          cases level with
          | zero => cases heq; exact absurd hb.2 (by decide)
          | succ level => cases heq; exact absurd hb.1 (by decide)
      refine ⟨[], fun b => b == 0x3D || b == 0x5B, .inl rfl,
        fun b hb => parting_false (fun b => b == 0x3D || b == 0x5B) rfl rfl rfl hb,
        rfl, ?_, fun line r hr => ?_⟩
      · intro b hb
        cases cs with
        | nil => cases hb
        | cons c r =>
          cases hb
          rw [Bool.or_eq_false_iff]
          refine ⟨beq_false_of_ne fun hsign => ?_, beq_false_of_ne fun hbracket => ?_⟩
          · rw [hsign, List.takeWhile_cons_of_pos rfl] at hsigns
            cases hsigns
          · exact openingLevel_eq_none_iff.mp hopen 0 r (by rw [hbracket]; rfl)
      · obtain ⟨hopen', hsigns'⟩ := hnone r hr
        rw [List.nil_append, scanBracket, hopen', hsigns']
        rfl
    · cases h

/-! ## Comments -/

/-- What stands after the dashes of a comment that ends with its line. -/
structure IsLineComment (y : List UInt8) : Prop where
  line : ∀ b ∈ y, isNewline b = false
  short : ∀ z, y = 0x5B :: z → openingLevel z = none

theorem scanComment_short {cs : List UInt8} (h : ∀ z, cs = 0x5B :: z → openingLevel z = none)
    (line : Nat) : scanComment line cs = .blank line (cs.dropWhile fun b => !isNewline b) := by
  unfold scanComment
  split
  · rename_i z
    rw [h z rfl]
  · rfl

/-- What parts tokens does not open a long bracket. -/
theorem IsLineComment.append {y r : List UInt8} (h : IsLineComment y)
    (hr : ∀ b ∈ r.head?, Parting b) : ∀ z, y ++ r = 0x5B :: z → openingLevel z = none := by
  have hopens : ∀ b level, b ∈ opening level → ¬ Parting b := by
    intro b level hb hparting
    have hnot := parting_false (fun b => b == 0x3D || b == 0x5B) rfl rfl rfl hparting
    rw [opening, List.mem_append] at hb
    rcases hb with hb | hb
    · rw [List.eq_of_mem_replicate hb] at hnot
      exact absurd hnot (by decide)
    · rw [List.mem_singleton.mp hb] at hnot
      exact absurd hnot (by decide)
  intro z hz
  cases y with
  | nil =>
    rw [List.nil_append] at hz
    rw [hz] at hr
    exact absurd (hr 0x5B rfl) (hopens 0x5B 0 List.mem_cons_self)
  | cons c y =>
    cases hz
    have hnone := openingLevel_eq_none_iff.mp (h.short y rfl)
    refine openingLevel_eq_none_iff.mpr fun level q heq => ?_
    rcases List.append_eq_append_iff.mp heq with ⟨a, hopen, hra⟩ | ⟨a, hy, -⟩
    · cases a with
      | nil => exact hnone level [] (by rw [hopen, List.append_nil, List.append_nil])
      | cons b a =>
        refine absurd (hr b (by rw [hra]; rfl)) (hopens b level ?_)
        rw [hopen]
        exact List.mem_append_right y List.mem_cons_self
    · exact hnone level a hy

/-- A comment goes to its closing bracket, or to the end of its line. -/
theorem scanComment_munch {line : Nat} {cs rest : List UInt8} {t : Option Word}
    (h : (scanComment line cs).bare = some (t, rest)) :
    t = none ∧ ∃ x goes,
      Munch (fun line cs => (scanComment line cs).bare) cs none rest x goes ∧
        ((x.getLast? = some 0x5D ∧ ∀ b, goes b = false) ∨
          IsLineComment x ∧ ∀ b, goes b = !isNewline b) := by
  by_cases hshort : ∀ z, cs = 0x5B :: z → openingLevel z = none
  · rw [scanComment_short hshort] at h
    cases h
    have hsplit := List.takeWhile_append_dropWhile (p := fun b => !isNewline b) (l := cs)
    have hcomment : IsLineComment (cs.takeWhile fun b => !isNewline b) := by
      refine ⟨fun b hb => ?_, fun z hz => ?_⟩
      · exact Bool.not_eq_true' _ |>.mp (List.all_eq_true.mp List.all_takeWhile b hb)
      · refine openingLevel_eq_none_iff.mpr fun level q heq => ?_
        rw [hz, heq] at hsplit
        exact openingLevel_eq_none_iff.mp (hshort _ hsplit.symm) level _ (List.append_assoc ..)
    refine ⟨rfl, _, fun b => !isNewline b, ⟨hsplit.symm, ?_, fun line r hr => ?_⟩,
      .inr ⟨hcomment, fun _ => rfl⟩⟩
    · exact stops_dropWhile _ cs
    · have hparting : ∀ b ∈ r.head?, Parting b := fun b hb =>
        .inr (Bool.not_eq_false' _ |>.mp (hr b hb))
      have hinside : ∀ b ∈ cs.takeWhile (fun b => !isNewline b), (!isNewline b) = true :=
        List.all_eq_true.mp List.all_takeWhile
      rw [scanComment_short (hcomment.append hparting), dropWhile_run hinside hr]
      rfl
  · simp only [Classical.not_forall] at hshort
    obtain ⟨z, rfl, hsome⟩ := hshort
    obtain ⟨⟨level, inner⟩, hsome⟩ := Option.ne_none_iff_exists'.mp hsome
    rw [scanComment] at h
    simp only [hsome] at h
    cases hread : readBracketed level line inner with
    | none => rw [hread] at h; cases h
    | some read =>
      obtain ⟨value, last, rest'⟩ := read
      rw [hread] at h
      cases h
      obtain ⟨x, hsplit, hlast, hagain⟩ := longBracket_munch hsome hread
      refine ⟨rfl, 0x5B :: x, fun _ => false,
        ⟨congrArg (0x5B :: ·) hsplit, fun _ _ => rfl, fun line r _ => ?_⟩,
        .inl ⟨by rw [List.getLast?_cons, hlast]; rfl, fun _ => rfl⟩⟩
      obtain ⟨inner', last', hopen', hread'⟩ := hagain line r
      rw [List.cons_append, scanComment]
      simp only [hopen', hread']
      rfl

/-! ## Numbers -/

/-- A test that line ends do not pass. -/
theorem isNewline_eq_false (p : UInt8 → Bool) (hfeed : p 0x0A = false) (hreturn : p 0x0D = false)
    {b : UInt8} (hb : p b = true) : isNewline b = false := by
  rw [isNewline, Bool.or_eq_false_iff]
  refine ⟨beq_false_of_ne ?_, beq_false_of_ne ?_⟩
  · rintro rfl
    exact Bool.false_ne_true (hfeed.symm.trans hb)
  · rintro rfl
    exact Bool.false_ne_true (hreturn.symm.trans hb)

/-- Whether a byte goes on with a numeral. -/
def numeralGoes (marks : List UInt8) (afterMark : Bool) (b : UInt8) : Bool :=
  afterMark && (b == 0x2B || b == 0x2D) || marks.contains b || (isHexDigit b || b == 0x2E) ||
    isNameStart b

theorem readNumeral_stop {marks taken r : List UInt8} {afterMark : Bool}
    (hr : Stops (numeralGoes marks afterMark) r) :
    readNumeral marks afterMark taken r = (taken, r) := by
  cases r with
  | nil => rfl
  | cons b r =>
    have hb : numeralGoes marks afterMark b = false := hr b rfl
    rw [numeralGoes, Bool.or_eq_false_iff, Bool.or_eq_false_iff, Bool.or_eq_false_iff] at hb
    obtain ⟨⟨⟨hsign, hmark⟩, hdigit⟩, hstart⟩ := hb
    rw [readNumeral, hsign, hmark, hdigit, hstart]
    rfl

/-- How a numeral is read, after its first digits. -/
structure NumeralMunch (marks : List UInt8) (afterMark : Bool) (taken cs text rest x : List UInt8)
    (goes : UInt8 → Bool) : Prop where
  split : cs = x ++ rest
  stops : Stops goes rest
  again (r : List UInt8) : Stops goes r → readNumeral marks afterMark taken (x ++ r) = (text, r)
  line : ∀ b ∈ x, isNewline b = false
  parting : ∀ b, Parting b → goes b = false
  /-- A numeral that has just begun goes on with every letter. -/
  letters : x = [] → ∀ b, isNameStart b = true → goes b = true

theorem NumeralMunch.stop {marks taken r : List UInt8} {afterMark : Bool}
    (hmarks : ∀ m ∈ marks, isNameStart m = true) (hr : Stops (numeralGoes marks afterMark) r) :
    NumeralMunch marks afterMark taken r taken r [] (numeralGoes marks afterMark) where
  split := rfl
  stops := hr
  again _ hr := readNumeral_stop hr
  line _ hb := absurd hb List.not_mem_nil
  parting b hb := by
    have hclosed : ∀ b, isNameStart b = false → marks.contains b = false := by
      intro b hb
      refine Bool.eq_false_iff.mpr fun hmem => ?_
      rw [hmarks b (List.contains_iff_mem.mp hmem)] at hb
      cases hb
    refine parting_false _ ?_ ?_ ?_ hb
    · rw [numeralGoes, hclosed _ rfl]
      cases afterMark <;> rfl
    · rw [numeralGoes, hclosed _ rfl]
      cases afterMark <;> rfl
    · rw [numeralGoes, hclosed _ rfl]
      cases afterMark <;> rfl
  letters _ b hb := by rw [numeralGoes, hb, Bool.or_true]

theorem readNumeral_munch {marks cs taken text rest : List UInt8} {afterMark : Bool}
    (hmarks : ∀ m ∈ marks, isNameStart m = true)
    (h : readNumeral marks afterMark taken cs = (text, rest)) :
    ∃ x goes, NumeralMunch marks afterMark taken cs text rest x goes := by
  induction cs generalizing afterMark taken with
  | nil =>
    cases h
    exact ⟨[], _, .stop hmarks fun _ hb => absurd hb nofun⟩
  | cons b cs ih =>
    -- A byte that goes on with the numeral and leaves more to read.
    have hnext : ∀ after : Bool, isNewline b = false →
        (∀ r, readNumeral marks afterMark taken (b :: r) =
          readNumeral marks after (b :: taken) r) →
        ∃ x goes, NumeralMunch marks afterMark taken (b :: cs) text rest x goes := by
      intro after hline hread
      rw [hread] at h
      obtain ⟨x, goes, hmunch⟩ := ih h
      refine ⟨b :: x, goes, ?_, hmunch.stops, fun r hr => ?_, ?_, hmunch.parting, nofun⟩
      · rw [List.cons_append, ← hmunch.split]
      · rw [List.cons_append, hread]
        exact hmunch.again r hr
      · intro c hc
        rcases List.mem_cons.mp hc with rfl | hc
        · exact hline
        · exact hmunch.line c hc
    by_cases hsign : (afterMark && (b == 0x2B || b == 0x2D)) = true
    · refine hnext false ?_ fun r => by rw [readNumeral, if_pos hsign]
      exact isNewline_eq_false (fun b => b == 0x2B || b == 0x2D) rfl rfl
        (Bool.and_eq_true_iff.mp hsign).2
    · by_cases hmark : marks.contains b = true
      · refine hnext true ?_ fun r => by rw [readNumeral, if_neg hsign, if_pos hmark]
        exact isNewline_eq_false isNameStart rfl rfl (hmarks b (List.contains_iff_mem.mp hmark))
      · by_cases hdigit : (isHexDigit b || b == 0x2E) = true
        · refine hnext false ?_ fun r => by
            rw [readNumeral, if_neg hsign, if_neg hmark, if_pos hdigit]
          exact isNewline_eq_false (fun b => isHexDigit b || b == 0x2E) rfl rfl hdigit
        · by_cases hstart : isNameStart b = true
          · have hread : ∀ r, readNumeral marks afterMark taken (b :: r) = (b :: taken, r) := by
              intro r
              rw [readNumeral, if_neg hsign, if_neg hmark, if_neg hdigit, if_pos hstart]
            rw [hread] at h
            cases h
            refine ⟨[b], fun _ => false, rfl, fun _ _ => rfl, fun r _ => hread r, fun c hc => ?_,
              fun _ _ => rfl, nofun⟩
            rw [List.mem_singleton.mp hc]
            exact isNewline_eq_false isNameStart rfl rfl hstart
          · have hstops : Stops (numeralGoes marks afterMark) (b :: cs) := by
              intro c hc
              cases hc
              rw [numeralGoes, Bool.eq_false_iff.mpr hsign, Bool.eq_false_iff.mpr hmark,
                Bool.eq_false_iff.mpr hdigit, Bool.eq_false_iff.mpr hstart]
              rfl
            rw [readNumeral_stop hstops] at h
            cases h
            exact ⟨[], _, .stop hmarks hstops⟩

/-- The bytes of a numeral, last first, and what follows. -/
def numeralBytes (taken cs : List UInt8) : List UInt8 × List UInt8 :=
  match cs with
  | 0x30 :: x :: rest =>
    if x == 0x78 || x == 0x58 then readNumeral [0x70, 0x50] false (x :: 0x30 :: taken) rest
    else readNumeral [0x65, 0x45] false taken cs
  | cs => readNumeral [0x65, 0x45] false taken cs

theorem scanNumber_eq (line : Nat) (taken cs : List UInt8) :
    scanNumber line taken cs =
      match Numeral.read (numeralBytes taken cs).1.reverse with
      | some n =>
        .token ⟨.number n, line, (numeralBytes taken cs).1.reverse.toByteArray⟩
          (numeralBytes taken cs).2
      | none => .bad "malformed number" line (some (numeralBytes taken cs).1.reverse) := rfl

theorem numeralBytes_hex {c : UInt8} (hc : (c == 0x78 || c == 0x58) = true)
    (taken r : List UInt8) : numeralBytes taken (0x30 :: c :: r) =
      readNumeral [0x70, 0x50] false (c :: 0x30 :: taken) r := if_pos hc

theorem numeralBytes_plain {d : UInt8} {r : List UInt8} (hd : isDigit d = true)
    (hr : d = 0x30 → Stops (fun c => c == 0x78 || c == 0x58) r) (taken : List UInt8) :
    numeralBytes taken (d :: r) = readNumeral [0x65, 0x45] false (d :: taken) r := by
  have hread : numeralBytes taken (d :: r) = readNumeral [0x65, 0x45] false taken (d :: r) := by
    unfold numeralBytes
    split
    · rename_i c rest hcs
      cases hcs
      have hc : (c == 0x78 || c == 0x58) = false := hr rfl c rfl
      rw [hc]
      rfl
    · rfl
  have hhex : isHexDigit d = true := by
    rw [isHexDigit, hexValue, if_pos hd]
    rfl
  have hmark : [(0x65 : UInt8), 0x45].contains d = false := by
    refine Bool.eq_false_iff.mpr fun hmem => ?_
    rcases List.mem_cons.mp (List.contains_iff_mem.mp hmem) with rfl | hmem
    · exact absurd hd (by decide)
    · rw [List.mem_singleton.mp hmem] at hd
      exact absurd hd (by decide)
  rw [hread, readNumeral, hmark, hhex]
  rfl

/-- The bytes of a numeral are read to its end, which is not that of a line. -/
theorem numeralBytes_munch {taken cs text rest : List UInt8} {d : UInt8} (hd : isDigit d = true)
    (h : numeralBytes taken (d :: cs) = (text, rest)) :
    ∃ x goes, d :: cs = x ++ rest ∧ Stops goes rest ∧
      (∀ r, Stops goes r → numeralBytes taken (x ++ r) = (text, r)) ∧
      (∃ c, x.getLast? = some c ∧ isNewline c = false) ∧ ∀ b, Parting b → goes b = false := by
  have hdigit : isNewline d = false := isNewline_eq_false isDigit rfl rfl hd
  have hlast : ∀ x : List UInt8, x ≠ [] → (∀ b ∈ x, isNewline b = false) →
      ∃ c, x.getLast? = some c ∧ isNewline c = false := fun x hne hline =>
    ⟨x.getLast hne, List.getLast?_eq_some_getLast hne, hline _ (List.getLast_mem hne)⟩
  by_cases hhex : ∃ c r, d = 0x30 ∧ cs = c :: r ∧ (c == 0x78 || c == 0x58) = true
  · obtain ⟨c, r, rfl, rfl, hc⟩ := hhex
    rw [numeralBytes_hex hc] at h
    have hmarks : ∀ m ∈ [(0x70 : UInt8), 0x50], isNameStart m = true :=
      List.forall_mem_cons.mpr ⟨rfl, List.forall_mem_singleton.mpr rfl⟩
    obtain ⟨x, goes, hmunch⟩ := readNumeral_munch hmarks h
    refine ⟨0x30 :: c :: x, goes, by rw [hmunch.split]; rfl, hmunch.stops, fun r' hr => ?_,
      hlast _ nofun ?_, hmunch.parting⟩
    · rw [List.cons_append, List.cons_append, numeralBytes_hex hc]
      exact hmunch.again r' hr
    · intro b hb
      rcases List.mem_cons.mp hb with rfl | hb
      · exact hdigit
      · rcases List.mem_cons.mp hb with rfl | hb
        · exact isNewline_eq_false (fun c => c == 0x78 || c == 0x58) rfl rfl hc
        · exact hmunch.line b hb
  · have hplain : d = 0x30 → Stops (fun c => c == 0x78 || c == 0x58) cs := by
      intro hzero c hc
      cases cs with
      | nil => cases hc
      | cons _ r =>
        cases hc
        exact Bool.eq_false_iff.mpr fun hx => hhex ⟨c, r, hzero, rfl, hx⟩
    rw [numeralBytes_plain hd hplain] at h
    have hmarks : ∀ m ∈ [(0x65 : UInt8), 0x45], isNameStart m = true :=
      List.forall_mem_cons.mpr ⟨rfl, List.forall_mem_singleton.mpr rfl⟩
    obtain ⟨x, goes, hmunch⟩ := readNumeral_munch hmarks h
    refine ⟨d :: x, goes, by rw [hmunch.split]; rfl, hmunch.stops, fun r hr => ?_,
      hlast _ nofun ?_, hmunch.parting⟩
    · -- What follows does not make the number hexadecimal.
      have hstill : d = 0x30 → Stops (fun c => c == 0x78 || c == 0x58) (x ++ r) := by
        intro hzero c hc
        cases x with
        | cons c' x =>
          rw [hmunch.split] at hplain
          exact hplain hzero c hc
        | nil =>
          have hgoes := hr c hc
          refine Bool.eq_false_iff.mpr fun hx => ?_
          rw [hmunch.letters rfl c] at hgoes
          · cases hgoes
          · rw [Bool.or_eq_true] at hx
            rcases hx with hx | hx
            · rw [eq_of_beq hx]
              rfl
            · rw [eq_of_beq hx]
              rfl
      rw [List.cons_append, numeralBytes_plain hd hstill]
      exact hmunch.again r hr
    · intro b hb
      rcases List.mem_cons.mp hb with rfl | hb
      · exact hdigit
      · exact hmunch.line b hb

/-- A number is read to its end, which is not that of a line. -/
theorem scanNumber_munch {line : Nat} {taken cs rest : List UInt8} {d : UInt8} {t : Option Word}
    (hd : isDigit d = true) (h : (scanNumber line taken (d :: cs)).bare = some (t, rest)) :
    ∃ x goes, (∃ c, x.getLast? = some c ∧ isNewline c = false) ∧
      (∀ b, Parting b → goes b = false) ∧
      Munch (fun line cs => (scanNumber line taken cs).bare) (d :: cs) t rest x goes := by
  rw [scanNumber_eq] at h
  cases hbytes : numeralBytes taken (d :: cs) with
  | mk text rest' =>
    obtain ⟨x, goes, hsplit, hstops, hagain, hlast, hparting⟩ := numeralBytes_munch hd hbytes
    rw [hbytes] at h
    simp only at h
    cases hread : Numeral.read text.reverse with
    | none => rw [hread] at h; cases h
    | some n =>
      rw [hread] at h
      cases h
      refine ⟨x, goes, hlast, hparting, hsplit, hstops, fun line r hr => ?_⟩
      rw [scanNumber_eq, hagain r hr]
      simp only [hread]
      rfl

end Stencil.Lua
