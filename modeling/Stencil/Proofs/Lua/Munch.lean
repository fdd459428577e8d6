import Mathlib.Tactic.ByContra
import Stencil.Proofs.Lua.Scanning

/-!
# What the first bytes of a source are

The first byte tells what kind of token, blank or comment stands at the start of a source. Whatever
it is, its bytes read the same in every line and before everything that does not go on with them.

* `Start.of`, `scanFirst_eq`: what a byte can start, and how it is read;
* `Ending`: how the bytes of a reading end;
* `scan_munch`: every reading that finds no fault is a munch.
-/

namespace Stencil.Lua

/-! ## What a byte can start -/

/-- The other byte that a line end can have. -/
def otherNewline (b : UInt8) : UInt8 :=
  if b == 0x0A then 0x0D else 0x0A

/-- What a byte can start. -/
inductive Start where
  | newline
  | space
  | dash
  | bracket
  | dot
  | quote
  | digit
  | word
  /-- A mark of this byte. -/
  | single (m : Mark)
  /-- A mark of this byte, or of it and one more. -/
  | double (m : Mark) (longer : UInt8 → Option Mark)
  | stray

/-- What a byte starts. -/
def Start.of (b : UInt8) : Start :=
  match b with
  | 0x0D | 0x0A => .newline
  | 0x2D => .dash
  | 0x5B => .bracket
  | 0x2E => .dot
  | 0x22 | 0x27 => .quote
  | 0x3D => .double .assign fun c => if c = 0x3D then some .equal else none
  | 0x3C => .double .less fun c =>
    if c = 0x3D then some .lessEqual else if c = 0x3C then some .shiftLeft else none
  | 0x3E => .double .greater fun c =>
    if c = 0x3D then some .greaterEqual else if c = 0x3E then some .shiftRight else none
  | 0x2F => .double .slash fun c => if c = 0x2F then some .slash2 else none
  | 0x7E => .double .tilde fun c => if c = 0x3D then some .notEqual else none
  | 0x3A => .double .colon fun c => if c = 0x3A then some .colon2 else none
  | 0x2B => .single .plus
  | 0x2A => .single .star
  | 0x25 => .single .percent
  | 0x5E => .single .caret
  | 0x23 => .single .hash
  | 0x26 => .single .ampersand
  | 0x7C => .single .bar
  | 0x28 => .single .leftParen
  | 0x29 => .single .rightParen
  | 0x7B => .single .leftBrace
  | 0x7D => .single .rightBrace
  | 0x5D => .single .rightBracket
  | 0x3B => .single .semicolon
  | 0x2C => .single .comma
  | b =>
    if isSpace b then .space
    else if isDigit b then .digit
    else if isNameStart b then .word
    else .stray

/-- Reads what a byte starts. -/
def Start.scan (line : Nat) (b : UInt8) (rest : List UInt8) : Start → Scan
  | .newline =>
    match rest with
    | c :: rest' =>
      if c == otherNewline b then .blank (line + 1) rest' else .blank (line + 1) (c :: rest')
    | [] => .blank (line + 1) []
  | .space => .blank line rest
  | .dash =>
    match rest with
    | 0x2D :: rest => scanComment line rest
    | rest => .ofMark .minus line rest
  | .bracket => scanBracket line rest
  | .dot =>
    match rest with
    | 0x2E :: 0x2E :: rest => .ofMark .dot3 line rest
    | 0x2E :: rest => .ofMark .dot2 line rest
    | d :: rest =>
      if isDigit d then scanNumber line [0x2E] (d :: rest) else .ofMark .dot line (d :: rest)
    | [] => .ofMark .dot line []
  | .quote => scanQuoted b line rest
  | .digit => scanNumber line [] (b :: rest)
  | .word =>
    let word := (b :: rest.takeWhile isNameByte).toByteArray
    .token ⟨.ofWord word, line, word⟩ (rest.dropWhile isNameByte)
  | .single m => .ofMark m line rest
  | .double m longer =>
    match rest with
    | c :: rest' =>
      match longer c with
      | some m' => .ofMark m' line rest'
      | none => .ofMark m line (c :: rest')
    | [] => .ofMark m line []
  | .stray => .token ⟨.stray b, line, [b].toByteArray⟩ rest

theorem scanFirst_eq (line : Nat) (b : UInt8) (rest : List UInt8) :
    scanFirst line b rest = (Start.of b).scan line b rest := by
  unfold scanFirst
  split
  case h_42 =>
    have hdot : b ≠ 0x2E := by
      rintro rfl
      cases rest with
      | nil => simp_all
      | cons d rest => simp_all
    have hof : Start.of b = if isSpace b then .space else if isDigit b then .digit
        else if isNameStart b then .word else .stray := by
      unfold Start.of
      split
      all_goals first | contradiction | rfl
    rw [hof]
    split
    · rfl
    · split
      · rfl
      · split
        · rfl
        · rfl
  case h_23 rest _ =>
    cases rest with
    | nil => rfl
    | cons c rest => simp_all [Start.scan, Start.of]
  case h_40 d rest _ _ => simp_all [Start.scan, Start.of]
  all_goals first
    | rfl
    | cases rest with
      | nil => rfl
      | cons c rest => simp_all [Start.scan, Start.of, otherNewline]

/-! ## Any reading -/

/-- Reads what a source starts with. -/
def scanBare (line : Nat) : List UInt8 → Option (Option Word × List UInt8)
  | [] => none
  | b :: rest => (scanFirst line b rest).bare

theorem scanBare_cons (line : Nat) (b : UInt8) (rest : List UInt8) :
    scanBare line (b :: rest) = ((Start.of b).scan line b rest).bare :=
  congrArg Scan.bare (scanFirst_eq line b rest)

/-- What is known of a byte by what it starts. -/
def Start.Fits (b : UInt8) : Start → Prop
  | .newline => isNewline b = true
  | .dash => b = 0x2D
  | .digit => isDigit b = true
  | .double _ longer => isNewline b = false ∧ ∀ c, Parting c → (longer c).isSome = false
  | _ => isNewline b = false

theorem Start.of_fits (b : UInt8) : (Start.of b).Fits b := by
  have hdouble : ∀ {b : UInt8} {m : Mark} (longer : UInt8 → Option Mark), isNewline b = false →
      (longer 0x29).isSome = false → (longer 0x0A).isSome = false →
      (longer 0x0D).isSome = false → (Start.double m longer).Fits b :=
    fun longer hb hclose hfeed hreturn =>
      ⟨hb, fun _ hc => parting_false (fun c => (longer c).isSome) hclose hfeed hreturn hc⟩
  unfold Start.of
  split
  case h_28 =>
    have hb : isNewline b = false := by
      rw [isNewline, Bool.or_eq_false_iff]
      exact ⟨beq_false_of_ne ‹b = 0x0A → False›, beq_false_of_ne ‹b = 0x0D → False›⟩
    split
    · exact hb
    · split
      · assumption
      · split
        · exact hb
        · exact hb
  all_goals first
    | rfl
    | exact hdouble _ rfl rfl rfl rfl

theorem Start.of_newline {b : UInt8} (hb : isNewline b = true) : Start.of b = .newline := by
  rw [isNewline, Bool.or_eq_true] at hb
  rcases hb with hb | hb
  · rw [eq_of_beq hb]
    rfl
  · rw [eq_of_beq hb]
    rfl

/-- How the bytes of a reading end, and what goes on after them. -/
inductive Ending (x : List UInt8) (t : Option Word) (goes : UInt8 → Bool) : Prop where
  /-- Inside a line, where nothing that parts tokens goes on. -/
  | closed (c : UInt8) (last : x.getLast? = some c) (inside : isNewline c = false)
    (parting : ∀ b, Parting b → goes b = false)
  /-- As a comment does that ends with its line. -/
  | comment (y : List UInt8) (split : x = 0x2D :: 0x2D :: y) (comment : IsLineComment y)
    (blank : t = none) (goesOn : ∀ b, goes b = !isNewline b)
  /-- As a line does. -/
  | newline (some : x ≠ []) (outside : ∀ c ∈ x, isNewline c = true) (blank : t = none)
    (goesOn : ∀ b, goes b = true → isNewline b = true)

theorem Ending.ne_nil {x : List UInt8} {t : Option Word} {goes : UInt8 → Bool}
    (h : Ending x t goes) : x ≠ [] := by
  rintro rfl
  cases h with
  | closed c last => cases last
  | comment y split => cases split
  | newline some => exact some rfl

/-- A reading of some bytes after a first byte. -/
def Bite (kind : Start) (b : UInt8) (cs : List UInt8) (t : Option Word) (rest : List UInt8) :
    Prop :=
  ∃ x goes, Munch (fun line cs => (kind.scan line b cs).bare) cs t rest x goes ∧
    Ending (b :: x) t goes

section

variable {b : UInt8} {line : Nat} {cs rest : List UInt8} {t : Option Word}

theorem isNewline_otherNewline (b : UInt8) : isNewline (otherNewline b) = true := by
  rw [otherNewline]
  split <;> rfl

theorem scan_newline_lone {r : List UInt8} (hr : Stops (· == otherNewline b) r) (line : Nat) :
    (Start.newline.scan line b r).bare = some (none, r) := by
  cases r with
  | nil => rfl
  | cons c r =>
    have hc : (c == otherNewline b) = false := hr c rfl
    simp only [Start.scan, hc]
    rfl

theorem scan_newline_pair (b : UInt8) (line : Nat) (r : List UInt8) :
    (Start.newline.scan line b (otherNewline b :: r)).bare = some (none, r) := by
  simp only [Start.scan, beq_self_eq_true]
  rfl

theorem bite_newline (hb : isNewline b = true)
    (h : (Start.newline.scan line b cs).bare = some (t, rest)) : Bite .newline b cs t rest := by
  have hlone : ∀ line r, Stops (· == otherNewline b) r →
      (Start.newline.scan line b r).bare = some (none, r) :=
    fun line _ hr => scan_newline_lone hr line
  have hending : Ending [b] none (· == otherNewline b) := by
    refine .newline (List.cons_ne_nil _ _) (fun c hc => ?_) rfl fun c hc => ?_
    · rw [List.mem_singleton.mp hc]
      exact hb
    · rw [eq_of_beq hc]
      exact isNewline_otherNewline b
  by_cases hstops : Stops (· == otherNewline b) cs
  · rw [hlone line cs hstops] at h
    cases h
    exact ⟨[], _, ⟨rfl, hstops, hlone⟩, hending⟩
  · cases cs with
    | nil => exact absurd (stops_nil _) hstops
    | cons c cs =>
      have hc : c = otherNewline b := by
        by_contra hc
        exact hstops (stops_cons (p := (· == otherNewline b)) (beq_false_of_ne hc) cs)
      subst hc
      rw [scan_newline_pair] at h
      cases h
      refine ⟨[otherNewline b], fun _ => false,
        ⟨rfl, fun _ _ => rfl, fun line r _ => scan_newline_pair b line r⟩,
        .newline (List.cons_ne_nil _ _) (fun c hc => ?_) rfl nofun⟩
      rcases List.mem_cons.mp hc with rfl | hc
      · exact hb
      · rw [List.mem_singleton.mp hc]
        exact isNewline_otherNewline b

/-- A byte that is read alone, whatever follows. -/
theorem bite_alone {kind : Start} (hb : isNewline b = false)
    (hscan : ∀ line r, ((kind.scan line b r).bare) = some (t, r))
    (h : (kind.scan line b cs).bare = some (t', rest)) : Bite kind b cs t' rest := by
  rw [hscan] at h
  cases h
  exact ⟨[], fun _ => false, ⟨rfl, fun _ _ => rfl, fun line r _ => hscan line r⟩,
    .closed b rfl hb fun _ _ => rfl⟩

theorem bite_dash (h : (Start.dash.scan line 0x2D cs).bare = some (t, rest)) :
    Bite .dash 0x2D cs t rest := by
  by_cases hcomment : ∃ r, cs = 0x2D :: r
  · obtain ⟨r, rfl⟩ := hcomment
    obtain ⟨rfl, x, goes, hmunch, hend⟩ := scanComment_munch h
    refine ⟨0x2D :: x, goes, hmunch.prefixed [0x2D] fun _ _ => rfl, ?_⟩
    rcases hend with ⟨hlast, hgoes⟩ | ⟨hcomment, hgoes⟩
    · exact .closed 0x5D (by rw [List.getLast?_cons, List.getLast?_cons, hlast]; rfl) rfl
        fun b _ => hgoes b
    · exact .comment x rfl hcomment rfl hgoes
  · have hminus : ∀ line r, Stops (· == 0x2D) r →
        (Start.dash.scan line 0x2D r).bare = (Scan.ofMark .minus line r).bare := by
      intro line r hr
      simp only [Start.scan]
      split
      · exact absurd (hr 0x2D rfl) (by decide)
      · rfl
    have hstops : Stops (· == 0x2D) cs := by
      intro c hc
      refine beq_false_of_ne ?_
      rintro rfl
      cases cs with
      | nil => cases hc
      | cons c cs =>
        cases hc
        exact hcomment ⟨cs, rfl⟩
    rw [hminus line cs hstops] at h
    cases h
    exact ⟨[], _, ⟨rfl, hstops, hminus⟩,
      .closed 0x2D rfl rfl fun _ => parting_false (· == 0x2D) rfl rfl rfl⟩

theorem bite_bracket (h : (Start.bracket.scan line b cs).bare = some (t, rest))
    (hb : isNewline b = false) : Bite .bracket b cs t rest := by
  obtain ⟨x, goes, hlast, hparting, hmunch⟩ := scanBracket_munch h
  refine ⟨x, goes, hmunch, ?_⟩
  rcases hlast with rfl | hlast
  · exact .closed b rfl hb hparting
  · exact .closed 0x5D (by rw [List.getLast?_cons, hlast]; rfl) rfl hparting

theorem bite_quote (h : (Start.quote.scan line b cs).bare = some (t, rest))
    (hb : isNewline b = false) : Bite .quote b cs t rest := by
  obtain ⟨x, hlast, hmunch⟩ := scanQuoted_munch h
  exact ⟨x, _, hmunch, .closed b (by rw [List.getLast?_cons, hlast]; rfl) hb fun _ _ => rfl⟩

theorem bare_word (word : Bytes) (line : Nat) (rest : List UInt8) :
    (Scan.token ⟨.ofWord word, line, word⟩ rest).bare = some (some (.ofWord word, word), rest) := by
  rw [Token.ofWord]
  split <;> rfl

theorem bite_word (h : (Start.word.scan line b cs).bare = some (t, rest))
    (hb : isNewline b = false) : Bite .word b cs t rest := by
  have hscan : ∀ line cs, (Start.word.scan line b cs).bare =
      some (some (.ofWord (b :: cs.takeWhile isNameByte).toByteArray,
        (b :: cs.takeWhile isNameByte).toByteArray), cs.dropWhile isNameByte) :=
    fun _ _ => bare_word _ _ _
  rw [hscan] at h
  cases h
  have hname : ∀ c ∈ cs.takeWhile isNameByte, isNameByte c = true :=
    List.all_eq_true.mp List.all_takeWhile
  refine ⟨cs.takeWhile isNameByte, isNameByte,
    ⟨?_, stops_dropWhile isNameByte cs, fun line r hr => ?_⟩, ?_⟩
  · exact List.takeWhile_append_dropWhile.symm
  · rw [hscan, takeWhile_run hname hr, dropWhile_run hname hr]
  · refine .closed _ (List.getLast?_eq_some_getLast (List.cons_ne_nil _ _)) ?_
      fun _ => parting_false isNameByte rfl rfl rfl
    rcases List.mem_cons.mp (List.getLast_mem (List.cons_ne_nil b (cs.takeWhile isNameByte)))
      with hlast | hlast
    · rw [hlast]
      exact hb
    · exact isNewline_eq_false isNameByte rfl rfl (hname _ hlast)

theorem bite_double {m : Mark} {longer : UInt8 → Option Mark} (hb : isNewline b = false)
    (hparting : ∀ c, Parting c → (longer c).isSome = false)
    (h : ((Start.double m longer).scan line b cs).bare = some (t, rest)) :
    Bite (.double m longer) b cs t rest := by
  have hshort : ∀ line r, Stops (fun c => (longer c).isSome) r →
      ((Start.double m longer).scan line b r).bare = (Scan.ofMark m line r).bare := by
    intro line r hr
    cases r with
    | nil => rfl
    | cons c r =>
      have hc : longer c = none :=
        Option.isNone_iff_eq_none.mp (Option.isSome_eq_false_iff.mp (hr c rfl))
      simp only [Start.scan, hc]
  have hlong : ∀ c m', longer c = some m' → ∀ line r,
      ((Start.double m longer).scan line b (c :: r)).bare = (Scan.ofMark m' line r).bare := by
    intro c m' hc line r
    simp only [Start.scan, hc]
  by_cases hstops : Stops (fun c => (longer c).isSome) cs
  · rw [hshort line cs hstops] at h
    cases h
    exact ⟨[], _, ⟨rfl, hstops, hshort⟩, .closed b rfl hb hparting⟩
  · cases cs with
    | nil => exact absurd (stops_nil _) hstops
    | cons c cs =>
      cases hc : longer c with
      | none => exact absurd (stops_cons (by rw [hc]; rfl) cs) hstops
      | some m' =>
        rw [hlong c m' hc] at h
        cases h
        refine ⟨[c], fun _ => false, ⟨rfl, fun _ _ => rfl, fun line r _ => hlong c m' hc line r⟩,
          .closed c rfl ?_ fun _ _ => rfl⟩
        refine Bool.eq_false_iff.mpr fun hnewline => ?_
        have hnone := hparting c (.inr hnewline)
        rw [hc] at hnone
        cases hnone

/-- A number, after the bytes that were read of it. -/
theorem bite_number {kind : Start} {before : List UInt8} {d : UInt8} (hd : isDigit d = true)
    (hscan : ∀ line r, kind.scan line b (d :: r) = scanNumber line before (d :: r))
    (h : (kind.scan line b (d :: cs)).bare = some (t, rest)) :
    Bite kind b (d :: cs) t rest := by
  rw [hscan] at h
  obtain ⟨x, goes, ⟨c, hlast, hc⟩, hparting, hmunch⟩ := scanNumber_munch hd h
  refine ⟨x, goes, ⟨hmunch.split, hmunch.stops, fun line r hr => ?_⟩,
    .closed c (by rw [List.getLast?_cons, hlast]; rfl) hc hparting⟩
  cases x with
  | nil => cases hlast
  | cons d' x =>
    have hsame : d = d' := (List.cons.inj hmunch.split).1
    subst hsame
    have hagain := hmunch.again line r hr
    rw [List.cons_append] at hagain ⊢
    simp only [hscan]
    exact hagain

theorem scan_dot_cons {c : UInt8} (hc : c ≠ 0x2E) (line : Nat) (r : List UInt8) :
    Start.dot.scan line b (c :: r) =
      if isDigit c then scanNumber line [0x2E] (c :: r) else .ofMark .dot line (c :: r) := by
  simp only [Start.scan]
  split <;> simp_all

theorem scan_dot_pair {r : List UInt8} (hr : Stops (· == 0x2E) r) (line : Nat) :
    Start.dot.scan line b (0x2E :: r) = .ofMark .dot2 line r := by
  cases r with
  | nil => rfl
  | cons c r =>
    have hc : c ≠ 0x2E := ne_of_beq_false (hr c rfl)
    simp only [Start.scan]
    split <;> simp_all

theorem bite_dot (h : (Start.dot.scan line b cs).bare = some (t, rest))
    (hb : isNewline b = false) : Bite .dot b cs t rest := by
  have hlone : ∀ line r, Stops (fun c => c == 0x2E || isDigit c) r →
      (Start.dot.scan line b r).bare = (Scan.ofMark .dot line r).bare := by
    intro line r hr
    cases r with
    | nil => rfl
    | cons c r =>
      obtain ⟨hdot, hdigit⟩ := Bool.or_eq_false_iff.mp (hr c rfl)
      rw [scan_dot_cons (ne_of_beq_false hdot), if_neg (Bool.eq_false_iff.mp hdigit)]
  by_cases hstops : Stops (fun c => c == 0x2E || isDigit c) cs
  · rw [hlone line cs hstops] at h
    cases h
    exact ⟨[], _, ⟨rfl, hstops, hlone⟩, .closed b rfl hb fun _ =>
      parting_false (fun c => c == 0x2E || isDigit c) rfl rfl rfl⟩
  · cases cs with
    | nil => exact absurd (stops_nil _) hstops
    | cons c cs =>
      by_cases hc : c = 0x2E
      · subst hc
        by_cases hthird : Stops (· == 0x2E) cs
        · have hpair : ∀ line r, Stops (· == 0x2E) r →
              (Start.dot.scan line b (0x2E :: r)).bare = (Scan.ofMark .dot2 line r).bare :=
            fun line r hr => congrArg Scan.bare (scan_dot_pair hr line)
          rw [hpair line cs hthird] at h
          cases h
          exact ⟨[0x2E], _, ⟨rfl, hthird, hpair⟩, .closed 0x2E rfl rfl fun _ =>
            parting_false (· == 0x2E) rfl rfl rfl⟩
        · cases cs with
          | nil => exact absurd (stops_nil _) hthird
          | cons c cs =>
            have hc : c = 0x2E := by
              by_contra hc
              exact hthird (stops_cons (p := (· == 0x2E)) (beq_false_of_ne hc) cs)
            subst hc
            cases h
            exact ⟨[0x2E, 0x2E], fun _ => false, ⟨rfl, fun _ _ => rfl, fun _ _ _ => rfl⟩,
              .closed 0x2E rfl rfl fun _ _ => rfl⟩
      · have hdigit : isDigit c = true := by
          by_contra hdigit
          refine hstops (stops_cons ?_ cs)
          rw [beq_false_of_ne hc, Bool.eq_false_iff.mpr hdigit]
          rfl
        exact bite_number hdigit (fun line r => (scan_dot_cons hc line r).trans (if_pos hdigit)) h

/-- A number that its first digit starts. -/
theorem scanBare_digit (hd : isDigit b = true) (hkind : Start.of b = .digit)
    (h : (Start.digit.scan line b cs).bare = some (t, rest)) :
    ∃ x goes, Munch scanBare (b :: cs) t rest x goes ∧ Ending x t goes := by
  obtain ⟨x, goes, ⟨c, hlast, hc⟩, hparting, hmunch⟩ := scanNumber_munch hd h
  refine ⟨x, goes, ⟨hmunch.split, hmunch.stops, fun line r hr => ?_⟩, .closed c hlast hc hparting⟩
  cases x with
  | nil => cases hlast
  | cons b' x =>
    have hsame : b = b' := (List.cons.inj hmunch.split).1
    subst hsame
    have hagain := hmunch.again line r hr
    rw [List.cons_append] at hagain ⊢
    rw [scanBare_cons, hkind]
    exact hagain

/-- Anything but a number is read from what follows its first byte. -/
theorem bite_of_fits {kind : Start} (hfits : kind.Fits b) (hkind : kind ≠ .digit)
    (h : (kind.scan line b cs).bare = some (t, rest)) : Bite kind b cs t rest := by
  cases kind with
  | newline => exact bite_newline hfits h
  | space => exact bite_alone hfits (fun _ _ => rfl) h
  | dash =>
    cases hfits
    exact bite_dash h
  | bracket => exact bite_bracket h hfits
  | dot => exact bite_dot h hfits
  | quote => exact bite_quote h hfits
  | digit => exact absurd rfl hkind
  | word => exact bite_word h hfits
  | single m => exact bite_alone hfits (fun line r => bare_ofMark m line r) h
  | double m longer => exact bite_double hfits.1 hfits.2 h
  | stray =>
    have hstray : ∀ line r, (Start.stray.scan line b r).bare =
        some (some (.stray b, [b].toByteArray), r) := fun _ _ => rfl
    exact bite_alone hfits hstray h

/-- Every reading that finds no fault is a munch, and ends in one of three ways. -/
theorem scan_munch (h : scanBare line cs = some (t, rest)) :
    ∃ x goes, Munch scanBare cs t rest x goes ∧ Ending x t goes := by
  cases cs with
  | nil => cases h
  | cons b cs =>
    rw [scanBare_cons] at h
    have hfits := Start.of_fits b
    by_cases hkind : Start.of b = .digit
    · rw [hkind] at h hfits
      exact scanBare_digit hfits hkind h
    · -- What is read after the first byte is read after it in a source.
      obtain ⟨x, goes, hmunch, hending⟩ := bite_of_fits hfits hkind h
      exact ⟨b :: x, goes, hmunch.prefixed [b] fun line r => scanBare_cons line b r, hending⟩

end

end Stencil.Lua
