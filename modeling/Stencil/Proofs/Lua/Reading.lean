import Stencil.Proofs.Lua.Munch
import Stencil.Proofs.Lua.Quote

/-!
# Reading sources that are put together

A source is read from its front to its end, one token, blank or comment after the other. Two
sources that can each be read to their ends are read one after the other when they are put
together, if nothing at the start of the second goes on with the end of the first.

* `Reads`, `Lexes`: readings one after the other, up to some bytes and up to the end;
* `Complete.lexes`, `Lexes.complete`: a source is read to its end if and only if its last token is
  its end;
* `Lexes.last`: the last reading of a source, which alone can be changed by what follows;
* `Lexes.append_newline`, `Lexes.append_ended`, `Lexes.follow`: two sources put together;
* `Lexes.apart_close`, `Lexes.swallow`: a source before a closing parenthesis.
-/

namespace Stencil.Lua

open Text (utf8)

variable {c k cs left : List UInt8} {ts us : List Word} {t : Option Word} {b : UInt8} {line : Nat}

/-! ## Readings one after the other -/

/-- Where a line is does not matter. -/
theorem scanBare_line (h : scanBare line cs = some (t, left)) (line' : Nat) :
    scanBare line' cs = some (t, left) := by
  obtain ⟨x, goes, hmunch, -⟩ := scan_munch h
  rw [hmunch.split]
  exact hmunch.again line' left hmunch.stops

/-- Every reading takes something. -/
theorem length_of_scanBare (h : scanBare line cs = some (t, left)) : left.length < cs.length := by
  obtain ⟨x, goes, hmunch, hending⟩ := scan_munch h
  rw [hmunch.split, List.length_append]
  have hx := List.length_pos_iff.mpr hending.ne_nil
  omega

/-- Some bytes are read one token, blank or comment after the other; the tokens that they give,
and the bytes that are left. -/
inductive Reads : List UInt8 → List Word → List UInt8 → Prop where
  | done (cs : List UInt8) : Reads cs [] cs
  | step {cs rest left : List UInt8} {t : Option Word} {ts : List Word}
    (first : scanBare 1 cs = some (t, rest)) (others : Reads rest ts left) :
    Reads cs (t.toList ++ ts) left

theorem Reads.blank {rest : List UInt8} (first : scanBare 1 cs = some (none, rest))
    (others : Reads rest ts left) : Reads cs ts left :=
  .step first others

theorem Reads.token {rest : List UInt8} {w : Word} (first : scanBare 1 cs = some (some w, rest))
    (others : Reads rest ts left) : Reads cs (w :: ts) left :=
  .step first others

/-- A source is read to its end, and gives these tokens. -/
def Lexes (cs : List UInt8) (ts : List Word) : Prop :=
  Reads cs ts []

theorem Reads.trans {rest : List UInt8} (h : Reads cs ts rest) (h' : Reads rest us left) :
    Reads cs (ts ++ us) left := by
  induction h with
  | done => exact h'
  | step first _ ih =>
    rw [List.append_assoc]
    exact .step first (ih h')

/-- What is left of a source stands at its end. -/
theorem Reads.split (h : Reads cs ts left) : ∃ x, cs = x ++ left := by
  induction h with
  | done => exact ⟨[], rfl⟩
  | step first _ ih =>
    obtain ⟨x, goes, hmunch, -⟩ := scan_munch first
    obtain ⟨y, rfl⟩ := ih
    exact ⟨x ++ y, by rw [hmunch.split, List.append_assoc]⟩

theorem lexes_nil (h : Lexes [] ts) : ts = [] := by
  cases h with
  | done => rfl
  | step first => cases first

theorem Lexes.cons (h : Lexes (b :: cs) ts) : ∃ t rest us,
    (∀ line, scanBare line (b :: cs) = some (t, rest)) ∧ ts = t.toList ++ us ∧ Lexes rest us := by
  cases h with
  | step first others => exact ⟨_, _, _, scanBare_line first, rfl, others⟩

/-- A source gives its tokens in one way only. -/
theorem Lexes.unique (h : Lexes cs ts) (h' : Lexes cs us) : ts = us := by
  unfold Lexes at h
  generalize hleft : ([] : List UInt8) = left at h
  induction h generalizing us with
  | done =>
    subst hleft
    exact (lexes_nil h').symm
  | step first _ ih =>
    cases h' with
    | done => cases first
    | step first' others =>
      have hsame := first.symm.trans first'
      cases hsame
      rw [ih others hleft]

/-! ## Tokens -/

/-- A token and its spelling, without its line. -/
def Lexeme.word (l : Lexeme) : Word :=
  (l.token, l.spelling)

/-- The last word of a source that is read to its end. -/
def endOfSource : Word :=
  (.eof, ByteArray.empty)

/-- What the tokens of a source are, by what is read first. -/
theorem tokensFrom_blank {rest : List UInt8} (fuel : Nat)
    (h : scanBare line (b :: cs) = some (none, rest)) :
    ∃ line', tokensFrom (fuel + 1) line (b :: cs) = tokensFrom fuel line' rest := by
  rw [scanBare] at h
  rw [tokensFrom]
  cases hscan : scanFirst line b cs with
  | blank line' rest' =>
    rw [hscan] at h
    cases h
    exact ⟨line', rfl⟩
  | token l rest' =>
    rw [hscan] at h
    simp only [Scan.bare] at h
    split at h
    · cases h
    · cases h

theorem tokensFrom_token {w : Word} {rest : List UInt8} (fuel : Nat)
    (h : scanBare line (b :: cs) = some (some w, rest)) :
    ∃ l, l.word = w ∧
      tokensFrom (fuel + 1) line (b :: cs) = l :: tokensFrom fuel l.line rest := by
  rw [scanBare] at h
  rw [tokensFrom]
  cases hscan : scanFirst line b cs with
  | blank line' rest' => rw [hscan] at h; cases h
  | token l rest' =>
    rw [hscan] at h
    simp only [Scan.bare] at h
    split at h
    · cases h
    · rename_i hne
      cases h
      exact ⟨l, rfl, by simp only⟩

theorem tokensFrom_fault (fuel : Nat) (h : scanBare line (b :: cs) = none) :
    ∃ l e, l.token = .fault e ∧ tokensFrom (fuel + 1) line (b :: cs) = [l] := by
  rw [scanBare] at h
  rw [tokensFrom]
  cases hscan : scanFirst line b cs with
  | blank line' rest' => rw [hscan] at h; cases h
  | token l rest' =>
    rw [hscan] at h
    simp only [Scan.bare] at h
    split at h
    · rename_i e heq
      exact ⟨l, e, heq, by simp only [heq]⟩
    · cases h

theorem tokensFrom_ne_nil (fuel line : Nat) (cs : List UInt8) : tokensFrom fuel line cs ≠ [] := by
  induction fuel generalizing line cs with
  | zero => exact List.cons_ne_nil _ _
  | succ fuel ih =>
    cases cs with
    | nil => exact List.cons_ne_nil _ _
    | cons b cs =>
      rw [tokensFrom]
      split
      · exact ih _ _
      · split
        · exact List.cons_ne_nil _ _
        · exact List.cons_ne_nil _ _

/-- The tokens of a source that is read to its end. -/
theorem Lexes.tokensFrom (h : Lexes cs ts) {fuel : Nat} (hfuel : cs.length < fuel) (line : Nat) :
    (tokensFrom fuel line cs).map Lexeme.word = ts ++ [endOfSource] := by
  induction fuel generalizing cs ts line with
  | zero => exact absurd hfuel (Nat.not_lt_zero _)
  | succ fuel ih =>
    cases cs with
    | nil =>
      rw [lexes_nil h]
      rfl
    | cons b cs =>
      obtain ⟨t, rest, us, hfirst, rfl, hothers⟩ := h.cons
      have hshort := length_of_scanBare (hfirst line)
      cases t with
      | none =>
        obtain ⟨line', htokens⟩ := tokensFrom_blank fuel (hfirst line)
        rw [htokens]
        exact ih hothers (by omega) line'
      | some w =>
        obtain ⟨l, rfl, htokens⟩ := tokensFrom_token fuel (hfirst line)
        rw [htokens, List.map_cons, ih hothers (by omega) l.line]
        rfl

/-- A source whose last token is its end is read to its end. -/
theorem lexes_of_tokensFrom {fuel : Nat} (hfuel : cs.length < fuel)
    (h : ((tokensFrom fuel line cs).map Lexeme.word).getLast? = some endOfSource) :
    ∃ ts, Lexes cs ts := by
  induction fuel generalizing cs line with
  | zero => exact absurd hfuel (Nat.not_lt_zero _)
  | succ fuel ih =>
    cases cs with
    | nil => exact ⟨[], .done []⟩
    | cons b cs =>
      cases hfirst : scanBare line (b :: cs) with
      | none =>
        obtain ⟨l, e, hfault, htokens⟩ := tokensFrom_fault fuel hfirst
        rw [htokens] at h
        have htoken : l.token = .eof := congrArg Prod.fst (Option.some.inj h)
        rw [hfault] at htoken
        cases htoken
      | some found =>
        obtain ⟨t, rest⟩ := found
        have hshort := length_of_scanBare hfirst
        have hothers : ∃ ts, Lexes rest ts := by
          cases t with
          | none =>
            obtain ⟨line', htokens⟩ := tokensFrom_blank fuel hfirst
            rw [htokens] at h
            exact ih (by omega) h
          | some w =>
            obtain ⟨l, -, htokens⟩ := tokensFrom_token fuel hfirst
            have hne : (Lua.tokensFrom fuel l.line rest).map Lexeme.word ≠ [] :=
              fun e => tokensFrom_ne_nil _ _ _ (List.map_eq_nil_iff.mp e)
            rw [htokens, List.map_cons, List.getLast?_cons_of_ne_nil hne] at h
            exact ih (by omega) h
        obtain ⟨ts, hothers⟩ := hothers
        exact ⟨_, .step (scanBare_line hfirst 1) hothers⟩

/-- The tokens of a source, without its end. -/
def spelled (source : String) : List Word :=
  ((tokens (bytesOf source).data.toList).map Lexeme.word).dropLast

/-- A source that is a complete sequence of tokens: the last one is its end, and not a fault. -/
def Complete (source : String) : Prop :=
  ((tokens (bytesOf source).data.toList).map Lexeme.word).getLast? = some endOfSource

theorem Complete.lexes {source : String} (h : Complete source) :
    Lexes (utf8 source.toList) (spelled source) := by
  rw [← toList_bytesOf]
  obtain ⟨ts, hts⟩ := lexes_of_tokensFrom (Nat.lt_succ_self _) h
  have htokens := hts.tokensFrom (Nat.lt_succ_self _) 1
  have hspelled : spelled source = ts := by
    rw [spelled, tokens, htokens, List.dropLast_concat]
  rw [hspelled]
  exact hts

theorem Lexes.complete {source : String} (h : Lexes (utf8 source.toList) ts) :
    Complete source ∧ spelled source = ts := by
  rw [← toList_bytesOf] at h
  have htokens := h.tokensFrom (Nat.lt_succ_self _) 1
  rw [Complete, spelled, tokens, htokens, List.getLast?_concat, List.dropLast_concat]
  exact ⟨rfl, rfl⟩

/-! ## What follows a source -/

theorem Stops.of_append {p : UInt8 → Bool} (h : Stops p (c ++ k)) : Stops p c := by
  intro b hb
  refine h b ?_
  rw [List.head?_append, Option.mem_def.mp hb]
  rfl

theorem Stops.append {p : UInt8 → Bool} (h : Stops p c) (hne : c ≠ []) (k : List UInt8) :
    Stops p (c ++ k) := by
  intro b hb
  cases c with
  | nil => exact absurd rfl hne
  | cons d c => exact h b hb

/-- What follows the bytes that are left does not matter. -/
theorem Reads.extend (h : Reads cs ts left) (hne : left ≠ []) (k : List UInt8) :
    Reads (cs ++ k) ts (left ++ k) := by
  induction h with
  | done => exact .done _
  | @step cs rest left t ts first others ih =>
    obtain ⟨x, goes, hmunch, -⟩ := scan_munch first
    obtain ⟨y, hy⟩ := others.split
    have hrest : rest ≠ [] := by
      rw [hy]
      exact List.append_ne_nil_of_right_ne_nil _ hne
    refine .step ?_ (ih hne)
    rw [hmunch.split, List.append_assoc]
    exact hmunch.again 1 _ (hmunch.stops.append hrest k)

/-- Without the bytes that are left, a source is read to its end. -/
theorem Reads.shrink (h : Reads (c ++ k) ts k) : Lexes c ts := by
  generalize hcs : c ++ k = cs at h
  induction h generalizing c with
  | done =>
    rw [List.append_left_eq_self.mp hcs]
    exact .done []
  | @step cs rest left t ts first others ih =>
    obtain ⟨x, goes, hmunch, -⟩ := scan_munch first
    obtain ⟨y, rfl⟩ := others.split
    have hc : c = x ++ y := by
      rw [hmunch.split, ← List.append_assoc] at hcs
      exact List.append_cancel_right hcs
    rw [hc]
    exact .step (hmunch.again 1 y hmunch.stops.of_append) (ih rfl)

/-- The last reading of a source, and the readings before it, which do not depend on what follows
the source. -/
structure LastReading (c : List UInt8) (ts : List Word) (y : List UInt8) (us : List Word)
    (x : List UInt8) (t : Option Word) (goes : UInt8 → Bool) : Prop where
  split : c = y ++ x
  words : ts = us ++ t.toList
  before (k : List UInt8) : Reads (y ++ (x ++ k)) us (x ++ k)
  again (k : List UInt8) : Stops goes k → scanBare 1 (x ++ k) = some (t, k)
  ending : Ending x t goes

theorem Lexes.last (h : Lexes c ts) :
    c = [] ∧ ts = [] ∨ ∃ y us x t goes, LastReading c ts y us x t goes := by
  unfold Lexes at h
  generalize hleft : ([] : List UInt8) = left at h
  induction h with
  | done =>
    subst hleft
    exact .inl ⟨rfl, rfl⟩
  | @step cs rest left t ts first others ih =>
    obtain ⟨x, goes, hmunch, hending⟩ := scan_munch first
    refine .inr ?_
    have hothers := ih hleft
    subst hleft
    rcases hothers with ⟨hrest, rfl⟩ | ⟨y, us, x', t', goes', hlast⟩
    · refine ⟨[], [], x, t, goes, ?_, List.append_nil _, fun k => .done _, hmunch.again 1, hending⟩
      rw [hmunch.split, hrest]
      exact List.append_nil x
    · refine ⟨x ++ y, t.toList ++ us, x', t', goes', ?_, ?_, fun k => ?_, hlast.again,
        hlast.ending⟩
      · rw [hmunch.split, hlast.split, List.append_assoc]
      · rw [hlast.words, List.append_assoc]
      · have hrest : rest ≠ [] := by
          rw [hlast.split]
          exact List.append_ne_nil_of_right_ne_nil _ hlast.ending.ne_nil
        have hstops := hmunch.stops.append hrest k
        rw [hlast.split, List.append_assoc] at hstops
        rw [List.append_assoc]
        exact .step (hmunch.again 1 _ hstops) (hlast.before k)

/-- What does not go on with a source is left. -/
theorem LastReading.follow {y x : List UInt8} {goes : UInt8 → Bool}
    (h : LastReading c ts y us x t goes) (hk : Stops goes k) : Reads (c ++ k) ts k := by
  have hlast : Reads (x ++ k) t.toList k := by
    have hstep := Reads.step (h.again k hk) (.done k)
    rwa [List.append_nil] at hstep
  rw [h.split, h.words, List.append_assoc]
  exact (h.before k).trans hlast

/-! ## Ends of lines -/

theorem scanBare_newline_lone (hb : isNewline b = true) (hk : Stops (· == otherNewline b) k)
    (line : Nat) : scanBare line (b :: k) = some (none, k) := by
  rw [scanBare_cons, Start.of_newline hb]
  exact scan_newline_lone hk line

theorem scanBare_newline_pair (hb : isNewline b = true) (line : Nat) (k : List UInt8) :
    scanBare line (b :: otherNewline b :: k) = some (none, k) := by
  rw [scanBare_cons, Start.of_newline hb]
  exact scan_newline_pair b line k

theorem stops_or_pair (b : UInt8) (k : List UInt8) :
    Stops (· == otherNewline b) k ∨ ∃ r, k = otherNewline b :: r := by
  cases k with
  | nil => exact .inl (stops_nil _)
  | cons c r =>
    by_cases hc : c = otherNewline b
    · exact .inr ⟨r, by rw [hc]⟩
    · exact .inl (stops_cons (p := (· == otherNewline b)) (beq_false_of_ne hc) r)

/-- A line end before a source does not matter to it, also if it is read together with the one
that the source starts with. -/
theorem Lexes.newline (h : Lexes k ts) (hb : isNewline b = true) : Lexes (b :: k) ts := by
  induction hn : k.length using Nat.strongRecOn generalizing b k with
  | ind n ih =>
    subst hn
    rcases stops_or_pair b k with hstops | ⟨r, rfl⟩
    · exact .step (scanBare_newline_lone hb hstops 1) h
    · refine .step (scanBare_newline_pair hb 1 r) ?_
      -- What the second line end stood before is a source as well.
      obtain ⟨t, rest, us, hfirst, rfl, hothers⟩ := h.cons
      have hother := isNewline_otherNewline b
      rcases stops_or_pair (otherNewline b) r with hstops | ⟨r, rfl⟩
      · have hsame := (hfirst 1).symm.trans (scanBare_newline_lone hother hstops 1)
        cases hsame
        exact hothers
      · have hsame := (hfirst 1).symm.trans (scanBare_newline_pair hother 1 r)
        cases hsame
        refine ih _ ?_ hothers (isNewline_otherNewline _) rfl
        rw [List.length_cons, List.length_cons]
        omega

theorem Lexes.newlines {x : List UInt8} (h : Lexes k ts) (hx : ∀ b ∈ x, isNewline b = true) :
    Lexes (x ++ k) ts := by
  induction x with
  | nil => exact h
  | cons b x ih =>
    exact (ih fun c hc => hx c (List.mem_cons_of_mem _ hc)).newline (hx b List.mem_cons_self)

theorem LastReading.append_newlines {y x : List UInt8} {ws : List Word} {goes : UInt8 → Bool}
    (h : LastReading c ts y ws x t goes) (hx : ∀ b ∈ x, isNewline b = true) (ht : t = none)
    (hk : Lexes k us) : Lexes (c ++ k) (ts ++ us) := by
  have hts : ts = ws := by
    rw [h.words, ht]
    exact List.append_nil ws
  rw [h.split, hts, List.append_assoc]
  exact (h.before k).trans (hk.newlines hx)

/-- A source that starts with the end of a line, after any other. -/
theorem Lexes.append_newline (h : Lexes c ts) (hb : isNewline b = true) (hk : Lexes (b :: k) us) :
    Lexes (c ++ b :: k) (ts ++ us) := by
  rcases h.last with ⟨rfl, rfl⟩ | ⟨y, ws, x, t, goes, hlast⟩
  · exact hk
  · cases hlast.ending with
    | closed d last inside parting =>
      exact (hlast.follow (stops_cons (parting b (.inr hb)) k)).trans hk
    | comment z split comment blank goesOn =>
      refine (hlast.follow (stops_cons ?_ k)).trans hk
      rw [goesOn, hb]
      rfl
    | newline some outside blank =>
      exact hlast.append_newlines outside blank hk

/-- A source that ends with a line, before any other. -/
theorem Lexes.append_ended (h : Lexes c ts) (hc : ∀ b ∈ c.getLast?, isNewline b = true)
    (hk : Lexes k us) : Lexes (c ++ k) (ts ++ us) := by
  rcases h.last with ⟨rfl, rfl⟩ | ⟨y, ws, x, t, goes, hlast⟩
  · exact hk
  · have hx : ∀ b ∈ x.getLast?, isNewline b = true := by
      intro b hb
      refine hc b ?_
      rw [hlast.split, List.getLast?_append, Option.mem_def.mp hb]
      rfl
    cases hlast.ending with
    | closed d last inside =>
      rw [hx d last] at inside
      cases inside
    | comment z split comment =>
      have hline : ∀ b ∈ x, isNewline b = false := by
        intro b hb
        rw [split] at hb
        rcases List.mem_cons.mp hb with rfl | hb
        · rfl
        · rcases List.mem_cons.mp hb with rfl | hb
          · rfl
          · exact comment.line b hb
      have hne := hlast.ending.ne_nil
      have hinside := hline _ (List.getLast_mem hne)
      rw [hx _ (List.getLast?_eq_some_getLast hne)] at hinside
      cases hinside
    | newline some outside blank => exact hlast.append_newlines outside blank hk

/-! ## Apart from what follows -/

/-- A byte that stands after a source and is not read together with its end. -/
def Apart (c : List UInt8) (b : UInt8) : Prop :=
  ∃ ts, Reads (c ++ [b]) ts [b]

theorem Lexes.follow (h : Lexes c ts) (hb : Apart c b) (k : List UInt8) :
    Reads (c ++ b :: k) ts (b :: k) := by
  obtain ⟨us, hus⟩ := hb
  rw [h.unique hus.shrink]
  have hextend := hus.extend (List.cons_ne_nil _ _) k
  rwa [List.append_assoc] at hextend

/-- Whether some bytes are what is left after readings of a source. -/
def leaves (left : List UInt8) : Nat → List UInt8 → Bool
  | 0, cs => cs == left
  | fuel + 1, cs =>
    cs == left ||
      match scanBare 1 cs with
      | some (_, rest) => leaves left fuel rest
      | none => false

theorem leaves_iff (left : List UInt8) {fuel : Nat} (hfuel : cs.length ≤ fuel) :
    leaves left fuel cs = true ↔ ∃ ts, Reads cs ts left := by
  induction fuel generalizing cs with
  | zero =>
    have hcs : cs = [] := List.eq_nil_of_length_eq_zero (Nat.le_zero.mp hfuel)
    subst hcs
    rw [leaves, beq_iff_eq]
    refine ⟨fun h => ⟨[], h ▸ .done []⟩, fun ⟨ts, h⟩ => ?_⟩
    cases h with
    | done => rfl
    | step first => cases first
  | succ fuel ih =>
    rw [leaves, Bool.or_eq_true, beq_iff_eq]
    constructor
    · rintro (rfl | h)
      · exact ⟨[], .done cs⟩
      · split at h
        · rename_i t rest first
          have hshort := length_of_scanBare first
          obtain ⟨ts, others⟩ := (ih (by omega)).mp h
          exact ⟨_, .step first others⟩
        · cases h
    · rintro ⟨ts, h⟩
      cases h with
      | done => exact .inl rfl
      | step first others =>
        have hshort := length_of_scanBare first
        refine .inr ?_
        rw [first]
        exact (ih (by omega)).mpr ⟨_, others⟩

instance (c : List UInt8) (b : UInt8) : Decidable (Apart c b) :=
  decidable_of_iff _ (leaves_iff [b] (Nat.le_refl (c ++ [b]).length))

/-- A source that ends in a comment without the end of its line. -/
def EndsInLineComment (c : List UInt8) : Prop :=
  ∃ ts y, Reads c ts (0x2D :: 0x2D :: y) ∧ IsLineComment y

theorem EndsInLineComment.infix (h : EndsInLineComment c) : [0x2D, 0x2D] <:+: c := by
  obtain ⟨ts, y, hreads, -⟩ := h
  obtain ⟨x, rfl⟩ := hreads.split
  exact ⟨x, y, by rw [List.append_assoc]; rfl⟩

/-- A closing parenthesis is apart from every source that does not end in a comment. -/
theorem Lexes.apart_close (h : Lexes c ts) (hc : ¬ EndsInLineComment c) : Apart c 0x29 := by
  rcases h.last with ⟨rfl, rfl⟩ | ⟨y, ws, x, t, goes, hlast⟩
  · exact ⟨[], .done _⟩
  · refine ⟨ts, hlast.follow (stops_cons ?_ [])⟩
    cases hlast.ending with
    | closed d last inside parting => exact parting 0x29 (.inl rfl)
    | comment z split comment =>
      refine absurd ⟨ws, z, ?_, comment⟩ hc
      have hbefore := hlast.before []
      rwa [List.append_nil, ← hlast.split, split] at hbefore
    | newline some outside blank goesOn =>
      exact Bool.eq_false_iff.mpr fun hgoes => absurd (goesOn 0x29 hgoes) (by decide)

/-- A comment takes in the closing parenthesis after it. -/
theorem Lexes.swallow (h : Lexes c ts) (hc : EndsInLineComment c) : Lexes (c ++ [0x29]) ts := by
  obtain ⟨us, y, hreads, hcomment⟩ := hc
  -- Everything after the dashes is read with them, with and without a parenthesis.
  have hblank : ∀ r, (∀ b ∈ r, Parting b ∧ isNewline b = false) →
      scanBare 1 (0x2D :: 0x2D :: (y ++ r)) = some (none, []) := by
    intro r hr
    have hdrop : (y ++ r).dropWhile (fun b => !isNewline b) = [] := by
      rw [← List.append_nil (y ++ r)]
      refine dropWhile_run (fun b hb => ?_) (stops_nil _)
      rcases List.mem_append.mp hb with hb | hb
      · rw [hcomment.line b hb]
        rfl
      · rw [(hr b hb).2]
        rfl
    show (scanComment 1 (y ++ r)).bare = _
    rw [scanComment_short (hcomment.append fun b hb => (hr b (List.mem_of_mem_head? hb)).1), hdrop]
    rfl
  have hlone := hblank [] nofun
  rw [List.append_nil] at hlone
  have hsame := h.unique (hreads.trans (.blank hlone (.done [])))
  rw [List.append_nil] at hsame
  rw [hsame]
  have hparen := hblank [0x29] fun b hb => by
    rw [List.mem_singleton.mp hb]
    exact ⟨.inl rfl, rfl⟩
  have hextend := hreads.extend (List.cons_ne_nil _ _) [0x29]
  have hall := hextend.trans (.blank hparen (.done []))
  rwa [List.append_nil] at hall

end Stencil.Lua
