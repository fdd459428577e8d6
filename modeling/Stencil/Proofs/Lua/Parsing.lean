import Stencil.Lua.Parser.Grammar

/-!
# Parsing calls of the host

The statements of generated code that binds the host and writes quoted texts, read from their
tokens.

* `hostCall`: the tokens of a call of a field of the host table with one string;
* `suffixed_hostCall`: such a call is read as one expression, up to the token after it;
* `statements_writes`: a run of such calls is read as one statement each, in order;
* `parseTokens_binding`: the tokens of a chunk that binds the host first, and then goes on.
-/

namespace Stencil.Lua

/-! ## Tokens -/

/-- A name on a line. -/
def nameAt (line : Nat) (s : String) : Lexeme :=
  ⟨.name (bytesOf s), line, bytesOf s⟩

/-- A mark on a line. -/
def markAt (line : Nat) (m : Mark) : Lexeme :=
  ⟨.mark m, line, bytesOf m.spelling⟩

theorem markAt_token (line : Nat) (m : Mark) : (markAt line m).token = .mark m :=
  rfl

/-- A string between double quotes on a line. -/
def stringAt (line : Nat) (value : List UInt8) : Lexeme :=
  ⟨.string value.toByteArray, line, (0x22 :: (value ++ [0x22])).toByteArray⟩

/-- The tokens of a call of a field of `t4` with a string. -/
def hostCall (line : Nat) (field : String) (value : List UInt8) : List Lexeme :=
  [nameAt line "t4", markAt line .dot, nameAt line field, markAt line .leftParen,
    stringAt line value, markAt line .rightParen]

/-- The tokens of the declaration that binds the host. -/
def bindingTokens (line : Nat) (path : List UInt8) : List Lexeme :=
  [markAt line .localWord, nameAt line "Host", markAt line .less, nameAt line "const",
    markAt line .greater, markAt line .assign] ++ hostCall line "host" path

/-- The calls that write texts, on a line each. -/
def writeTokens (line : Nat) : List (List UInt8) → List Lexeme
  | [] => []
  | value :: values => hostCall line "write" value ++ writeTokens (line + 1) values

/-- The call of a field of `t4`, a field of `env`, with a string. -/
def hostInvocation (env : Expr) (line : Nat) (field : String) (value : List UInt8) : Call :=
  .function (.index (.index env (.string (bytesOf "t4")) line) (.string (bytesOf field)) line)
    [.string value.toByteArray] line

/-- `_ENV`, from inside a chunk that declared a number of variables. -/
def envExpr (declared : Nat) : Expr :=
  .variable declared (bytesOf "_ENV") true

/-- The statement that binds the host. -/
def bindingStatement (path : List UInt8) : Stmt :=
  .declare [(bytesOf "Host", .constant)] [.call (hostInvocation (envExpr 0) 1 "host" path)] 1

/-- The statements that write texts, on a line each. -/
def writeStatements (line : Nat) : List (List UInt8) → List Stmt
  | [] => []
  | value :: values =>
    .invoke (hostInvocation (envExpr 1) line "write" value) :: writeStatements (line + 1) values

/-- A token that starts a statement or ends the source, so that a call before it goes no further. -/
inductive Lexeme.Fresh : Lexeme → Prop where
  | name (n line sp) : Fresh ⟨.name n, line, sp⟩
  | eof (line sp) : Fresh ⟨.eof, line, sp⟩
  | giveBack (line sp) : Fresh ⟨.mark .returnWord, line, sp⟩

theorem Lexeme.Fresh.readable {l : Lexeme} (h : l.Fresh) (r : Bytes) : l.token ≠ .fault r := by
  cases h <;> exact Token.noConfusion

/-- What follows a call is the next one or the end of the source. -/
theorem writeTokens_fresh (line stop : Nat) (sp : Bytes) (values : List (List UInt8)) :
    ∃ m ls, writeTokens line values ++ [(⟨.eof, stop, sp⟩ : Lexeme)] = m :: ls ∧ m.Fresh := by
  cases values with
  | nil => exact ⟨_, _, rfl, .eof _ _⟩
  | cons => exact ⟨_, _, rfl, .name _ _ _⟩

/-- The state with the tokens `ls` to be read, after a token on line `last`. -/
def ParserState.seeing (s : ParserState) (last : Nat) : List Lexeme → ParserState
  | [] => s
  | l :: rest => { s with current := l, rest := rest, line := l.line, lastLine := last }

namespace Parser

variable {α β : Type} {s t : ParserState} {last line : Nat} {l m : Lexeme} {ls : List Lexeme}

theorem bind_eq_of_ok {p : Parser α} {a : α} (h : p s = .ok (a, t)) (f : α → Parser β) :
    (p >>= f) s = f a t := by
  show Except.bind (p s) (fun r => f r.1 r.2) = _
  rw [h]
  rfl

/-! ## Tokens, one by one -/

theorem token_seeing : token (s.seeing last (l :: ls)) = .ok (l.token, s.seeing last (l :: ls)) :=
  rfl

theorem line_seeing : Parser.line (s.seeing last (l :: ls)) = .ok (l.line, s.seeing last (l :: ls)) :=
  rfl

theorem fetched_seeing {e : Expr} :
    fetched e (s.seeing last (l :: ls)) = .ok (e.fetchedOn last, s.seeing last (l :: ls)) :=
  rfl

theorem advance_seeing (h : ∀ r, m.token ≠ .fault r) :
    advance (s.seeing last (l :: m :: ls)) = .ok ((), s.seeing l.line (m :: ls)) := by
  obtain ⟨tok, line, sp⟩ := m
  cases tok <;> first | rfl | exact absurd rfl (h _)

theorem expectName_seeing {field : String} (h : ∀ r, m.token ≠ .fault r) :
    expectName (s.seeing last (nameAt line field :: m :: ls)) =
      .ok (bytesOf field, s.seeing line (m :: ls)) := by
  show (advance >>= fun _ => pure (bytesOf field) : Parser Bytes) _ = _
  rw [bind_eq_of_ok (advance_seeing h)]
  rfl

theorem accept_seeing {k : Mark} (h : ∀ r, m.token ≠ .fault r) :
    accept k (s.seeing last (markAt line k :: m :: ls)) = .ok (true, s.seeing line (m :: ls)) := by
  have hk : isMark (.mark k) k = true := by cases k <;> rfl
  show (if isMark (.mark k) k then advance >>= fun _ => pure true else pure false : Parser Bool) _ = _
  rw [if_pos hk, bind_eq_of_ok (advance_seeing h)]
  rfl

theorem expectClosing_seeing {k opening : Mark} {start : Nat} (h : ∀ r, m.token ≠ .fault r) :
    expectClosing k opening start (s.seeing last (markAt line k :: m :: ls)) =
      .ok ((), s.seeing line (m :: ls)) := by
  rw [expectClosing, bind_eq_of_ok (accept_seeing h)]
  rfl

theorem deeper_seeing {p : Parser α} {a : α} {last' : Nat} {ls' : List Lexeme}
    (hd : s.depth < maxDepth) (hs : t.depth = s.depth)
    (h : p ({ s with depth := s.depth + 1 }.seeing last (l :: ls)) =
      .ok (a, { t with depth := s.depth + 1 }.seeing last' (m :: ls'))) :
    deeper p (s.seeing last (l :: ls)) = .ok (a, t.seeing last' (m :: ls')) := by
  have hn : ¬ (s.seeing last (l :: ls)).depth ≥ maxDepth := Nat.not_le.mpr hd
  rw [deeper]
  show (if (s.seeing last (l :: ls)).depth ≥ maxDepth then _ else _ : Parser α) _ = _
  rw [if_neg hn]
  show (p >>= fun a => (modify fun s => { s with depth := s.depth - 1 }) >>= fun _ => pure a)
    ({ s with depth := s.depth + 1 }.seeing last (l :: ls)) = _
  rw [bind_eq_of_ok h]
  show Except.ok (a, { t with depth := s.depth + 1 - 1 }.seeing last' (m :: ls')) = _
  rw [Nat.add_sub_cancel, ← hs]

/-! ## Calls -/

theorem simple_string {fuel : Nat} {value : List UInt8} (h : ∀ r, m.token ≠ .fault r) :
    simple (fuel + 1) (s.seeing last (stringAt line value :: m :: ls)) =
      .ok (.string value.toByteArray, s.seeing line (m :: ls)) := by
  rw [simple]
  show (advance >>= fun _ => pure (.string value.toByteArray) : Parser Expr) _ = _
  rw [bind_eq_of_ok (advance_seeing h)]
  rfl

theorem operators_markAt {fuel limit : Nat} {e : Expr} {k : Mark} (h : infixOf k = none) :
    operators (fuel + 1) limit e (s.seeing last (markAt line k :: ls)) =
      .ok (e, s.seeing last (markAt line k :: ls)) := by
  rw [operators, bind_eq_of_ok token_seeing]
  simp only [markAt_token, h]
  rfl

/-- A string with a mark after it that is no operator is the whole of an expression. -/
theorem expression_string {fuel limit : Nat} {value : List UInt8} {k : Mark}
    (hd : s.depth < maxDepth) (h : infixOf k = none) :
    expression (fuel + 2) limit (s.seeing last (stringAt line value :: markAt line k :: ls)) =
      .ok (.string value.toByteArray, s.seeing line (markAt line k :: ls)) := by
  rw [expression]
  refine deeper_seeing hd rfl ?_
  show (simple (fuel + 1) >>= operators (fuel + 1) limit) _ = _
  rw [bind_eq_of_ok (simple_string fun _ => Token.noConfusion)]
  exact operators_markAt h

/-- The arguments of a call, which are one string. -/
theorem arguments_string {fuel : Nat} {value : List UInt8} (hd : s.depth < maxDepth)
    (h : ∀ r, m.token ≠ .fault r) :
    arguments (fuel + 4) (s.seeing last
        (markAt line .leftParen :: stringAt line value :: markAt line .rightParen :: m :: ls)) =
      .ok ([.string value.toByteArray], s.seeing line (m :: ls)) := by
  have hargs : expressions (fuel + 3) (s.seeing line
      (stringAt line value :: markAt line .rightParen :: m :: ls)) =
        .ok (([], .string value.toByteArray), s.seeing line (markAt line .rightParen :: m :: ls)) := by
    rw [expressions, bind_eq_of_ok (expression_string hd rfl)]
    rfl
  rw [arguments, bind_eq_of_ok token_seeing]
  simp only [markAt_token]
  rw [bind_eq_of_ok line_seeing, bind_eq_of_ok (advance_seeing fun _ => Token.noConfusion)]
  show (expressions (fuel + 3) >>= fun e => expectClosing .rightParen .leftParen line >>=
    fun _ => fetched e.2 >>= fun last => pure (e.1 ++ [last]))
    (s.seeing line (stringAt line value :: markAt line .rightParen :: m :: ls)) = _
  rw [bind_eq_of_ok hargs, bind_eq_of_ok (expectClosing_seeing h)]
  rfl

/-- A token that starts a statement is no suffix of the expression before it. -/
theorem suffixes_fresh {fuel : Nat} {p : Primary} (h : m.Fresh) :
    suffixes (fuel + 1) p (s.seeing last (m :: ls)) = .ok (p, s.seeing last (m :: ls)) := by
  rw [suffixes]
  cases h <;> rfl

theorem suffixes_dot {fuel : Nat} {e : Expr} {readOnly : Option Bytes} {field : String}
    (h : ∀ r, m.token ≠ .fault r) :
    suffixes (fuel + 1) ⟨e, readOnly⟩
        (s.seeing last (markAt line .dot :: nameAt line field :: m :: ls)) =
      suffixes fuel ⟨.index (e.fetchedOn last) (.string (bytesOf field)) 0, none⟩
        (s.seeing line (m :: ls)) := by
  rw [suffixes, bind_eq_of_ok token_seeing]
  simp only [markAt_token]
  rw [bind_eq_of_ok fetched_seeing, bind_eq_of_ok (advance_seeing fun _ => Token.noConfusion),
    bind_eq_of_ok (expectName_seeing h)]

/-- A call of what was read so far with a string ends the expression. -/
theorem suffixes_arguments {fuel : Nat} {e : Expr} {readOnly : Option Bytes} {value : List UInt8}
    (hd : s.depth < maxDepth) (h : m.Fresh) :
    suffixes (fuel + 5) ⟨e, readOnly⟩ (s.seeing last
        (markAt line .leftParen :: stringAt line value :: markAt line .rightParen :: m :: ls)) =
      .ok (⟨.call (.function (e.fetchedOn last) [.string value.toByteArray] line), none⟩,
        s.seeing line (m :: ls)) := by
  rw [suffixes, bind_eq_of_ok token_seeing]
  simp only [markAt_token]
  rw [bind_eq_of_ok fetched_seeing, bind_eq_of_ok line_seeing,
    bind_eq_of_ok (arguments_string hd h.readable)]
  exact suffixes_fresh h

/-- A call of a field of `t4` with a string is read as one expression, where `t4` is no variable. -/
theorem suffixed_hostCall {fuel : Nat} {env : Expr} {field : String} {value : List UInt8}
    (hd : t.depth < maxDepth) (h : m.Fresh)
    (ht4 : ∀ l ls, readName (bytesOf "t4") (s.seeing line (l :: ls)) =
      .ok (⟨.index env (.string (bytesOf "t4")) 0, none⟩, t.seeing line (l :: ls))) :
    suffixed (fuel + 8) (s.seeing last (hostCall line field value ++ m :: ls)) =
      .ok (⟨.call (hostInvocation env line field value), none⟩, t.seeing line (m :: ls)) := by
  simp only [hostCall, List.cons_append, List.nil_append]
  rw [suffixed, bind_eq_of_ok token_seeing]
  show (advance >>= fun _ => readName (bytesOf "t4") >>= suffixes (fuel + 7)) _ = _
  rw [bind_eq_of_ok (advance_seeing fun _ => Token.noConfusion)]
  show (readName (bytesOf "t4") >>= suffixes (fuel + 7)) (s.seeing line (_ :: _)) = _
  rw [bind_eq_of_ok (ht4 _ _), suffixes_dot fun _ => Token.noConfusion]
  exact suffixes_arguments hd h

/-! ## Statements -/

/-- A call of a field of `t4` with a string is a statement, where `t4` is no variable. -/
theorem statement_hostCall {fuel : Nat} {env : Expr} {field : String} {value : List UInt8}
    (hd : t.depth < maxDepth) (h : m.Fresh)
    (ht4 : ∀ l ls, readName (bytesOf "t4") (s.seeing line (l :: ls)) =
      .ok (⟨.index env (.string (bytesOf "t4")) 0, none⟩, t.seeing line (l :: ls))) :
    statement (fuel + 10) (s.seeing last (hostCall line field value ++ m :: ls)) =
      .ok ([.invoke (hostInvocation env line field value)], t.seeing line (m :: ls)) := by
  have hstmt : expressionStatement (fuel + 9) (s.seeing last (hostCall line field value ++ m :: ls)) =
      .ok (.invoke (hostInvocation env line field value), t.seeing line (m :: ls)) := by
    rw [expressionStatement, bind_eq_of_ok (suffixed_hostCall hd h ht4), bind_eq_of_ok token_seeing]
    cases h <;> rfl
  rw [statement]
  show (expressionStatement (fuel + 9) >>= fun stmt => pure [stmt]) _ = _
  rw [bind_eq_of_ok hstmt]
  rfl

/-- What the parser of a chunk knows between two statements: the variables in scope, which
variables from outside the chunk has used, and how deeply it is nested. -/
def chunkScope (chunk : Bytes) (vs : List Variable) (captured : List Nat) (depth : Nat) :
    ParserState where
  chunk := chunk
  current := default
  rest := []
  line := 0
  lastLine := 0
  scope := vs
  functions := [⟨0, true, [⟨false, [], [], 0⟩], captured⟩]
  depth := depth

/-- The variable `_ENV` of a chunk. -/
def envVariable : Variable :=
  ⟨bytesOf "_ENV", .regular, none, 0⟩

/-- The host, a constant of the chunk. -/
def hostVariable : Variable :=
  ⟨bytesOf "Host", .constant, none, 1⟩

/-- The scope of a chunk that has bound the host. -/
def boundScope (chunk : Bytes) (depth : Nat) : ParserState :=
  chunkScope chunk [hostVariable, envVariable] [0] depth

/-- The names of the declaration of the host. -/
theorem readNames_host {fuel depth : Nat} {chunk : Bytes} :
    readNames (fuel + 1) [] ((chunkScope chunk [envVariable] [] depth).seeing last
        (nameAt line "Host" :: markAt line .less :: nameAt line "const" :: markAt line .greater ::
          markAt line .assign :: ls)) =
      .ok ([(bytesOf "Host", .constant)],
        (chunkScope chunk [envVariable] [] depth).seeing line (markAt line .assign :: ls)) := by
  rw [readNames]
  rfl

theorem operators_fresh {fuel limit : Nat} {e : Expr} (h : m.Fresh) :
    operators (fuel + 1) limit e (s.seeing last (m :: ls)) = .ok (e, s.seeing last (m :: ls)) := by
  rw [operators]
  cases h <;> rfl

/-- What starts with a name is an expression up to its last suffix, if a statement follows. -/
theorem expressions_suffixed {fuel : Nat} {n sp : Bytes} {p : Primary} {ls' : List Lexeme}
    (hd : s.depth < maxDepth) (hs : t.depth = s.depth) (h : m.Fresh)
    (hp : suffixed (fuel + 1)
        ({ s with depth := s.depth + 1 }.seeing last (⟨.name n, line, sp⟩ :: ls)) =
      .ok (p, { t with depth := s.depth + 1 }.seeing line (m :: ls'))) :
    expressions (fuel + 4) (s.seeing last (⟨.name n, line, sp⟩ :: ls)) =
      .ok (([], p.expr), t.seeing line (m :: ls')) := by
  have hsimple : simple (fuel + 2)
      ({ s with depth := s.depth + 1 }.seeing last (⟨.name n, line, sp⟩ :: ls)) =
        .ok (p.expr, { t with depth := s.depth + 1 }.seeing line (m :: ls')) := by
    rw [simple]
    exact (bind_eq_of_ok hp fun p => pure p.expr).trans rfl
  have hexpr : expression (fuel + 3) 0 (s.seeing last (⟨.name n, line, sp⟩ :: ls)) =
      .ok (p.expr, t.seeing line (m :: ls')) := by
    rw [expression]
    refine deeper_seeing hd hs ?_
    exact (bind_eq_of_ok hsimple (operators (fuel + 2) 0)).trans (operators_fresh h)
  rw [expressions, bind_eq_of_ok hexpr]
  cases h <;> rfl

/-- The declaration of the host is a statement. -/
theorem statement_binding {fuel : Nat} {chunk : Bytes} {path : List UInt8} (h : m.Fresh) :
    statement (fuel + 20) ((chunkScope chunk [envVariable] [] 1).seeing last
        (bindingTokens line path ++ m :: ls)) =
      .ok ([.declare [(bytesOf "Host", .constant)]
          [.call (hostInvocation (envExpr 0) line "host" path)] line],
        (boundScope chunk 1).seeing line (m :: ls)) := by
  have hcall : expressions (fuel + 18) ((chunkScope chunk [envVariable] [] 1).seeing line
      (hostCall line "host" path ++ m :: ls)) =
        .ok (([], .call (hostInvocation (envExpr 0) line "host" path)),
          (chunkScope chunk [envVariable] [0] 1).seeing line (m :: ls)) :=
    expressions_suffixed (s := chunkScope chunk [envVariable] [] 1)
      (t := chunkScope chunk [envVariable] [0] 1) (show 1 < maxDepth by decide) rfl h
      (suffixed_hostCall (show 2 < maxDepth by decide) h fun _ _ => rfl)
  have hlast : (expressions (fuel + 18) >>= fun e => pure (e.1, some e.2) : Parser _)
      ((chunkScope chunk [envVariable] [] 1).seeing line (hostCall line "host" path ++ m :: ls)) =
        .ok (([], some (.call (hostInvocation (envExpr 0) line "host" path))),
          (chunkScope chunk [envVariable] [0] 1).seeing line (m :: ls)) := by
    rw [bind_eq_of_ok hcall]
    rfl
  have hassign : accept .assign ((chunkScope chunk [envVariable] [] 1).seeing line
      (markAt line .assign :: (hostCall line "host" path ++ m :: ls))) =
        .ok (true, (chunkScope chunk [envVariable] [] 1).seeing line
          (hostCall line "host" path ++ m :: ls)) :=
    accept_seeing fun _ => Token.noConfusion
  have hdecl : declaration (fuel + 19) ((chunkScope chunk [envVariable] [] 1).seeing line
      (nameAt line "Host" :: markAt line .less :: nameAt line "const" :: markAt line .greater ::
        markAt line .assign :: (hostCall line "host" path ++ m :: ls))) =
      .ok (.declare [(bytesOf "Host", .constant)]
          [.call (hostInvocation (envExpr 0) line "host" path)] line,
        (boundScope chunk 1).seeing line (m :: ls)) := by
    rw [declaration, bind_eq_of_ok readNames_host, bind_eq_of_ok hassign, if_pos rfl]
    exact (bind_eq_of_ok hlast _).trans rfl
  simp only [bindingTokens, List.cons_append, List.nil_append]
  rw [statement, bind_eq_of_ok line_seeing, bind_eq_of_ok token_seeing]
  simp only [markAt_token]
  rw [bind_eq_of_ok (advance_seeing fun _ => Token.noConfusion)]
  show (declaration (fuel + 19) >>= fun d => pure [d]) ((chunkScope chunk [envVariable] [] 1).seeing
    line (_ :: _)) = _
  rw [bind_eq_of_ok hdecl]
  rfl

/-! ## Blocks -/

theorem statements_eof {fuel line : Nat} {sp : Bytes} :
    statements (fuel + 1) (s.seeing last [⟨.eof, line, sp⟩]) =
      .ok ([], s.seeing last [⟨.eof, line, sp⟩]) := by
  rw [statements]
  rfl

/-- A statement that does not leave the block comes before those that follow it. -/
theorem statements_cons {fuel : Nat} {first : Stmt} {body : List Stmt} {u : ParserState}
    (hb : endsBlock true l.token = false) (hr : isMark l.token .returnWord = false)
    (hfirst : deeper (statement fuel) (s.seeing last (l :: ls)) = .ok ([first], t))
    (hbody : statements fuel t = .ok (body, u)) :
    statements (fuel + 1) (s.seeing last (l :: ls)) = .ok (first :: body, u) := by
  rw [statements, bind_eq_of_ok token_seeing]
  simp only [hb, hr, Bool.false_eq_true, ↓reduceIte]
  rw [bind_eq_of_ok hfirst, bind_eq_of_ok hbody]
  rfl

/-- Calls that write texts are read as one statement each, in order. -/
theorem statements_writes (fuel stop : Nat) (chunk sp : Bytes) (values : List (List UInt8)) :
    ∀ last line, ∃ last', statements (fuel + values.length + 11)
        ((boundScope chunk 0).seeing last (writeTokens line values ++ [⟨.eof, stop, sp⟩])) =
      .ok (writeStatements line values, (boundScope chunk 0).seeing last' [⟨.eof, stop, sp⟩]) := by
  induction values with
  | nil => exact fun last _ => ⟨last, statements_eof⟩
  | cons value values ih =>
    intro last line
    obtain ⟨last', ih⟩ := ih line (line + 1)
    obtain ⟨m, ls, hls, hm⟩ := writeTokens_fresh (line + 1) stop sp values
    refine ⟨last', ?_⟩
    rw [hls] at ih
    rw [writeTokens, List.append_assoc, hls]
    refine statements_cons rfl rfl (deeper_seeing (t := boundScope chunk 0)
      (show 0 < maxDepth by decide) rfl ?_) ih
    exact statement_hostCall (show 1 < maxDepth by decide) hm fun _ _ => rfl

/-- The tokens of a chunk that binds the host and goes on with `ls`. -/
theorem parseTokens_binding {chunk : Bytes} {path : List UInt8} {body : List Stmt} {stop last : Nat}
    {sp : Bytes} {fuel : Nat} (hm : m.Fresh)
    (hfuel : 40 * ((bindingTokens 1 path ++ m :: ls).length + 2) = fuel + 21)
    (hbody : statements (fuel + 20) ((boundScope chunk 0).seeing 1 (m :: ls)) =
      .ok (body, (boundScope chunk 0).seeing last [⟨.eof, stop, sp⟩])) :
    Chunk.parseTokens chunk (bindingTokens 1 path ++ m :: ls) =
      .ok (.mk 0 true (bindingStatement path :: body) chunk 0) := by
  have hall : statements (fuel + 21) ((chunkScope chunk [envVariable] [] 0).seeing 1
      (bindingTokens 1 path ++ m :: ls)) = .ok (_ :: body, _) :=
    statements_cons rfl rfl (deeper_seeing (t := boundScope chunk 0)
      (show 0 < maxDepth by decide) rfl (statement_binding hm)) hbody
  rw [Chunk.parseTokens, hfuel, StateT.run]
  rw [bind_eq_of_ok (show openBlock false _ = .ok ((), _) from rfl),
    bind_eq_of_ok (show advance _ = .ok ((), (chunkScope chunk [envVariable] [] 0).seeing 1
      (bindingTokens 1 path ++ m :: ls)) from rfl), bind_eq_of_ok hall]
  rfl

theorem length_writeTokens (line : Nat) (values : List (List UInt8)) :
    (writeTokens line values).length = 6 * values.length := by
  induction values generalizing line with
  | nil => rfl
  | cons value values ih =>
    rw [writeTokens, List.length_append, ih, List.length_cons]
    show 6 + _ = _
    omega

/-- The tokens of a chunk that binds the host and then writes texts. -/
theorem parseTokens_writes (chunk sp : Bytes) (path : List UInt8) (values : List (List UInt8))
    (stop : Nat) :
    Chunk.parseTokens chunk (bindingTokens 1 path ++ (writeTokens 2 values ++ [⟨.eof, stop, sp⟩])) =
      .ok (.mk 0 true (bindingStatement path :: writeStatements 2 values) chunk 0) := by
  obtain ⟨last, hbody⟩ := statements_writes (239 * values.length + 588) stop chunk sp values 1 2
  have hlen : (writeTokens 2 values ++ [(⟨.eof, stop, sp⟩ : Lexeme)]).length =
      6 * values.length + 1 := by
    rw [List.length_append, length_writeTokens]
    rfl
  obtain ⟨m, ls, hls, hm⟩ := writeTokens_fresh 2 stop sp values
  rw [hls] at hbody hlen ⊢
  have hfuel : 40 * ((bindingTokens 1 path ++ m :: ls).length + 2) =
      240 * values.length + 579 + 21 := by
    rw [List.length_append, hlen]
    show 40 * (12 + _ + 2) = _
    omega
  rw [show 239 * values.length + 588 + values.length + 11 = 240 * values.length + 579 + 20 by omega]
    at hbody
  exact parseTokens_binding hm hfuel hbody

/-- The tokens of a chunk that binds the host and gives it back. -/
theorem parseTokens_giveBack (chunk : Bytes) (path : List UInt8) :
    Chunk.parseTokens chunk (bindingTokens 1 path ++
        [markAt 2 .returnWord, nameAt 2 "Host", ⟨.eof, 2, ByteArray.empty⟩]) =
      .ok (.mk 0 true
        [bindingStatement path, .giveBack [.variable 0 (bytesOf "Host") false] 2] chunk 0) := by
  have hvalue : expressions 676 ((boundScope chunk 1).seeing 2
      [nameAt 2 "Host", ⟨.eof, 2, ByteArray.empty⟩]) =
        .ok (([], .variable 0 (bytesOf "Host") false),
          (boundScope chunk 1).seeing 2 [⟨.eof, 2, ByteArray.empty⟩]) := by
    refine expressions_suffixed (p := ⟨_, some (bytesOf "Host")⟩) (show 1 < maxDepth by decide) rfl
      (.eof _ _) ?_
    rw [suffixed]
    exact suffixes_fresh (.eof _ _)
  have hvalues : expressionList 677 ((boundScope chunk 1).seeing 2
      [nameAt 2 "Host", ⟨.eof, 2, ByteArray.empty⟩]) =
        .ok ([.variable 0 (bytesOf "Host") false],
          (boundScope chunk 1).seeing 2 [⟨.eof, 2, ByteArray.empty⟩]) := by
    rw [expressionList, bind_eq_of_ok hvalue]
    rfl
  have hreturn : statement 678 ((boundScope chunk 1).seeing 1
      [markAt 2 .returnWord, nameAt 2 "Host", ⟨.eof, 2, ByteArray.empty⟩]) =
        .ok ([.giveBack [.variable 0 (bytesOf "Host") false] 2],
          (boundScope chunk 1).seeing 2 [⟨.eof, 2, ByteArray.empty⟩]) := by
    rw [statement, bind_eq_of_ok line_seeing, bind_eq_of_ok token_seeing]
    simp only [markAt_token]
    rw [bind_eq_of_ok (advance_seeing fun _ => Token.noConfusion), bind_eq_of_ok token_seeing]
    show (expressionList 677 >>= fun values => _) ((boundScope chunk 1).seeing 2 _) = _
    rw [bind_eq_of_ok hvalues]
    rfl
  have hbody : statements 679 ((boundScope chunk 0).seeing 1
      [markAt 2 .returnWord, nameAt 2 "Host", ⟨.eof, 2, ByteArray.empty⟩]) =
        .ok ([.giveBack [.variable 0 (bytesOf "Host") false] 2],
          (boundScope chunk 0).seeing 2 [⟨.eof, 2, ByteArray.empty⟩]) := by
    rw [statements, bind_eq_of_ok token_seeing]
    exact (bind_eq_of_ok (deeper_seeing (t := boundScope chunk 0) (show 0 < maxDepth by decide) rfl
      hreturn) _).trans rfl
  exact parseTokens_binding (.giveBack _ _) (show _ = 659 + 21 from rfl) hbody

end Parser

end Stencil.Lua
