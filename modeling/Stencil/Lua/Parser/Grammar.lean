import Stencil.Lua.Arith
import Stencil.Lua.Lexer
import Stencil.Lua.Parser.State

/-!
# The grammar

Reading expressions and statements. Every function is bounded by a number of steps that a source
cannot use up; `Chunk.parse` computes it from the number of tokens.

Lines are noted where an operation is decided: a field is fetched when what follows it is known,
an operator stands on its own line, and a call on the line of its arguments.
-/

namespace Stencil.Lua

namespace Parser

/-- The reading of a suffixed expression: the expression, and the name of the variable if it is
one that cannot be assigned to. -/
structure Primary where
  expr : Expr
  readOnly : Option Bytes := none
  deriving Inhabited

/-- An expression fetched on the line of the last token that was passed. -/
def fetched (e : Expr) : Parser Expr := do
  return e.fetchedOn (← lastLine)

/-- The binary operator of a token, with how tightly it binds to its left and to its right. -/
inductive Infix where
  | binary (op : BinaryOp)
  | concat
  | and
  | or

/-- The binary operator of a mark, with its binding strengths. -/
def infixOf : Mark → Option (Infix × Nat × Nat)
  | .plus => some (.binary .add, 10, 10)
  | .minus => some (.binary .sub, 10, 10)
  | .star => some (.binary .mul, 11, 11)
  | .percent => some (.binary .mod, 11, 11)
  | .caret => some (.binary .pow, 14, 13)
  | .slash => some (.binary .div, 11, 11)
  | .slash2 => some (.binary .idiv, 11, 11)
  | .ampersand => some (.binary .band, 6, 6)
  | .bar => some (.binary .bor, 4, 4)
  | .tilde => some (.binary .bxor, 5, 5)
  | .shiftLeft => some (.binary .shl, 7, 7)
  | .shiftRight => some (.binary .shr, 7, 7)
  | .dot2 => some (.concat, 9, 8)
  | .equal => some (.binary .eq, 3, 3)
  | .notEqual => some (.binary .ne, 3, 3)
  | .less => some (.binary .lt, 3, 3)
  | .lessEqual => some (.binary .le, 3, 3)
  | .greater => some (.binary .gt, 3, 3)
  | .greaterEqual => some (.binary .ge, 3, 3)
  | .andWord => some (.and, 2, 2)
  | .orWord => some (.or, 1, 1)
  | _ => none

/-- The operator before an operand, of a mark. -/
def unaryOf : Mark → Option UnaryOp
  | .notWord => some .not
  | .minus => some .neg
  | .tilde => some .bnot
  | .hash => some .length
  | _ => none

/-- How tightly an operator binds that stands before its operand. -/
def unaryStrength : Nat := 12

/-- Whether an operator compares. -/
def isComparison : BinaryOp → Bool
  | .eq | .ne | .lt | .le | .gt | .ge => true
  | _ => false

/-- An operator applied to an operand, computed if the operand is constant. -/
def makeUnary (op : UnaryOp) (e : Expr) (line : Nat) : Expr :=
  match op, e with
  | .not, .nil | .not, .false => .true
  | .not, .true | .not, .number _ | .not, .string _ => .false
  | op, .number n =>
    match foldUnary op n with
    | some n => .number n
    | none => .unary op e line
  | op, e => .unary op e line

/-- The operands of a concatenation that ends in `e`, and its line. -/
def concatTail (line : Nat) : Expr → List Expr × Nat
  | .concat operands inner => (operands, inner)
  | .paren (.concat operands inner) => (operands, inner)
  | e => ([e], line)

/-- An operator between operands, computed if both are constant. A comparison fails on the last
line of its operands, any other operator on its own. -/
def makeBinary (op : Infix) (left right : Expr) (line last : Nat) : Expr :=
  match op with
  | .and => .and left right
  | .or => .or left right
  | .concat =>
    let (operands, line) := concatTail line right
    .concat (left :: operands) line
  | .binary op =>
    match left, right with
    | .number a, .number b =>
      match foldBinary op a b with
      | some n => .number n
      | none => .binary op left right (if isComparison op then last else line)
    | _, _ => .binary op left right (if isComparison op then last else line)

/-- Whether an expression is known when it is read. -/
def isConstant : Expr → Bool
  | .nil | .true | .false | .number _ | .string _ => Bool.true
  | _ => Bool.false

/-- Whether a block ends at a token; `untilToo` tells whether `until` ends it. -/
def endsBlock (untilToo : Bool) (t : Token) : Bool :=
  match t with
  | .mark .elseWord | .mark .elseifWord | .mark .endWord | .eof => true
  | .mark .untilWord => untilToo
  | _ => false

/-- Reads `<const>` or `<close>` after the name of a variable. -/
def readAttribute : Parser Attribute := do
  if ← accept .less then
    let name ← expectName
    expect .greater
    if name == bytesOf "const" then return .constant
    else if name == bytesOf "close" then return .closing
    else failAt (bytesOf "unknown attribute '" ++ name ++ bytesOf "'")
  else return .regular

/-- Reads the names of a declaration. -/
def readNames : Nat → List (Bytes × Attribute) → Parser (List (Bytes × Attribute))
  | 0, _ => failNear (bytesOf "chunk has too many syntax levels")
  | fuel + 1, names => do
    let name ← expectName
    checkVariables (names.length + 1)
    let kind ← readAttribute
    if kind == .closing && names.any fun n => n.2 == .closing then
      failAt (bytesOf "multiple to-be-closed variables in local list")
    let names := names ++ [(name, kind)]
    if ← accept .comma then readNames fuel names else return names

/-- Reads more names, each after a comma; `hidden` variables come before them. -/
def readLoopNames : Nat → Nat → List Bytes → Parser (List Bytes)
  | 0, _, _ => failNear (bytesOf "chunk has too many syntax levels")
  | fuel + 1, hidden, names => do
    if ← accept .comma then
      let name ← expectName
      checkVariables (hidden + names.length + 1)
      readLoopNames fuel hidden (names ++ [name])
    else return names

/-- Reads the parameters of a function: their names, and whether it takes more arguments. -/
def readParameters : Nat → List Bytes → Parser (List Bytes × Bool)
  | 0, _ => failNear (bytesOf "chunk has too many syntax levels")
  | fuel + 1, names => do
    match ← token with
    | .name name =>
      advance
      checkVariables (names.length + 1)
      let names := names ++ [name]
      if ← accept .comma then readParameters fuel names else return (names, false)
    | .mark .dot3 =>
      advance
      return (names, true)
    | _ => failNear (bytesOf "<name> or '...' expected")

/-- Puts variables in scope. -/
def declareAll (names : List (Bytes × Attribute)) : Parser Unit :=
  names.forM fun n => declareVariable n.1 n.2 none

/-- Puts the variables of a loop in scope that a program cannot name. They are not stored. -/
def declareHidden : Nat → Parser Unit
  | 0 => pure ()
  | n + 1 => do
    declareVariable (bytesOf "(for state)") .regular (some .nil)
    declareHidden n

/-- Refuses an assignment to a variable that is constant. -/
def checkAssignable (p : Primary) : Parser Unit := do
  match p.readOnly with
  | some name =>
    failAt (bytesOf "attempt to assign to const variable '" ++ name ++ bytesOf "'")
  | none => pure ()

/-- Whether something can be assigned to. -/
def isTarget (p : Primary) : Bool :=
  match p.expr with
  | .variable .. | .index .. => true
  | _ => p.readOnly.isSome

/-- Reads a name as an expression. -/
def readName (name : Bytes) : Parser Primary := do
  let (expr, v) ← resolve name
  match v with
  | some v => return ⟨expr, if v.kind == .regular then none else some name⟩
  | none => return ⟨expr, none⟩

mutual

/-- Reads an expression whose operators bind tighter than `limit`. -/
def expression : Nat → Nat → Parser Expr
  | 0, _ => failNear (bytesOf "chunk has too many syntax levels")
  | fuel + 1, limit => deeper do
    let first : Parser Expr := do
      match ← token with
      | .mark m =>
        match unaryOf m with
        | some op =>
          let opLine ← line
          advance
          let e ← fetched (← expression fuel unaryStrength)
          return makeUnary op e opLine
        | none => simple fuel
      | _ => simple fuel
    operators fuel limit (← first)

/-- Reads the operators after an operand that bind tighter than `limit`. -/
def operators : Nat → Nat → Expr → Parser Expr
  | 0, _, _ => failNear (bytesOf "chunk has too many syntax levels")
  | fuel + 1, limit, left => do
    match ← token with
    | .mark m =>
      match infixOf m with
      | some (op, strengthLeft, strengthRight) =>
        if strengthLeft > limit then
          let opLine ← line
          advance
          let left ← fetched left
          let right ← fetched (← expression fuel strengthRight)
          operators fuel limit (makeBinary op left right opLine (← lastLine))
        else return left
      | none => return left
    | _ => return left

/-- Reads an operand. -/
def simple : Nat → Parser Expr
  | 0 => failNear (bytesOf "chunk has too many syntax levels")
  | fuel + 1 => do
    match ← token with
    | .number n => advance; return .number n
    | .string s => advance; return .string s
    | .mark .nilWord => advance; return .nil
    | .mark .trueWord => advance; return .true
    | .mark .falseWord => advance; return .false
    | .mark .dot3 =>
      unless ((← get).functions.headD default).variadic do
        failNear (bytesOf "cannot use '...' outside a vararg function")
      advance
      return .vararg
    | .mark .leftBrace => constructor fuel
    | .mark .functionWord =>
      advance
      return .function (← functionBody fuel false (← line))
    | _ => return (← suffixed fuel).expr

/-- Reads a name or an expression in parentheses, with its suffixes. -/
def suffixed : Nat → Parser Primary
  | 0 => failNear (bytesOf "chunk has too many syntax levels")
  | fuel + 1 => do
    match ← token with
    | .name name =>
      advance
      suffixes fuel (← readName name)
    | .mark .leftParen =>
      let start ← line
      advance
      let e ← expression fuel 0
      expectClosing .rightParen .leftParen start
      let e ← fetched e
      suffixes fuel ⟨if isConstant e then e else .paren e, none⟩
    | _ => failNear (bytesOf "unexpected symbol")

/-- Reads the suffixes of an expression: fields, calls and method calls. -/
def suffixes : Nat → Primary → Parser Primary
  | 0, _ => failNear (bytesOf "chunk has too many syntax levels")
  | fuel + 1, p => do
    match ← token with
    | .mark .dot =>
      let object ← fetched p.expr
      advance
      let name ← expectName
      suffixes fuel ⟨.index object (.string name) 0, none⟩
    | .mark .leftBracket =>
      let object ← fetched p.expr
      advance
      let key ← fetched (← expression fuel 0)
      expect .rightBracket
      suffixes fuel ⟨.index object key 0, none⟩
    | .mark .colon =>
      advance
      let name ← expectName
      let nameLine ← lastLine
      let callLine ← line
      let args ← arguments fuel
      suffixes fuel
        ⟨.call (.method (p.expr.fetchedOn nameLine) name nameLine args callLine), none⟩
    | .mark .leftParen | .mark .leftBrace | .string _ =>
      let callee ← fetched p.expr
      let callLine ← line
      let args ← arguments fuel
      suffixes fuel ⟨.call (.function callee args callLine), none⟩
    | _ => return p

/-- Reads the arguments of a call. -/
def arguments : Nat → Parser (List Expr)
  | 0 => failNear (bytesOf "chunk has too many syntax levels")
  | fuel + 1 => do
    match ← token with
    | .string s => advance; return [.string s]
    | .mark .leftBrace => return [← constructor fuel]
    | .mark .leftParen =>
      let start ← line
      advance
      if ← accept .rightParen then return []
      let (before, last) ← expressions fuel
      expectClosing .rightParen .leftParen start
      return before ++ [← fetched last]
    | _ => failNear (bytesOf "function arguments expected")

/-- Reads expressions between commas: all but the last, and the last, which is not fetched yet. -/
def expressions : Nat → Parser (List Expr × Expr)
  | 0 => failNear (bytesOf "chunk has too many syntax levels")
  | fuel + 1 => do
    let e ← expression fuel 0
    if ← accept .comma then
      let e ← fetched e
      let (before, last) ← expressions fuel
      return (e :: before, last)
    else return ([], e)

/-- Reads expressions between commas, the last fetched on the line where they end. -/
def expressionList : Nat → Parser (List Expr)
  | 0 => failNear (bytesOf "chunk has too many syntax levels")
  | fuel + 1 => do
    let (before, last) ← expressions fuel
    return before ++ [← fetched last]

/-- Reads a table constructor. -/
def constructor : Nat → Parser Expr
  | 0 => failNear (bytesOf "chunk has too many syntax levels")
  | fuel + 1 => do
    let start ← line
    expect .leftBrace
    let items ← tableItems fuel start []
    return .table items start

/-- Reads the items of a table constructor up to its end. An item is fetched on the line of the
separator that follows it, the last one on the line of the closing brace. -/
def tableItems : Nat → Nat → List Item → Parser (List Item)
  | 0, _, _ => failNear (bytesOf "chunk has too many syntax levels")
  | fuel + 1, start, items => do
    if ← accept .rightBrace then return items
    let named ←
      match ← token with
      | .name _ => do pure (isMark (← peek) .assign)
      | _ => pure false
    let item : Parser Item := do
      match ← token with
      | .mark .leftBracket =>
        advance
        let key ← fetched (← expression fuel 0)
        expect .rightBracket
        expect .assign
        let value ← fetched (← expression fuel 0)
        return .keyed key value (← lastLine)
      | .name name =>
        if named then
          advance
          expect .assign
          let value ← fetched (← expression fuel 0)
          return .keyed (.string name) value (← lastLine)
        else return .positional (← expression fuel 0)
      | _ => return .positional (← expression fuel 0)
    let item ← item
    let separated ← if ← accept .comma then pure true else accept .semicolon
    let more ← if separated then (do pure !(← atMark .rightBrace)) else pure false
    unless more do expectClosing .rightBrace .leftBrace start
    let item ←
      match item with
      | .positional e => do pure (.positional (← fetched e))
      | item => pure item
    let items := items ++ [item]
    if more then tableItems fuel start items else return items

/-- Reads the parameters and the body of a function that starts on a line. -/
def functionBody : Nat → Bool → Nat → Parser Proto
  | 0, _, _ => failNear (bytesOf "chunk has too many syntax levels")
  | fuel + 1, isMethod, start => do
    modify fun s => { s with functions := ⟨start, false, [], []⟩ :: s.functions }
    openBlock false
    expect .leftParen
    let self := if isMethod then [bytesOf "self"] else []
    let (names, variadic) ← if ← atMark .rightParen then pure (self, false)
      else readParameters fuel self
    modifyFunction fun f => { f with variadic }
    declareAll (names.map fun n => (n, .regular))
    expect .rightParen
    let body ← statements fuel
    expectClosing .endWord .functionWord start
    closeBlock
    modify fun s => { s with functions := s.functions.drop 1 }
    return .mk names.length variadic body (← get).chunk start

/-- Reads the statements of a block. -/
def statements : Nat → Parser (List Stmt)
  | 0 => failNear (bytesOf "chunk has too many syntax levels")
  | fuel + 1 => do
    let t ← token
    if endsBlock true t then return []
    let first ← deeper (statement fuel)
    if isMark t .returnWord then return first
    return first ++ (← statements fuel)

/-- Reads a block with a scope of its own. -/
def block : Nat → Parser (List Stmt)
  | 0 => failNear (bytesOf "chunk has too many syntax levels")
  | fuel + 1 => do
    openBlock false
    let body ← statements fuel
    closeBlock
    return body

/-- Reads a statement; some have no effect. -/
def statement : Nat → Parser (List Stmt)
  | 0 => failNear (bytesOf "chunk has too many syntax levels")
  | fuel + 1 => do
    let start ← line
    match ← token with
    | .mark .semicolon => advance; return []
    | .mark .ifWord => return [← conditional fuel start]
    | .mark .whileWord =>
      advance
      let condition ← fetched (← expression fuel 0)
      openBlock true
      expect .doWord
      let body ← block fuel
      expectClosing .endWord .whileWord start
      closeBlock
      return [.loopWhile condition body]
    | .mark .doWord =>
      advance
      let body ← block fuel
      expectClosing .endWord .doWord start
      return [.block body]
    | .mark .forWord => return [← loop fuel start]
    | .mark .repeatWord =>
      advance
      openBlock true
      openBlock false
      let body ← statements fuel
      expectClosing .untilWord .repeatWord start
      let condition ← fetched (← expression fuel 0)
      closeBlock
      closeBlock
      return [.loopUntil body condition]
    | .mark .functionWord =>
      advance
      return [← functionStatement fuel start]
    | .mark .localWord =>
      advance
      if ← accept .functionWord then
        let name ← expectName
        checkVariables 1
        declareVariable name .regular none
        return [.declareFunction (← functionBody fuel false (← line))]
      else return [← declaration fuel]
    | .mark .colon2 =>
      advance
      let name ← expectName
      labelStatement fuel name start
    | .mark .returnWord =>
      advance
      let t ← token
      let values ←
        if endsBlock true t || isMark t .semicolon then pure [] else expressionList fuel
      let returnLine ← lastLine
      discard (accept .semicolon)
      return [.giveBack values returnLine]
    | .mark .breakWord =>
      advance
      requestJump none start
      return [.leave]
    | .mark .gotoWord =>
      advance
      let jumpLine ← line
      let name ← expectName
      requestJump (some name) jumpLine
      return [.jump name]
    | _ => return [← expressionStatement fuel]

/-- Reads a label, after its name, and the labels and semicolons that follow it. -/
def labelStatement : Nat → Bytes → Nat → Parser (List Stmt)
  | 0, _, _ => failNear (bytesOf "chunk has too many syntax levels")
  | fuel + 1, name, start => do
    expect .colon2
    let more ← voidStatements fuel
    declareLabel name start (endsBlock false (← token))
    return .label name :: more

/-- Reads labels and semicolons. -/
def voidStatements : Nat → Parser (List Stmt)
  | 0 => failNear (bytesOf "chunk has too many syntax levels")
  | fuel + 1 => do
    let t ← token
    if isMark t .semicolon || isMark t .colon2 then
      let first ← deeper (statement fuel)
      return first ++ (← voidStatements fuel)
    else return []

/-- Reads a condition, its block and what follows when it does not hold. -/
def conditional : Nat → Nat → Parser Stmt
  | 0, _ => failNear (bytesOf "chunk has too many syntax levels")
  | fuel + 1, start => do
    advance
    let condition ← expression fuel 0
    expect .thenWord
    let condition ← fetched condition
    let thenBody ← block fuel
    match ← token with
    | .mark .elseifWord => return .branch condition thenBody [← conditional fuel start]
    | .mark .elseWord =>
      advance
      let elseBody ← block fuel
      expectClosing .endWord .ifWord start
      return .branch condition thenBody elseBody
    | _ =>
      expectClosing .endWord .ifWord start
      return .branch condition thenBody []

/-- Reads a counting loop or one over an iterator. -/
def loop : Nat → Nat → Parser Stmt
  | 0, _ => failNear (bytesOf "chunk has too many syntax levels")
  | fuel + 1, start => do
    openBlock true
    advance
    let name ← expectName
    match ← token with
    | .mark .assign =>
      checkVariables 4
      advance
      let first ← fetched (← expression fuel 0)
      expect .comma
      let last ← fetched (← expression fuel 0)
      let step ← if ← accept .comma then fetched (← expression fuel 0)
        else pure (.number (.int 1))
      declareHidden 3
      expect .doWord
      let loopLine ← lastLine
      let body ← loopBody fuel [name]
      expectClosing .endWord .forWord start
      closeBlock
      return .loopCount first last step body loopLine
    | .mark .comma | .mark .inWord =>
      checkVariables 5
      let names ← readLoopNames fuel 4 [name]
      expect .inWord
      let loopLine ← line
      let values ← expressionList fuel
      declareHidden 4
      expect .doWord
      let body ← loopBody fuel names
      expectClosing .endWord .forWord start
      closeBlock
      return .loopEach names.length values body loopLine
    | _ => failNear (bytesOf "'=' or 'in' expected")

/-- Reads the body of a loop that declares variables. -/
def loopBody : Nat → List Bytes → Parser (List Stmt)
  | 0, _ => failNear (bytesOf "chunk has too many syntax levels")
  | fuel + 1, names => do
    openBlock false
    declareAll (names.map fun n => (n, .regular))
    let body ← block fuel
    closeBlock
    return body

/-- Reads a function statement, after its first word. -/
def functionStatement : Nat → Nat → Parser Stmt
  | 0, _ => failNear (bytesOf "chunk has too many syntax levels")
  | fuel + 1, start => do
    let name ← expectName
    let (target, isMethod) ← functionName fuel (← readName name)
    let f ← functionBody fuel isMethod start
    checkAssignable target
    return .assign [target.expr] [.function f] start

/-- Reads the fields in the name of a function, and whether the last is a method. -/
def functionName : Nat → Primary → Parser (Primary × Bool)
  | 0, _ => failNear (bytesOf "chunk has too many syntax levels")
  | fuel + 1, p => do
    if ← atMark .dot then
      let object ← fetched p.expr
      advance
      functionName fuel ⟨.index object (.string (← expectName)) 0, none⟩
    else if ← atMark .colon then
      let object ← fetched p.expr
      advance
      return (⟨.index object (.string (← expectName)) 0, none⟩, true)
    else return (p, false)

/-- Reads a declaration of variables, after its first word. A last variable that is constant, with
a value that is known, is not stored. -/
def declaration : Nat → Parser Stmt
  | 0 => failNear (bytesOf "chunk has too many syntax levels")
  | fuel + 1 => do
    let names ← readNames fuel []
    let (before, last) ← if ← accept .assign then
        (do let (before, last) ← expressions fuel; pure (before, some last))
      else pure ([], none)
    let stop ← lastLine
    match names.getLast?, last with
    | some (name, .constant), some last =>
      if names.length == before.length + 1 && isConstant last then
        declareAll names.dropLast
        declareVariable name .constant (some last)
        return .declare names.dropLast before stop
      else
        declareAll names
        return .declare names (before ++ [last.fetchedOn stop]) stop
    | _, last =>
      declareAll names
      return .declare names (before ++ (last.map (Expr.fetchedOn stop)).toList) stop

/-- Reads a call or an assignment. -/
def expressionStatement : Nat → Parser Stmt
  | 0 => failNear (bytesOf "chunk has too many syntax levels")
  | fuel + 1 => do
    let p ← suffixed fuel
    let t ← token
    if isMark t .assign || isMark t .comma then
      let targets ← assignmentTargets fuel [p]
      expect .assign
      let values ← expressionList fuel
      return .assign targets values (← lastLine)
    else
      match p.expr with
      | .call c => return .invoke c
      | _ => failNear (bytesOf "syntax error")

/-- Reads the targets of an assignment after those given, the last of which comes last. -/
def assignmentTargets : Nat → List Primary → Parser (List Expr)
  | 0, _ => failNear (bytesOf "chunk has too many syntax levels")
  | fuel + 1, targets => do
    match targets.getLast? with
    | none => return []
    | some p =>
      unless isTarget p do failNear (bytesOf "syntax error")
      checkAssignable p
      if ← accept .comma then
        let next ← suffixed fuel
        deeper (assignmentTargets fuel (targets ++ [next]))
      else return targets.map Primary.expr

end

end Parser

namespace Chunk

/-- The function of the tokens of a chunk. It takes any arguments, and its one variable from
outside is `_ENV`. -/
def parseTokens (chunk : Bytes) (ls : List Lexeme) : Except Malformed Proto :=
  let fuel := 40 * (ls.length + 2)
  let start : ParserState :=
    { chunk := chunk
      current := ⟨.eof, 1, ByteArray.empty⟩
      rest := ls
      line := 1
      lastLine := 1
      scope := [⟨bytesOf "_ENV", .regular, none, 0⟩]
      functions := [⟨0, true, [], []⟩]
      depth := 0 }
  let main : Parser Proto := do
    Parser.openBlock false
    Parser.advance
    let body ← Parser.statements fuel
    match ← Parser.token with
    | .eof => pure ()
    | _ => Parser.failNear (bytesOf "<eof> expected")
    Parser.closeBlock
    return .mk 0 true body chunk 0
  (main.run start).map Prod.fst

/-- The function of the source of a chunk. -/
def parse (chunk : Bytes) (source : List UInt8) : Except Malformed Proto :=
  parseTokens chunk (tokens source)

end Chunk

end Stencil.Lua
