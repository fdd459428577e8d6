import Stencil.Unit.Dialect

/-!
# Quoted Lua strings

Every text has a Lua string literal that evaluates to exactly that text and stands on one line.
Control characters are written with three decimal digits, so that a digit that follows can never
be read as part of the escape.
-/

namespace Stencil.Lua

/-- The decimal digit of a number below ten. -/
def digitChar (n : Nat) : Char :=
  Char.ofNat ('0'.toNat + n % 10)

/-- Whether a character is an ASCII control character. -/
def isControl (c : Char) : Bool :=
  c.toNat < 0x20 || c.toNat = 0x7F

/-- The spelling of one character inside a quoted string. -/
def quoteChar (c : Char) : List Char :=
  match c with
  | '"' => ['\\', '"']
  | '\\' => ['\\', '\\']
  | '\n' => ['\\', 'n']
  | '\r' => ['\\', 'r']
  | '\t' => ['\\', 't']
  | c =>
    if isControl c then
      ['\\', digitChar (c.toNat / 100), digitChar (c.toNat / 10), digitChar c.toNat]
    else [c]

/-- A text as a Lua string literal, on characters. -/
def quoteChars (text : List Char) : List Char :=
  '"' :: (text.flatMap quoteChar ++ ['"'])

/-- A text as a Lua string literal. -/
def quote (text : String) : String :=
  String.ofList (quoteChars text.toList)

/-- How generated Lua programs bind the host value and write text and values. -/
def dialect : Dialect where
  hostBinding path := "local Host <const> = t4.host(" ++ quote path ++ ")\n"
  writeLiteral text := "t4.write(" ++ quote text ++ ")"
  writeExpression code := "t4.write(" ++ code ++ ")"

end Stencil.Lua
