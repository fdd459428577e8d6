import Stencil.Lua.Numeral

/-!
# Tokens

The words of Lua source: reserved words and operators, names, strings and numbers. A token is read
from bytes, with the line on which its last byte stands.
-/

namespace Stencil.Lua

/-- A string of bytes, which is what a Lua string is. -/
abbrev Bytes := ByteArray

/-- Strings are compared byte by byte. -/
instance : DecidableEq Bytes :=
  ByteArray.instDecidableEq

/-- The bytes of a text. -/
def bytesOf (s : String) : Bytes :=
  s.toUTF8

/-- A reserved word or an operator. -/
inductive Mark where
  | andWord | breakWord | doWord | elseWord | elseifWord | endWord | falseWord | forWord
  | functionWord | gotoWord | ifWord | inWord | localWord | nilWord | notWord | orWord
  | repeatWord | returnWord | thenWord | trueWord | untilWord | whileWord
  | plus | minus | star | slash | slash2 | percent | caret | hash | ampersand | tilde | bar
  | shiftLeft | shiftRight | equal | notEqual | lessEqual | greaterEqual | less | greater
  | assign | leftParen | rightParen | leftBrace | rightBrace | leftBracket | rightBracket
  | colon2 | semicolon | colon | comma | dot | dot2 | dot3
  deriving Repr, BEq, DecidableEq, Inhabited

/-- The spelling of a reserved word or an operator. -/
def Mark.spelling : Mark → String
  | .andWord => "and" | .breakWord => "break" | .doWord => "do" | .elseWord => "else"
  | .elseifWord => "elseif" | .endWord => "end" | .falseWord => "false" | .forWord => "for"
  | .functionWord => "function" | .gotoWord => "goto" | .ifWord => "if" | .inWord => "in"
  | .localWord => "local" | .nilWord => "nil" | .notWord => "not" | .orWord => "or"
  | .repeatWord => "repeat" | .returnWord => "return" | .thenWord => "then"
  | .trueWord => "true" | .untilWord => "until" | .whileWord => "while"
  | .plus => "+" | .minus => "-" | .star => "*" | .slash => "/" | .slash2 => "//"
  | .percent => "%" | .caret => "^" | .hash => "#" | .ampersand => "&" | .tilde => "~"
  | .bar => "|" | .shiftLeft => "<<" | .shiftRight => ">>" | .equal => "==" | .notEqual => "~="
  | .lessEqual => "<=" | .greaterEqual => ">=" | .less => "<" | .greater => ">"
  | .assign => "=" | .leftParen => "(" | .rightParen => ")" | .leftBrace => "\x7b"
  | .rightBrace => "\x7d" | .leftBracket => "[" | .rightBracket => "]" | .colon2 => "::"
  | .semicolon => ";" | .colon => ":" | .comma => "," | .dot => "." | .dot2 => ".."
  | .dot3 => "..."

/-- The reserved words. -/
def reservedWords : List Mark :=
  [.andWord, .breakWord, .doWord, .elseWord, .elseifWord, .endWord, .falseWord, .forWord,
    .functionWord, .gotoWord, .ifWord, .inWord, .localWord, .nilWord, .notWord, .orWord,
    .repeatWord, .returnWord, .thenWord, .trueWord, .untilWord, .whileWord]

/-- One word of Lua source. -/
inductive Token where
  | mark (m : Mark)
  | name (s : Bytes)
  | string (s : Bytes)
  | number (n : Numeral)
  /-- A byte that starts no token. -/
  | stray (b : UInt8)
  /-- The end of the source. -/
  | eof
  /-- The source cannot be read further, for the reason given. -/
  | fault (reason : Bytes)
  deriving Inhabited

/-- A token with the line it ends on and its spelling. -/
structure Lexeme where
  token : Token
  line : Nat
  spelling : Bytes
  deriving Inhabited

/-- The token of the bytes of a word: a reserved word or a name. -/
def Token.ofWord (word : Bytes) : Token :=
  match reservedWords.find? fun m => bytesOf m.spelling == word with
  | some m => .mark m
  | none => .name word

/-- Bytes between single quotes, cut at a zero byte. -/
def quoted (bytes : Bytes) : Bytes :=
  bytesOf "'" ++ (bytes.data.toList.takeWhile (· ≠ 0)).toByteArray ++ bytesOf "'"

/-- How a message shows a byte that starts no token. -/
def strayText (b : UInt8) : Bytes :=
  if 0x20 ≤ b && b ≤ 0x7E then quoted [b].toByteArray
  else bytesOf ("'<\\" ++ toString b.toNat ++ ">'")

/-- How a message shows the token that it is about. -/
def Lexeme.shown (l : Lexeme) : Bytes :=
  match l.token with
  | .mark m => bytesOf ("'" ++ m.spelling ++ "'")
  | .name _ | .string _ | .number _ => quoted l.spelling
  | .stray b => strayText b
  | .eof | .fault _ => bytesOf "<eof>"

end Stencil.Lua
