/-!
# Blank characters

The characters of the Unicode property `White_Space`, and trimming by them.

* `isBlank`: membership in the table;
* `trim`: a text without its outer blanks, on characters and on strings.
-/

namespace Stencil.Text

/-- The ranges of the Unicode property `White_Space`, first and last code point. -/
def blankRanges : List (Nat × Nat) :=
  [(0x09, 0x0D), (0x20, 0x20), (0x85, 0x85), (0xA0, 0xA0), (0x1680, 0x1680), (0x2000, 0x200A),
    (0x2028, 0x2029), (0x202F, 0x202F), (0x205F, 0x205F), (0x3000, 0x3000)]

/-- Whether a character has the property `White_Space`. -/
def isBlank (c : Char) : Bool :=
  blankRanges.any fun r => r.1 ≤ c.toNat && c.toNat ≤ r.2

/-- A text without its leading blanks. -/
def trimStart (cs : List Char) : List Char :=
  cs.dropWhile isBlank

/-- A text without its trailing blanks. -/
def trimEnd (cs : List Char) : List Char :=
  (cs.reverse.dropWhile isBlank).reverse

/-- A text without its outer blanks. -/
def trim (cs : List Char) : List Char :=
  trimEnd (trimStart cs)

/-- Whether every character of a text is blank; the empty text is. -/
def allBlank (cs : List Char) : Bool :=
  cs.all isBlank

/-- A string without its outer blanks. -/
def trimmed (s : String) : String :=
  String.ofList (trim s.toList)

end Stencil.Text
