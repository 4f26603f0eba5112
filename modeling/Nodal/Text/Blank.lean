import Nodal.Text.InversionList
/-!
# Blank characters

Two notions of blank. Words on a line are separated by spaces and tabs only (`isSeparator`). A
number may be surrounded by any character of the Unicode property White_Space (`isWhite`), which
`trimWhite` removes.
-/

namespace Nodal.Text

/-- The characters that separate the words of a line: space and tab. -/
def isSeparator (c : Char) : Bool :=
  c == ' ' || c == '\t'

/-- The Unicode property White_Space. -/
def whiteSpace : InversionList where
  flips :=
    [0x9, 0xE, 0x20, 0x21, 0x85, 0x86, 0xA0, 0xA1, 0x1680, 0x1681, 0x2000, 0x200B, 0x2028, 0x202A,
      0x202F, 0x2030, 0x205F, 0x2060, 0x3000, 0x3001]
  ascending := pairwise_of_rises 0 (by decide +kernel)

/-- Whether `c` has the Unicode property White_Space. -/
def isWhite (c : Char) : Bool :=
  whiteSpace.contains c.toNat

def trimWhite (s : List Char) : List Char :=
  ((s.dropWhile isWhite).reverse.dropWhile isWhite).reverse

end Nodal.Text
