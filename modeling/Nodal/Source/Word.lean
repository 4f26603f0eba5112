import Nodal.Text.Alphanumeric
/-!
# Shapes of words

Which words of a line can name a net, and which are plain identifiers.
-/

namespace Nodal

/-- The characters of a net name: letters and numbers of any script, and `-`, `:`, `_`, `!`. -/
def isNetChar (c : Char) : Bool :=
  Text.isAlphanumeric c || c == '-' || c == ':' || c == '_' || c == '!'

/-- The characters of an identifier: letters and numbers of any script, and `_`. -/
def isIdentChar (c : Char) : Bool :=
  Text.isAlphanumeric c || c == '_'

/-- Whether a word can name a net, a designator, a subcircuit or a label: one or more net
characters. -/
def isNetName (word : String) : Bool :=
  !word.toList.isEmpty && word.toList.all isNetChar

/-- Whether a word is an identifier: one or more identifier characters. -/
def isIdentifier (word : String) : Bool :=
  !word.toList.isEmpty && word.toList.all isIdentChar

/-- Every character of an identifier may stand in a net name. -/
theorem isNetChar_of_isIdentChar {c : Char} (h : isIdentChar c = true) : isNetChar c = true := by
  simp only [isIdentChar, isNetChar, Bool.or_eq_true] at *
  rcases h with h | h <;> simp [h]

end Nodal
