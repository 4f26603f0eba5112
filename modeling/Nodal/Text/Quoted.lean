import Nodal.Text.Hidden
/-!
# Quoted text

A text between double quotes in which every character is visible: quotes and backslashes stand
behind a backslash, tab, carriage return, line feed and NUL have letters of their own, and every
other hidden character is written as `\u` with its code point in braces, in lower-case hexadecimal
without leading zeros. `encode` is the text between the quotes.
-/

namespace Nodal.Text.Quoted

/-- The letter that stands for `c` behind a backslash, for the characters that have one. -/
def letter? : Char → Option Char
  | '"' => some '"'
  | '\\' => some '\\'
  | '\t' => some 't'
  | '\r' => some 'r'
  | '\n' => some 'n'
  | '\x00' => some '0'
  | _ => none

def encodeChar (c : Char) : List Char :=
  match letter? c with
  | some l => ['\\', l]
  | none =>
    if isHidden c then ['\\', 'u', '{'] ++ Nat.toDigits 16 c.toNat ++ ['}'] else [c]

/-- The written form of a text, without the quotes around it. -/
def encode (s : List Char) : List Char :=
  s.flatMap encodeChar

end Quoted

/-- The text between double quotes, every character visible. -/
def quoted (s : String) : String :=
  String.ofList ('"' :: Quoted.encode s.toList ++ ['"'])

end Nodal.Text
