import Nodal.Decimal.Suffix
import Nodal.Text.Blank
/-!
# Numerals

A numeral is an optional sign, ASCII digits with at most one point among them and at least one digit
in all, an optional exponent (`e` or `E`, an optional sign, at least one digit), and an optional
scale suffix. `Numeral.read?` takes a text apart and refuses everything else; `Numeral.value` is the
double nearest the number before the suffix, multiplied by the suffix's factor.
-/

namespace Nodal.Decimal

/-- A number as written, taken apart. -/
structure Numeral where
  negative : Bool
  whole : List Char
  fraction : List Char
  /-- The power of ten behind the exponent mark, zero without one. -/
  exponent : Int
  suffix : Option Suffix
deriving DecidableEq, Repr

/-- The natural number that a list of decimal digits writes. -/
def ofDigits (ds : List Char) : Nat :=
  ds.foldl (fun n c => 10 * n + (c.toNat - '0'.toNat)) 0

/-- The number of decimal digits of `n`, one for zero. -/
def digitCount (n : Nat) : Nat :=
  (Nat.toDigits 10 n).length

/-- An optional sign, and the text behind it. -/
def readSign : List Char → Bool × List Char
  | '-' :: s => (true, s)
  | '+' :: s => (false, s)
  | s => (false, s)

/-- The digits behind an optional point, and the text behind them. -/
def readFraction : List Char → List Char × List Char
  | '.' :: s => (s.takeWhile Char.isDigit, s.dropWhile Char.isDigit)
  | s => ([], s)

/-- The signed digits behind an exponent mark, and the text behind them. -/
def readPower? (s : List Char) : Option (Int × List Char) :=
  let (negative, s) := readSign s
  match s.takeWhile Char.isDigit with
  | [] => none
  | ds =>
    let power : Int := ofDigits ds
    some (if negative then -power else power, s.dropWhile Char.isDigit)

/-- An optional exponent, and the text behind it; a mark without digits is refused. -/
def readExponent? : List Char → Option (Int × List Char)
  | 'e' :: s => readPower? s
  | 'E' :: s => readPower? s
  | s => some (0, s)

/-- An optional suffix that ends the text. -/
def readSuffix? : List Char → Option (Option Suffix)
  | [] => some none
  | [c] => (Suffix.ofChar? c).map some
  | _ => none

namespace Numeral

/-- Takes a written number apart, or answers `none` where the text is not a numeral. -/
def read? (s : List Char) : Option Numeral :=
  let (negative, s) := readSign s
  let whole := s.takeWhile Char.isDigit
  let (fraction, s) := readFraction (s.dropWhile Char.isDigit)
  if whole ++ fraction = [] then none
  else
    (readExponent? s).bind fun (exponent, s) =>
      (readSuffix? s).map fun suffix => { negative, whole, fraction, exponent, suffix }

/-- The integer that all digits write when the point is left out. -/
def mantissa (n : Numeral) : Nat :=
  ofDigits (n.whole ++ n.fraction)

/-- The power of ten that scales the mantissa to the number before the suffix. -/
def power (n : Numeral) : Int :=
  n.exponent - n.fraction.length

end Numeral

/-- The double nearest `m * 10 ^ e`, ties to even. Powers so large or so small that every double is
beyond or below them are answered without computing them. -/
def nearest (m : Nat) (e : Int) : Float :=
  if m = 0 ∨ digitCount m + e ≤ -324 then 0.0
  else if 309 < digitCount m + e then Float.ofScientific 1 false 400
  else Float.ofScientific m (decide (e < 0)) e.natAbs

namespace Numeral

/-- The double nearest the number before the suffix, with its sign. -/
def unscaled (n : Numeral) : Float :=
  if n.negative then -(nearest n.mantissa n.power) else nearest n.mantissa n.power

/-- The value of a numeral: the number before the suffix times the suffix's factor. -/
def value (n : Numeral) : Float :=
  match n.suffix with
  | none => n.unscaled
  | some suffix => n.unscaled * suffix.factor

end Numeral

/-- Whether a text is a numeral, with nothing around it. -/
def isNumeral (s : String) : Bool :=
  (Numeral.read? s.toList).isSome

/-- The number that a text writes, white space around it left aside. -/
def value? (s : String) : Option Float :=
  (Numeral.read? (Text.trimWhite s.toList)).map Numeral.value

end Nodal.Decimal
