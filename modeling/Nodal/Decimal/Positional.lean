import Nodal.Decimal.Shortest
/-!
# Positional text of a double

A double is written with the shortest digits that read back as it, in full, never with an exponent.
A whole number has no point, a number below one has a zero before the point, and zeros at the end
of the fraction are left out. Negative zero keeps its sign; the values that are not finite are
written `inf`, `-inf` and `NaN`.
-/

namespace Nodal.Decimal

/-- Places the point among the digits `ds`, which stand for `ds * 10 ^ -n`. -/
def placePoint (ds : List Char) (n : Nat) : List Char :=
  if n = 0 then ds
  else if n < ds.length then ds.take (ds.length - n) ++ '.' :: ds.drop (ds.length - n)
  else '0' :: '.' :: (List.replicate (n - ds.length) '0' ++ ds)

namespace Scaled

/-- Moves the zeros at the end of the digits into the exponent. -/
def strip (d : Scaled) : List Char × Int :=
  let ds := Nat.toDigits 10 d.digits
  let kept := (ds.reverse.dropWhile (· == '0')).reverse
  (kept, d.exponent + (ds.length - kept.length : Nat))

/-- The number written out in full. -/
def text (d : Scaled) : List Char :=
  let (ds, e) := d.strip
  placePoint (ds ++ List.replicate e.toNat '0') (-e).toNat

end Scaled

def magnitudeText (x : Float) : List Char :=
  if x.isInf then ['i', 'n', 'f']
  else if x == 0.0 then ['0']
  else (Dyadic.ofBits x.toBits).shortest.text

def signBit (x : Float) : Bool :=
  decide (Nat.pow 2 63 ≤ x.toBits.toNat)

def text (x : Float) : String :=
  if x.isNaN then "NaN"
  else String.ofList (if signBit x then '-' :: magnitudeText x else magnitudeText x)

end Nodal.Decimal
