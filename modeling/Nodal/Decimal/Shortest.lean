/-!
# Shortest decimals

A finite double stands for every real that rounds to it. `shortest` picks, among the decimals in
that interval, one with the fewest digits, and of those the one nearest the double; when two are
equally near it picks the larger. All comparisons are made on natural numbers.
-/

namespace Nodal.Decimal

/-- A positive double, `mantissa * 2 ^ exponent`. -/
structure Dyadic where
  mantissa : Nat
  exponent : Int
  /-- Whether the next double below is only half as far away as the next one above. -/
  narrow : Bool
deriving DecidableEq, Repr

/-- A decimal number, `digits * 10 ^ exponent`. -/
structure Scaled where
  digits : Nat
  exponent : Int
deriving DecidableEq, Repr

namespace Dyadic

/-- The magnitude that the bits of a finite double write. -/
def ofBits (b : UInt64) : Dyadic :=
  let hidden := Nat.pow 2 52
  let e : Nat := (b.toNat / hidden) % 2048
  let f : Nat := b.toNat % hidden
  if e = 0 then ⟨f, -1074, false⟩
  else ⟨hidden + f, (e : Int) - 1075, decide (f = 0 ∧ 1 < e)⟩

/-- Two naturals whose quotient is `2 ^ exponent / 10 ^ place`, so that a multiple of the double's
unit can be compared with a multiple of that power of ten. -/
def ratio (x : Dyadic) (place : Int) : Nat × Nat :=
  (Nat.pow 2 x.exponent.toNat * Nat.pow 10 (-place).toNat,
    Nat.pow 2 (-x.exponent).toNat * Nat.pow 10 place.toNat)

/-- Whether `d * 10 ^ place` rounds to `x`: it lies between the midpoints to the two neighbours,
which themselves count iff the mantissa is even. -/
def readsBack (x : Dyadic) (d : Nat) (place : Int) : Bool :=
  let (unit, grid) := x.ratio place
  -- in quarters of a unit all midpoints are whole numbers
  let low := (if x.narrow then 4 * x.mantissa - 1 else 4 * x.mantissa - 2) * unit
  let high := (4 * x.mantissa + 2) * unit
  let middle := 4 * d * grid
  if x.mantissa % 2 = 0 then decide (low ≤ middle ∧ middle ≤ high)
  else decide (low < middle ∧ middle < high)

/-- The multiple of `10 ^ place` nearest `x` among those that read back as `x`, if any does. -/
def onGrid? (x : Dyadic) (place : Int) : Option Nat :=
  let (unit, grid) := x.ratio place
  let below := x.mantissa * unit / grid
  let above := below + 1
  match x.readsBack below place, x.readsBack above place with
  | true, true => if 2 * x.mantissa * unit < (below + above) * grid then some below else some above
  | true, false => some below
  | false, true => some above
  | false, false => none

/-- The least `k` with `x < 10 ^ k`, for a positive double: the number of digits before the point
once the point is moved four hundred places to the right, moved back. -/
def magnitude (x : Dyadic) : Int :=
  let (unit, grid) := x.ratio (-400)
  (Nat.toDigits 10 (x.mantissa * unit / grid)).length - 400

/-- The double as a decimal without rounding. -/
def exact (x : Dyadic) : Scaled where
  digits := x.mantissa * Nat.pow 2 x.exponent.toNat * Nat.pow 5 (-x.exponent).toNat
  exponent := -((-x.exponent).toNat : Int)

/-- The decimal with the fewest digits that reads back as `x`, the nearest of those to `x`.
Seventeen digits always suffice, so the exact value is never needed; it keeps the function total. -/
def shortest (x : Dyadic) : Scaled :=
  let k := x.magnitude
  let places := (List.range 17).map fun n => k - (n + 1 : Nat)
  (places.findSome? fun place => (x.onGrid? place).map fun d => ⟨d, place⟩).getD x.exact

end Dyadic

end Nodal.Decimal
