/-!
# Scale suffixes

The letters that may follow a number and scale it by a power of ten. Case matters: `m` is a
thousandth and `M` a million; only the thousand has two spellings.
-/

namespace Nodal.Decimal

/-- A power of ten that a letter behind a number stands for. -/
inductive Suffix where
  | pico
  | nano
  | micro
  | milli
  | kilo
  | mega
  | giga
deriving DecidableEq, Repr

namespace Suffix

def ofChar? : Char → Option Suffix
  | 'p' => some .pico
  | 'n' => some .nano
  | 'u' => some .micro
  | '\u00b5' => some .micro
  | 'm' => some .milli
  | 'k' => some .kilo
  | 'K' => some .kilo
  | 'M' => some .mega
  | 'G' => some .giga
  | _ => none

/-- The double by which the number before the suffix is multiplied. -/
def factor : Suffix → Float
  | .pico => 1e-12
  | .nano => 1e-9
  | .micro => 1e-6
  | .milli => 1e-3
  | .kilo => 1e3
  | .mega => 1e6
  | .giga => 1e9

end Suffix

end Nodal.Decimal
