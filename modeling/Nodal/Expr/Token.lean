import Nodal.Expr.Basic
import Nodal.Decimal.Numeral
/-!
# Value tokens

The value at the end of an element line is a numeral or, if it is not one, a symbol of that name.
-/

namespace Nodal.Expr

/-- The expression that a value token writes. -/
def ofToken (token : String) : Expr Float :=
  match Decimal.value? token with
  | some x => .num x
  | none => .sym token

end Nodal.Expr
