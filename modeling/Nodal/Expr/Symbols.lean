import Nodal.Expr.Basic
import Nodal.Text.Sorted
/-!
# Symbols of an expression

`names` lists the symbols of an expression as they are read, `symbols` lists each of them once, in
ascending order.
-/

namespace Nodal.Expr

variable {K : Type}

mutual

/-- The symbols that occur in an expression, in reading order, with repetitions. -/
def names : Expr K → List String
  | .num _ => []
  | .sym s => [s]
  | .neg a => names a
  | .sum as => namesAll as
  | .prod as => namesAll as

def namesAll : List (Expr K) → List String
  | [] => []
  | a :: as => names a ++ namesAll as

end

/-- The symbols of an expression, each once, in ascending order. -/
def symbols (a : Expr K) : List String :=
  Text.sorted a.names

end Nodal.Expr
