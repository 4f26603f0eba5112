import Nodal.LinearSystem.SparseMatrix
/-!
# The meaning of a matrix

Once every symbol has a value, a symbolic matrix has a number in each cell.
-/

namespace Nodal.SparseMatrix

variable {K : Type} [Zero K] [One K] [Add K] [Mul K] [Neg K]

/-- The number in a cell, zero where nothing is stored, when symbol `s` stands for `env s`. -/
def value (m : SparseMatrix K) (env : String → K) (row col : Nat) : K :=
  match m.get? row col with
  | some e => e.eval env
  | none => 0

end Nodal.SparseMatrix
