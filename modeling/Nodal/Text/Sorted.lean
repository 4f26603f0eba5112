import Std.Data.TreeSet.Basic
/-!
# Sorted texts

Texts in ascending order of their code points, each once.
-/

namespace Nodal.Text

/-- The texts of a list in ascending order, without repetitions. -/
def sorted (l : List String) : List String :=
  (Std.TreeSet.ofList l compare).toList

end Nodal.Text
