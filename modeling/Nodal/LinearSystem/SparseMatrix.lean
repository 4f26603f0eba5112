import Nodal.Element.Stamp
/-!
# Sparse symbolic matrices

A square matrix that stores the cells that are not zero, in the order of their rows and, within a
row, of their columns. Rows and columns count from one; what is written to row or column zero, the
row and column of ground, is discarded.
-/

namespace Nodal

/-- A square matrix over symbolic scalars. -/
structure SparseMatrix (K : Type) where
  size : Nat
  /-- The cells that are not zero, by rows. -/
  cells : List (Entry K) := []

namespace SparseMatrix

variable {K : Type}

/-- Whether the cell of an entry comes before the cell `(row, col)`. -/
def precedes (e : Entry K) (row col : Nat) : Bool :=
  e.row < row || (e.row == row && e.col < col)

/-- Whether an entry stands at the cell `(row, col)`. -/
def isAt (row col : Nat) (e : Entry K) : Bool :=
  e.row == row && e.col == col

/-- The value of a cell, if it is not zero. -/
def get? (m : SparseMatrix K) (row col : Nat) : Option (Expr K) :=
  (m.cells.find? (isAt row col)).map Entry.term

def nonzeroCount (m : SparseMatrix K) : Nat :=
  m.cells.length

/-- Whether row and column of an entry lie within the matrix or at ground. -/
def admits (m : SparseMatrix K) (e : Entry K) : Bool :=
  e.row ≤ m.size && e.col ≤ m.size

section Writing

variable [BEq K] [Zero K] [Add K] [Neg K]

/-- An entry as a list, empty if its term is zero. -/
def kept (e : Entry K) : List (Entry K) :=
  if e.term.isZero then [] else [e]

/-- Adds a term to a cell of an ordered list of cells. A cell that becomes zero is left out. -/
def addTo (row col : Nat) (term : Expr K) : List (Entry K) → List (Entry K)
  | [] => kept ⟨row, col, .zero + term⟩
  | e :: es =>
    if isAt row col e then kept ⟨row, col, e.term + term⟩ ++ es
    else if precedes e row col then e :: addTo row col term es
    else kept ⟨row, col, .zero + term⟩ ++ e :: es

/-- Adds a term to a cell. Zero terms and terms at ground are discarded. -/
def add (m : SparseMatrix K) (e : Entry K) : SparseMatrix K :=
  if e.row = 0 ∨ e.col = 0 ∨ e.term.isZero then m
  else { m with cells := addTo e.row e.col e.term m.cells }

/-- Adds entries one after another, up to the first that lies outside the matrix: the matrix with
the entries before it, and that entry. -/
def addAll (m : SparseMatrix K) : List (Entry K) → SparseMatrix K × Option (Entry K)
  | [] => (m, none)
  | e :: es => if m.admits e then (m.add e).addAll es else (m, some e)

/-- Adds the stamp of the element called `name`: the matrix so far, and the error if an entry lies
outside of it. -/
def apply (m : SparseMatrix K) (name : String) (stamp : List (Entry K)) :
    SparseMatrix K × Option Error :=
  match m.addAll stamp with
  | (m', none) => (m', none)
  | (m', some e) => (m', some (.notStampable name (.outside e.row e.col m.size)))

end Writing

def cellText (e : Entry Float) : String :=
  "M[" ++ toString e.row ++ "," ++ toString e.col ++ "] = " ++ e.term.text ++ "\n"

/-- The text of a matrix, a line for each cell that is not zero. -/
def text (m : SparseMatrix Float) : String :=
  String.join (m.cells.map cellText)

instance : ToString (SparseMatrix Float) where
  toString := text

end SparseMatrix

end Nodal
