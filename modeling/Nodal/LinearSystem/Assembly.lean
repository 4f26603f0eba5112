import Nodal.LinearSystem.Layout
import Nodal.LinearSystem.SparseMatrix
/-!
# Assembling a system

The system of a circuit has one unknown for each node and for each auxiliary unknown of an element.
Its matrix is the sum of the stamps of the elements, and its labels name the unknowns in order: the
nets, then the auxiliary unknowns block by block. The labels are written element by element, each at
the place that its unknown has.
-/

namespace Nodal

/-- A system of linear equations in symbolic form, without its right-hand side. -/
structure LinearSystem (K : Type) where
  matrix : SparseMatrix K
  /-- The index of the first auxiliary unknown of each element that has any. -/
  offsets : List (Option Nat)
  /-- The labels of the unknowns, that of the unknown with index one first. -/
  labels : List String
  layout : Layout

namespace LinearSystem

variable {K : Type}

def size (s : LinearSystem K) : Nat :=
  s.matrix.size

def label? (s : LinearSystem K) (index : Nat) : Option String :=
  match index with
  | 0 => none
  | i + 1 => s.labels[i]?

/-- What the unknown at an index stands for. -/
def classify? (s : LinearSystem K) (index : Nat) : Option Unknown :=
  if s.size < index then none else Unknown.classify? index s.layout.nodeCount

/-- The layout of the unknowns of some elements whose nets are numbered in a table. -/
def layoutOf (elements : List (Element K)) (nodes : NodeTable) : Layout where
  nodeCount := nodes.count
  kinds := elements.map Element.kind

/-- Writes labels at the index `k` and the indices behind it, unless one of these has no place. -/
def place? (places : List String) (k : Nat) : List String → Option (List String)
  | [] => some places
  | label :: rest =>
    if k - 1 < places.length then place? (places.set (k - 1) label) (k + 1) rest else none

/-- Writes the labels of the auxiliary unknowns of elements, whose first indices are given. -/
def placeAll (places : List String) : List (Element K × Option Nat) → Except Error (List String)
  | [] => .ok places
  | (_, none) :: rest => placeAll places rest
  | (e, some k) :: rest =>
    match place? places k e.auxLabels with
    | some places => placeAll places rest
    | none => .error (.notStampable e.name .offsetOutside)

/-- The labels of all unknowns, each written at the place of its unknown. -/
def unknownLabels (elements : List (Element K)) (nodes : NodeTable) :
    Except Error (List String) :=
  let layout := layoutOf elements nodes
  let places := nodes.names ++ List.replicate (layout.size - nodes.count) ""
  placeAll places (elements.zip layout.offsets)

section Assembly

variable [BEq K] [Zero K] [One K] [Add K] [Neg K]

/-- Adds the stamp of one element, whose auxiliary unknowns start at `offset`. -/
def stampInto (m : SparseMatrix K) (e : Element K) (offset : Option Nat) :
    Except Error (SparseMatrix K) :=
  match e.stamp offset with
  | .error error => .error error
  | .ok stamp =>
    match m.apply e.name stamp with
    | (m, none) => .ok m
    | (_, some error) => .error error

def stampAll (m : SparseMatrix K) : List (Element K × Option Nat) → Except Error (SparseMatrix K)
  | [] => .ok m
  | (e, offset) :: rest =>
    match stampInto m e offset with
    | .error error => .error error
    | .ok m => stampAll m rest

/-- Assembles the system of some elements whose nets are numbered in a table. -/
def assemble (elements : List (Element K)) (nodes : NodeTable) : Except Error (LinearSystem K) :=
  let layout := layoutOf elements nodes
  match unknownLabels elements nodes with
  | .error error => .error error
  | .ok labels =>
    match stampAll { size := layout.size } (elements.zip layout.offsets) with
    | .error error => .error error
    | .ok matrix => .ok { matrix, offsets := layout.offsets, labels, layout }

end Assembly

end LinearSystem

end Nodal
