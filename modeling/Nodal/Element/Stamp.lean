import Nodal.Element.Basic
import Nodal.Error
/-!
# Stamps

The stamp of an element lists what the element adds to the matrix of its system. Row and column zero
belong to ground. The rows of nodes collect the currents that leave them; the rows of auxiliary
unknowns hold the equation of the element. Terminal pairs are given as `(n, m)`, the positive node
first, and `k` is the index of the first auxiliary unknown.
-/

namespace Nodal

/-- One contribution to a matrix: `term` is added at `(row, col)`. -/
structure Entry (K : Type) where
  row : Nat
  col : Nat
  term : Expr K

namespace Stamp

variable {K : Type} [Zero K] [One K] [Neg K]

/-- An impedance `z`: its current `x k` leaves `n` and enters `m`, and `z * (v n - v m) = x k`. -/
def impedance (n m : Nat) (z : Expr K) (k : Nat) : List (Entry K) :=
  [⟨k, n, z⟩, ⟨n, k, .one⟩, ⟨k, m, -z⟩, ⟨m, k, -.one⟩, ⟨k, k, -.one⟩]

/-- An independent voltage source: its current `x k` leaves `n` and enters `m`, and the difference
`v n - v m` is prescribed by the right-hand side. -/
def voltageSource (n m k : Nat) : List (Entry K) :=
  [⟨k, n, .one⟩, ⟨n, k, .one⟩, ⟨k, m, -.one⟩, ⟨m, k, -.one⟩]

/-- An independent current source acts on the right-hand side only. -/
def currentSource (_n _m : Nat) : List (Entry K) := []

/-- An ideal operational amplifier: its inputs are level and it delivers the current `x k` at its
output. -/
def opamp (plus minus out k : Nat) : List (Entry K) :=
  [⟨k, plus, .one⟩, ⟨k, minus, -.one⟩, ⟨out, k, .one⟩]

/-- A voltage-controlled voltage source with gain `a`: `v n - v m = a * (v p - v q)`. -/
def vcvs (n m p q : Nat) (a : Expr K) (k : Nat) : List (Entry K) :=
  [⟨k, n, .one⟩, ⟨n, k, .one⟩, ⟨k, m, -.one⟩, ⟨m, k, -.one⟩, ⟨k, p, -a⟩, ⟨k, q, a⟩]

/-- A current-controlled voltage source with transresistance `r`: the current `x k` of the
short-circuited controlling pair sets `v n - v m = r * x k`, and the output current is
`x (k + 1)`. -/
def ccvs (n m p q : Nat) (r : Expr K) (k : Nat) : List (Entry K) :=
  [⟨k, n, .one⟩, ⟨n, k + 1, .one⟩, ⟨k, m, -.one⟩, ⟨m, k + 1, -.one⟩, ⟨k + 1, p, .one⟩, ⟨p, k, .one⟩,
    ⟨k + 1, q, -.one⟩, ⟨q, k, -.one⟩, ⟨k, k, -r⟩]

/-- A voltage-controlled current source with transconductance `g`: the current `g * (v p - v q)` is
injected into `n` and drawn from `m`. -/
def vccs (n m p q : Nat) (g : Expr K) : List (Entry K) :=
  [⟨n, p, -g⟩, ⟨n, q, g⟩, ⟨m, p, g⟩, ⟨m, q, -g⟩]

/-- A current-controlled current source with gain `b`: the current `x k` of the short-circuited
controlling pair sets the output current `b * x k`. -/
def cccs (n m p q : Nat) (b : Expr K) (k : Nat) : List (Entry K) :=
  [⟨n, k, b⟩, ⟨m, k, -b⟩, ⟨k, p, .one⟩, ⟨p, k, .one⟩, ⟨k, q, -.one⟩, ⟨q, k, -.one⟩]

end Stamp

namespace Element

variable {K : Type} [Zero K] [One K] [Neg K]

/-- A stamp that needs the index of the first auxiliary unknown. -/
def stampAt (e : Element K) (offset : Option Nat) (stamp : Nat → List (Entry K)) :
    Except Error (List (Entry K)) :=
  match offset with
  | some k => .ok (stamp k)
  | none => .error (.notStampable e.name .noOffset)

/-- The stamp of an element whose auxiliary unknowns start at `offset`. -/
def stamp (e : Element K) (offset : Option Nat) : Except Error (List (Entry K)) :=
  -- the shape of the node list tells at once whether the nets are numbered, and how many there are
  match e.kind, e.nodes with
  | .resistor, [n, m] => e.stampAt offset (Stamp.impedance n.index m.index e.value)
  | .capacitor, [n, m] => e.stampAt offset (Stamp.impedance n.index m.index e.value)
  | .inductor, [n, m] => e.stampAt offset (Stamp.impedance n.index m.index e.value)
  | .voltageSource, [n, m] => e.stampAt offset (Stamp.voltageSource n.index m.index)
  | .currentSource, [n, m] => .ok (Stamp.currentSource n.index m.index)
  | .opamp, [n, m, o] => e.stampAt offset (Stamp.opamp n.index m.index o.index)
  | .vcvs, [n, m, p, q] =>
    e.stampAt offset (Stamp.vcvs n.index m.index p.index q.index e.value)
  | .ccvs, [n, m, p, q] =>
    e.stampAt offset (Stamp.ccvs n.index m.index p.index q.index e.value)
  | .vccs, [n, m, p, q] => .ok (Stamp.vccs n.index m.index p.index q.index e.value)
  | .cccs, [n, m, p, q] =>
    e.stampAt offset (Stamp.cccs n.index m.index p.index q.index e.value)
  | .port, [_, _] => .ok []
  | _, _ => .error (.notStampable e.name .unresolved)

end Element

end Nodal
