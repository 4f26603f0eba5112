import Mathlib.Algebra.BigOperators.Group.List.Basic
import Nodal.Proofs.Element.Stamp
import Nodal.Proofs.Expr.Meaning
/-!
# The equations of an element

`Element.currents` and `Element.equations` say what an element means for a network: the current that
leaves the node of each terminal, and the equations that the element imposes. A stamp is just this,
written as entries of a matrix (`Element.Stamped.rowSum_eq`): whatever the vector of unknowns, each
entry row times the vector is the sum of the currents at the node of that row, and of the equation
that has that row.
-/

namespace Nodal

namespace Element

variable {R : Type} [CommRing R] {env : String → R}

/-- The voltage of the node at a terminal, when `x` holds the unknowns. -/
def potential (e : Element R) (x : Nat → R) (terminal : Nat) : R :=
  match e.nodes[terminal]? with
  | some n => x n.index
  | none => 0

/-- The currents at the terminals of an element whose auxiliary unknowns start at `k`. -/
def currents (e : Element R) (env : String → R) (x : Nat → R) (k : Nat) : List R :=
  let v := e.value.eval env
  let control := e.potential x 2 - e.potential x 3
  match e.kind with
  | .resistor => [x k, -x k]
  | .capacitor => [x k, -x k]
  | .inductor => [x k, -x k]
  | .voltageSource => [x k, -x k]
  | .currentSource => [0, 0]
  | .opamp => [0, 0, x k]
  | .vcvs => [x k, -x k, 0, 0]
  | .ccvs => [x (k + 1), -x (k + 1), x k, -x k]
  | .vccs => [-(v * control), v * control, 0, 0]
  | .cccs => [v * x k, -(v * x k), x k, -x k]
  | .port => [0, 0]

/-- The equations of an element whose auxiliary unknowns start at `k`: what must be zero. -/
def equations (e : Element R) (env : String → R) (x : Nat → R) (k : Nat) : List R :=
  let v := e.value.eval env
  let drop := e.potential x 0 - e.potential x 1
  let control := e.potential x 2 - e.potential x 3
  match e.kind with
  | .resistor => [v * drop - x k]
  | .capacitor => [v * drop - x k]
  | .inductor => [v * drop - x k]
  | .voltageSource => [drop]
  | .currentSource => []
  | .opamp => [drop]
  | .vcvs => [drop - v * control]
  | .ccvs => [drop - v * x k, control]
  | .vccs => []
  | .cccs => [control]
  | .port => []

/-- An element has an equation for each auxiliary unknown. -/
lemma length_equations (e : Element R) (env : String → R) (x : Nat → R) (k : Nat) :
    (e.equations env x k).length = e.auxCount := by
  unfold equations auxCount
  cases e.kind <;> rfl

/-- The sum of the currents at the terminals that are connected to node `n`. -/
def currentAt (e : Element R) (env : String → R) (x : Nat → R) (k n : Nat) : R :=
  ((e.nodes.zip (e.currents env x k)).map fun (node, i) => if node.index = n then i else 0).sum

/-- The equation in row `r`, when those of the element stand in the rows from `k` on. -/
def equationAt (e : Element R) (env : String → R) (x : Nat → R) (k r : Nat) : R :=
  (((e.equations env x k).zipIdx k).map fun (q, row) => if row = r then q else 0).sum

/-- The row `r` of a list of entries times the vector `x`. -/
def rowSum (env : String → R) (x : Nat → R) (r : Nat) (es : List (Entry R)) : R :=
  (es.map fun e => if e.row = r then e.term.eval env * x e.col else 0).sum

/-- One at the index `r` and zero elsewhere. -/
def delta (R : Type) [CommRing R] (r i : Nat) : R :=
  if i = r then 1 else 0

/-- A choice by index is a product with the unit vector of this index. -/
lemma ite_eq_delta_mul (r i : Nat) (a : R) : (if i = r then a else 0) = delta R r i * a := by
  simp [delta]

/-- The rows of a stamp are the currents and the equations of its element. -/
theorem Stamped.rowSum_eq {e : Element R} {offset : Option Nat} {es : List (Entry R)}
    (h : e.Stamped offset es) (x : Nat → R) (r : Nat) :
    rowSum env x r es =
      e.currentAt env x (offset.getD 0) r + e.equationAt env x (offset.getD 0) r := by
  -- as products with `delta`, both sides are sums that no longer depend on which indices coincide
  simp only [rowSum, currentAt, equationAt, ite_eq_delta_mul]
  cases h with
  | impedance hf hn =>
    cases hk : e.kind <;> simp [hk, Kind.family?] at hf <;>
    · simp [Stamp.impedance, currents, equations, potential, hk, hn]
      ring
  | voltageSource hk hn =>
    simp [Stamp.voltageSource, currents, equations, potential, hk, hn]
    ring
  | currentSource hk hn => simp [Stamp.currentSource, currents, equations, hk, hn]
  | opamp hk hn =>
    simp [Stamp.opamp, currents, equations, potential, hk, hn]
    ring
  | vcvs hk hn =>
    simp [Stamp.vcvs, currents, equations, potential, hk, hn]
    ring
  | ccvs hk hn =>
    simp [Stamp.ccvs, currents, equations, potential, hk, hn]
    ring
  | vccs hk hn =>
    simp [Stamp.vccs, currents, equations, potential, hk, hn]
    ring
  | cccs hk hn =>
    simp [Stamp.cccs, currents, equations, potential, hk, hn]
    ring
  | port hk hn => simp [currents, equations, hk, hn]

/-- No current flows at a node that no terminal is connected to. -/
lemma currentAt_eq_zero {e : Element R} {n : Nat} (h : ∀ node ∈ e.nodes, node.index ≠ n)
    (x : Nat → R) (k : Nat) : e.currentAt env x k n = 0 := by
  apply List.sum_eq_zero
  intro a ha
  obtain ⟨⟨node, i⟩, hm, rfl⟩ := List.mem_map.1 ha
  exact if_neg (h node (List.of_mem_zip hm).1)

/-- A list that is written from index `k` on has its members behind `k` and nothing elsewhere. -/
lemma sum_zipIdx (as : List R) (k r : Nat) :
    ((as.zipIdx k).map fun (a, i) => if i = r then a else 0).sum =
      if k ≤ r then (as[r - k]?).getD 0 else 0 := by
  induction as generalizing k with
  | nil => simp
  | cons a as ih =>
    simp only [List.zipIdx_cons, List.map_cons, List.sum_cons, ih]
    rcases Nat.lt_trichotomy k r with h | rfl | h
    · have hs : r - k = r - (k + 1) + 1 := by omega
      rw [if_neg (by omega), if_pos (by omega), if_pos (by omega), hs, List.getElem?_cons_succ,
        zero_add]
    · simp
    · rw [if_neg (by omega), if_neg (by omega), if_neg (by omega), zero_add]

/-- An equation of an element stands in its own row, counted from its first auxiliary unknown. -/
lemma equationAt_add {e : Element R} {x : Nat → R} {k j : Nat} {q : R}
    (h : (e.equations env x k)[j]? = some q) : e.equationAt env x k (k + j) = q := by
  rw [equationAt, sum_zipIdx, if_pos (by omega), Nat.add_sub_cancel_left, h, Option.getD_some]

/-- In rows that are not its own an element has no equation. -/
lemma equationAt_eq_zero {e : Element R} {k r : Nat} (h : r < k ∨ k + e.auxCount ≤ r)
    (x : Nat → R) : e.equationAt env x k r = 0 := by
  rw [equationAt, sum_zipIdx]
  split
  · have hl := e.length_equations env x k
    rw [List.getElem?_eq_none (by omega), Option.getD_none]
  · rfl

end Element

end Nodal
