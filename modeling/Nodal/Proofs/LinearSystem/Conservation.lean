import Mathlib.LinearAlgebra.Matrix.ToLinearEquiv
import Nodal.Proofs.LinearSystem.Equations
/-!
# Conservation laws of a system

An element that is nowhere connected to ground does not notice when all its terminals are raised by one
voltage, and all current that enters it leaves it again, unless it is an amplifier, whose output current
comes from nowhere. So a system of such elements is blind to a common shift of all nodes, and singular if
there is a node (`LinearSystem.det_toMatrix_eq_zero`). Without amplifiers, what a column of its matrix
holds for the nodes adds up to zero (`LinearSystem.sum_node_rows`).
-/

namespace Nodal

open Finset (Icc)

variable {R : Type} [CommRing R]

/-- A vector that holds `v` for each of `n` nodes, and zero for all else. -/
def nodeShift (n : Nat) (v : R) (i : Nat) : R :=
  if i ∈ Icc 1 n then v else 0

/-- Two sums, over rows and over a list, can be exchanged. -/
lemma sum_sum_map {α : Type} (rows : Finset Nat) (as : List α) (f : Nat → α → R) :
    ∑ r ∈ rows, (as.map (f r)).sum = (as.map fun a => ∑ r ∈ rows, f r a).sum := by
  induction as with
  | nil => simp
  | cons a as ih => simp only [List.map_cons, List.sum_cons, Finset.sum_add_distrib, ih]

namespace Element

/-- Whether no terminal of an element is connected to ground. -/
def Floating {K : Type} (e : Element K) : Prop :=
  ∀ n ∈ e.nodes, 1 ≤ n.index

variable {e : Element R} {env : String → R} {x : Nat → R} {k : Nat}

/-- An element has a current for each of its terminals. -/
lemma length_currents (e : Element R) (env : String → R) (x : Nat → R) (k : Nat) :
    (e.currents env x k).length = e.kind.terminalCount := by
  unfold currents
  cases e.kind <;> rfl

/-- All current that enters an element leaves it, unless it is an amplifier. -/
lemma sum_currents (hk : e.kind ≠ .opamp) (env : String → R) (x : Nat → R) (k : Nat) :
    (e.currents env x k).sum = 0 := by
  unfold currents
  cases h : e.kind with
  | opamp => exact absurd h hk
  | resistor | capacitor | inductor | voltageSource | currentSource | vcvs | ccvs | vccs | cccs | port =>
    simp

section Level

variable {v : R} (hv : ∀ n ∈ e.nodes, x n.index = v) (hl : e.nodes.length = e.kind.terminalCount)
include hv hl

/-- At equal potentials every terminal has that potential. -/
lemma potential_of_level (t : Nat) (ht : t < e.kind.terminalCount) : e.potential x t = v := by
  rw [← hl] at ht
  rw [potential, List.getElem?_eq_getElem ht]
  exact hv _ (List.getElem_mem ht)

variable (ha : ∀ j < e.auxCount, x (k + j) = 0)
include ha

/-- No current flows through an element whose terminals are level. -/
lemma currents_of_level (env : String → R) : ∀ i ∈ e.currents env x k, i = 0 := by
  have hp := potential_of_level hv hl
  unfold auxCount at ha
  unfold currents
  cases hk : e.kind with
  | currentSource | port => simp
  | resistor | capacitor | inductor | voltageSource | opamp | vcvs | cccs =>
    rw [hk] at ha
    simp [show x k = 0 from ha 0 (by decide)]
  | ccvs =>
    rw [hk] at ha
    simp [show x k = 0 from ha 0 (by decide), ha 1 (by decide)]
  | vccs =>
    rw [hk] at hp
    simp [hp 2 (by decide), hp 3 (by decide)]

/-- The equations of an element hold while its terminals are level. -/
lemma equations_of_level (env : String → R) : ∀ q ∈ e.equations env x k, q = 0 := by
  have hp := potential_of_level hv hl
  unfold auxCount at ha
  unfold equations
  cases hk : e.kind with
  | currentSource | port | vccs => simp
  | resistor | capacitor | inductor =>
    rw [hk] at ha hp
    simp [show x k = 0 from ha 0 (by decide), hp 0 (by decide), hp 1 (by decide)]
  | voltageSource | opamp =>
    rw [hk] at hp
    simp [hp 0 (by decide), hp 1 (by decide)]
  | vcvs | cccs =>
    rw [hk] at hp
    simp [hp 0 (by decide), hp 1 (by decide), hp 2 (by decide), hp 3 (by decide)]
  | ccvs =>
    rw [hk] at ha hp
    simp [show x k = 0 from ha 0 (by decide), hp 0 (by decide), hp 1 (by decide), hp 2 (by decide),
      hp 3 (by decide)]

end Level

/-- An element without currents has none at any node. -/
lemma currentAt_of_currents (h : ∀ i ∈ e.currents env x k, i = 0) (n : Nat) :
    e.currentAt env x k n = 0 := by
  apply List.sum_eq_zero
  intro a ha
  obtain ⟨⟨node, i⟩, hm, rfl⟩ := List.mem_map.1 ha
  simp only [h i (List.of_mem_zip hm).2, ite_self]

/-- An element whose equations hold has nothing left in any row. -/
lemma equationAt_of_equations (h : ∀ q ∈ e.equations env x k, q = 0) (r : Nat) :
    e.equationAt env x k r = 0 := by
  apply List.sum_eq_zero
  intro a ha
  obtain ⟨⟨q, i⟩, hm, rfl⟩ := List.mem_map.1 ha
  simp only [h q (List.fst_mem_of_mem_zipIdx hm), ite_self]

/-- The currents at all nodes are those at all terminals, if no terminal is connected to ground. -/
lemma sum_currentAt {nodes : NodeTable} (hc : e.Connected nodes) (hg : e.Floating) (env : String → R)
    (x : Nat → R) (k : Nat) :
    ∑ n ∈ Icc 1 nodes.count, e.currentAt env x k n = (e.currents env x k).sum := by
  have hl : (e.currents env x k).length ≤ e.nodes.length := by rw [length_currents, hc.length_nodes]
  have hterm : ∀ p ∈ e.nodes.zip (e.currents env x k),
      (∑ n ∈ Icc 1 nodes.count, if p.1.index = n then p.2 else 0) = p.2 := by
    intro p hp
    have hn : p.1 ∈ e.nodes := (List.of_mem_zip hp).1
    rw [Finset.sum_ite_eq, if_pos (Finset.mem_Icc.2 ⟨hg p.1 hn, hc.index_le_count p.1 hn⟩)]
  simp only [currentAt]
  rw [sum_sum_map, List.map_congr_left hterm, List.map_snd_zip hl]

end Element

namespace SparseMatrix

variable {m : SparseMatrix R} {env : String → R}

/-- A row times a sum of vectors is the sum of the products. -/
lemma rowTimes_add (m : SparseMatrix R) (env : String → R) (x y : Nat → R) (row : Nat) :
    m.rowTimes env (x + y) row = m.rowTimes env x row + m.rowTimes env y row := by
  simp only [rowTimes, Pi.add_apply, mul_add, Finset.sum_add_distrib]

/-- A row times a shift is the sum over the columns that it shifts. -/
lemma rowTimes_nodeShift {n : Nat} (hn : n ≤ m.size) (v : R) (row : Nat) :
    m.rowTimes env (nodeShift n v) row = (∑ col ∈ Icc 1 n, m.value env row col) * v := by
  simp only [rowTimes, nodeShift, mul_ite, mul_zero, Finset.sum_mul]
  rw [Finset.sum_ite_mem, Finset.inter_eq_right.2 (Finset.Icc_subset_Icc_right hn)]

/-- A row times a unit vector is its cell in the column of the one. -/
lemma rowTimes_delta {col : Nat} (hc : col ∈ Icc 1 m.size) (row : Nat) :
    m.rowTimes env (Element.delta R col) row = m.value env row col := by
  simp only [rowTimes, Element.delta, mul_ite, mul_one, mul_zero]
  rw [Finset.sum_ite_eq', if_pos hc]

/-- The numbers in all cells, as a square matrix. -/
def toMatrix (m : SparseMatrix R) (env : String → R) : Matrix (Fin m.size) (Fin m.size) R :=
  Matrix.of fun i j => m.value env (i + 1) (j + 1)

/-- The rows of a matrix times a vector are its product with the vector. -/
lemma mulVec_toMatrix (m : SparseMatrix R) (env : String → R) (x : Nat → R) (i : Fin m.size) :
    (m.toMatrix env).mulVec (fun j => x (j + 1)) i = m.rowTimes env x (i + 1) := by
  change ∑ j : Fin m.size, m.value env (i + 1) (j + 1) * x (j + 1) = _
  rw [Fin.sum_univ_eq_sum_range fun j => m.value env (i + 1) (j + 1) * x (j + 1),
    Finset.range_eq_Ico, Finset.sum_Ico_add' fun j => m.value env (i + 1) j * x j]
  rfl

end SparseMatrix

namespace LinearSystem

variable {elements : List (Element R)} {nodes : NodeTable} [BEq R] [LawfulBEq R] {s : LinearSystem R}

omit [LawfulBEq R] in
/-- The nodes of a circuit are among the unknowns of its system. -/
lemma count_le_size (hc : ∀ e ∈ elements, e.Connected nodes) (h : assemble elements nodes = .ok s) :
    nodes.count ≤ s.size := by
  rw [(layout_of_assemble hc h).2.2]
  exact Nat.le_add_right _ _

variable (hc : ∀ e ∈ elements, e.Connected nodes) (hg : ∀ e ∈ elements, e.Floating)
  (h : assemble elements nodes = .ok s)
include hc hg h

/-- A shift of all nodes meets every equation. -/
lemma rowTimes_nodeShift (v : R) (env : String → R) {r : Nat} (hr : r ≠ 0) :
    s.matrix.rowTimes env (nodeShift nodes.count v) r = 0 := by
  rw [rowTimes_of_assemble hc h (by simp [nodeShift]) env hr]
  apply List.sum_eq_zero
  intro a ha
  obtain ⟨⟨e, offset⟩, hp, rfl⟩ := List.mem_map.1 ha
  have he := (List.of_mem_zip hp).1
  have hpl := placed_of_mem hp
  have hv : ∀ n ∈ e.nodes, nodeShift nodes.count v n.index = v := fun n hn =>
    if_pos (Finset.mem_Icc.2 ⟨hg e he n hn, (hc e he).index_le_count n hn⟩)
  -- auxiliary unknowns stand behind the nodes
  have ha : ∀ j < e.auxCount, nodeShift nodes.count v (offset.getD 0 + j) = 0 := by
    intro j hj
    apply if_neg
    rw [Finset.mem_Icc]
    cases offset with
    | none =>
      have hz : e.auxCount = 0 := Kind.auxCount_eq_zero_iff.2 (hpl.of_none rfl)
      omega
    | some k =>
      have hk : nodes.count < k := (hpl.of_some k rfl).1
      rw [Option.getD_some]
      omega
  have hl := (hc e he).length_nodes
  rw [Element.currentAt_of_currents (Element.currents_of_level hv hl ha env),
    Element.equationAt_of_equations (Element.equations_of_level hv hl ha env), add_zero]

/-- What a row holds for the nodes adds up to zero. -/
theorem sum_node_columns (env : String → R) {r : Nat} (hr : r ≠ 0) :
    ∑ col ∈ Icc 1 nodes.count, s.matrix.value env r col = 0 := by
  have hrow := rowTimes_nodeShift hc hg h 1 env hr
  rwa [SparseMatrix.rowTimes_nodeShift (count_le_size hc h), mul_one] at hrow

/-- No row tells a vector from the vector with all nodes shifted. -/
theorem rowTimes_add_nodeShift (x : Nat → R) (v : R) (env : String → R) {r : Nat} (hr : r ≠ 0) :
    s.matrix.rowTimes env (x + nodeShift nodes.count v) r = s.matrix.rowTimes env x r := by
  rw [SparseMatrix.rowTimes_add, rowTimes_nodeShift hc hg h v env hr, add_zero]

/-- A system with a node is singular. -/
theorem det_toMatrix_eq_zero [IsDomain R] (hn : 0 < nodes.count) (env : String → R) :
    (s.matrix.toMatrix env).det = 0 := by
  have hle : nodes.count ≤ s.matrix.size := count_le_size hc h
  refine Matrix.exists_mulVec_eq_zero_iff.1 ⟨fun j => nodeShift nodes.count 1 (j + 1), ?_, ?_⟩
  · intro hz
    have h1 : nodeShift nodes.count (1 : R) (0 + 1) = 0 := congrFun hz ⟨0, by omega⟩
    rw [nodeShift, if_pos (Finset.mem_Icc.2 ⟨by omega, by omega⟩)] at h1
    exact one_ne_zero h1
  · funext i
    rw [SparseMatrix.mulVec_toMatrix, rowTimes_nodeShift hc hg h 1 env (Nat.succ_ne_zero _)]
    rfl

/-- What a column holds for the nodes adds up to zero, if there is no amplifier. -/
theorem sum_node_rows (ho : ∀ e ∈ elements, e.kind ≠ .opamp) (env : String → R) {c : Nat}
    (hcol : c ∈ Icc 1 s.size) : ∑ row ∈ Icc 1 nodes.count, s.matrix.value env row c = 0 := by
  have hc0 : Element.delta R c 0 = 0 := if_neg (by rw [Finset.mem_Icc] at hcol; omega)
  have hrow : ∀ row ∈ Icc 1 nodes.count, s.matrix.value env row c =
      ((elements.zip s.offsets).map fun p =>
        p.1.currentAt env (Element.delta R c) (p.2.getD 0) row).sum := by
    intro row hr
    rw [Finset.mem_Icc] at hr
    rw [← SparseMatrix.rowTimes_delta hcol, rowTimes_node hc h hc0 env hr.1 hr.2]
  rw [Finset.sum_congr rfl hrow, sum_sum_map]
  apply List.sum_eq_zero
  intro a ha
  obtain ⟨p, hp, rfl⟩ := List.mem_map.1 ha
  have he : p.1 ∈ elements := (List.of_mem_zip hp).1
  rw [Element.sum_currentAt (hc p.1 he) (hg p.1 he), Element.sum_currents (ho p.1 he)]

end LinearSystem

end Nodal
