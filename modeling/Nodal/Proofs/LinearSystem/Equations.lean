import Mathlib.Algebra.BigOperators.Ring.Finset
import Mathlib.Order.Interval.Finset.Nat
import Nodal.Proofs.Element.Equations
import Nodal.Proofs.LinearSystem.Assembly
/-!
# The equations of a system

A system that was assembled from connected elements is made of their equations
(`LinearSystem.represents_of_assemble`): its matrix times any vector gives, in the row of a node, the
sum of all currents at the terminals connected to it, and behind the nodes the equations of the
elements, each in a row of its own. Constants range over a commutative ring, in which they are added
without rounding.
-/

namespace Nodal

open Finset (Icc)

variable {R : Type} [CommRing R]

namespace SparseMatrix

/-- A row of a matrix times the vector `x`. -/
def rowTimes (m : SparseMatrix R) (env : String → R) (x : Nat → R) (row : Nat) : R :=
  ∑ col ∈ Icc 1 m.size, m.value env row col * x col

/-- An entry times a vector is met at its own column only. -/
lemma sum_ite_mul {n : Nat} {x : Nat → R} (hx : x 0 = 0) {e : Entry R} (he : e.col ≤ n)
    (env : String → R) (row : Nat) :
    ∑ col ∈ Icc 1 n, (if e.row = row ∧ e.col = col then e.term.eval env else 0) * x col =
      if e.row = row then e.term.eval env * x e.col else 0 := by
  by_cases hr : e.row = row
  · simp only [hr, true_and, if_true, ite_mul, zero_mul, Finset.sum_ite_eq, Finset.mem_Icc]
    split
    · rfl
    · have hc : e.col = 0 := by omega
      rw [hc, hx, mul_zero]
  · simp [hr]

/-- Entries times a vector add up to their row sum. -/
lemma sum_total_mul {n : Nat} {x : Nat → R} (hx : x 0 = 0) {es : List (Entry R)}
    (hes : ∀ e ∈ es, e.col ≤ n) (env : String → R) (row : Nat) :
    ∑ col ∈ Icc 1 n, total env row col es * x col = Element.rowSum env x row es := by
  induction es with
  | nil => simp [Element.rowSum]
  | cons e es ih =>
    simp only [total_cons, add_mul, Finset.sum_add_distrib]
    rw [sum_ite_mul hx (hes e List.mem_cons_self),
      ih fun e' he' => hes e' (List.mem_cons_of_mem e he')]
    simp [Element.rowSum]

/-- The rows of a matrix that entries were written to are the rows of the entries. -/
lemma rowTimes_foldl_add [BEq R] [LawfulBEq R] {n : Nat} {x : Nat → R} (hx : x 0 = 0)
    {es : List (Entry R)} (hes : ∀ e ∈ es, e.col ≤ n) (env : String → R) {row : Nat}
    (hr : row ≠ 0) :
    (es.foldl SparseMatrix.add { size := n }).rowTimes env x row = Element.rowSum env x row es := by
  rw [rowTimes, size_foldl_add, ← sum_total_mul hx hes]
  apply Finset.sum_congr rfl
  intro col hcol
  have hc : col ≠ 0 := by
    rw [Finset.mem_Icc] at hcol
    omega
  rw [value_foldl_add_empty n es hr hc]

end SparseMatrix

namespace LinearSystem

/-- Whether a system is made of the equations of elements. -/
structure Represents (s : LinearSystem R) (elements : List (Element R)) (nodes : NodeTable) :
    Prop where
  /-- The row of a node is the sum of the currents at the terminals connected to it. -/
  node_rows : ∀ env x, x 0 = 0 → ∀ n, 1 ≤ n → n ≤ nodes.count →
    s.matrix.rowTimes env x n =
      ((elements.zip s.offsets).map fun p => p.1.currentAt env x (p.2.getD 0) n).sum
  /-- The rows from the offset of an element on are its equations. -/
  aux_rows : ∀ env x, x 0 = 0 → ∀ (i : Nat) e k, elements[i]? = some e →
    s.offsets[i]? = some (some k) → ∀ (j : Nat) q, (e.equations env x k)[j]? = some q →
      s.matrix.rowTimes env x (k + j) = q
  /-- There are no other rows. -/
  no_others : ∀ r, 1 ≤ r → r ≤ s.size → r ≤ nodes.count ∨
    ∃ (i : Nat) (e : Element R) (k j : Nat), elements[i]? = some e ∧
      s.offsets[i]? = some (some k) ∧ j < e.auxCount ∧ r = k + j

/-- The rows of all stamps are the currents and the equations of all elements. -/
lemma Stamps.rowSum_flatten {ps : List (Element R × Option Nat)} {stamps : List (List (Entry R))}
    (h : Stamps ps stamps) (env : String → R) (x : Nat → R) (r : Nat) :
    Element.rowSum env x r stamps.flatten =
      (ps.map fun p => p.1.currentAt env x (p.2.getD 0) r +
        p.1.equationAt env x (p.2.getD 0) r).sum := by
  induction h with
  | nil => rfl
  | @cons p stamp ps stamps hp _ ih =>
    have happ : Element.rowSum env x r (stamp ++ stamps.flatten) =
        Element.rowSum env x r stamp + Element.rowSum env x r stamps.flatten := by
      simp [Element.rowSum]
    rw [List.flatten_cons, happ, hp.rowSum_eq, ih, List.map_cons, List.sum_cons]

/-- A sum in which one place alone counts. -/
lemma sum_map_of_unique {α : Type} {as : List α} {f : α → R} {i : Nat} {a : α}
    (hi : as[i]? = some a) (h : ∀ (j : Nat) b, as[j]? = some b → j ≠ i → f b = 0) :
    (as.map f).sum = f a := by
  induction as generalizing i with
  | nil => cases hi
  | cons b as ih =>
    rw [List.map_cons, List.sum_cons]
    cases i with
    | zero =>
      cases hi
      have hz : (as.map f).sum = 0 := by
        apply List.sum_eq_zero
        intro c hc
        obtain ⟨b, hb, rfl⟩ := List.mem_map.1 hc
        obtain ⟨j, hj⟩ := List.mem_iff_getElem?.1 hb
        exact h (j + 1) b hj (Nat.succ_ne_zero j)
      rw [hz, add_zero]
    | succ i =>
      have hb : f b = 0 := h 0 b rfl (Nat.succ_ne_zero i).symm
      have hs : (as.map f).sum = f a := ih hi fun j c hj hne => h (j + 1) c hj fun he => hne (by omega)
      rw [hb, hs, zero_add]

section Rows

variable {elements : List (Element R)} {nodes : NodeTable}

/-- No element has an equation in the row of a node. -/
lemma equationAt_of_le {p : Element R × Option Nat}
    (hp : p ∈ elements.zip (layoutOf elements nodes).offsets) {r : Nat} (hr : r ≤ nodes.count)
    (env : String → R) (x : Nat → R) : p.1.equationAt env x (p.2.getD 0) r = 0 := by
  have hpl := placed_of_mem hp
  obtain ⟨e, offset⟩ := p
  apply Element.equationAt_eq_zero
  cases offset with
  | none =>
    have ha : e.auxCount = 0 := Kind.auxCount_eq_zero_iff.2 (hpl.of_none rfl)
    right
    simp [ha]
  | some k =>
    have hk : nodes.count < k := (hpl.of_some k rfl).1
    left
    exact Nat.lt_of_le_of_lt hr hk

/-- An element that has an equation in a row owns the row. -/
lemma owns_of_equationAt {i : Nat} {p : Element R × Option Nat}
    (hp : (elements.zip (layoutOf elements nodes).offsets)[i]? = some p) {env : String → R}
    {x : Nat → R} {r : Nat} (h : p.1.equationAt env x (p.2.getD 0) r ≠ 0) :
    (layoutOf elements nodes).Owns i r := by
  have hpl := placed_of_mem (List.mem_of_getElem? hp)
  obtain ⟨he, ho⟩ := List.getElem?_zip_eq_some.1 hp
  obtain ⟨e, offset⟩ := p
  have hr : ¬(r < offset.getD 0 ∨ offset.getD 0 + e.auxCount ≤ r) :=
    mt (fun hr => Element.equationAt_eq_zero hr x) h
  cases offset with
  | none =>
    have ha : e.auxCount = 0 := Kind.auxCount_eq_zero_iff.2 (hpl.of_none rfl)
    simp [ha] at hr
  | some k =>
    refine ⟨e.kind, k, by simp [layoutOf, he], ho, ?_, ?_⟩
    · simp only [Option.getD_some] at hr
      omega
    · simp only [Option.getD_some, Element.auxCount] at hr
      omega

variable [BEq R] {s : LinearSystem R}

/-- Every row behind the nodes belongs to an element. -/
lemma exists_owner (hc : ∀ e ∈ elements, e.Connected nodes)
    (h : assemble elements nodes = .ok s) {r : Nat} (h1 : nodes.count < r) (h2 : r ≤ s.size) :
    ∃ (i : Nat) (e : Element R) (k j : Nat), elements[i]? = some e ∧
      s.offsets[i]? = some (some k) ∧ j < e.auxCount ∧ r = k + j := by
  obtain ⟨-, ho, hs⟩ := layout_of_assemble hc h
  rw [hs] at h2
  obtain ⟨i, kind, k, hk, hof, h3, h4⟩ := Layout.exists_owns_iff.2 ⟨h1, h2⟩
  simp only [layoutOf, List.getElem?_map, Option.map_eq_some_iff] at hk
  obtain ⟨e, he, rfl⟩ := hk
  refine ⟨i, e, k, r - k, he, ho ▸ hof, ?_, ?_⟩
  · change r - k < e.kind.auxCount
    omega
  · omega

variable [LawfulBEq R]

/-- A row of the system is what the elements bring to it: their currents at a node and their equations. -/
lemma rowTimes_of_assemble (hc : ∀ e ∈ elements, e.Connected nodes)
    (h : assemble elements nodes = .ok s) {x : Nat → R} (hx : x 0 = 0) (env : String → R) {r : Nat}
    (hr : r ≠ 0) :
    s.matrix.rowTimes env x r =
      ((elements.zip (layoutOf elements nodes).offsets).map fun p =>
        p.1.currentAt env x (p.2.getD 0) r + p.1.equationAt env x (p.2.getD 0) r).sum := by
  obtain ⟨labels, stamps, -, -, hs, hle, ha⟩ := assemble_eq_ok hc
  rw [ha] at h
  cases h
  rw [SparseMatrix.rowTimes_foldl_add hx (fun e he => (hle e he).2) env hr, hs.rowSum_flatten]

/-- The row of a node holds the currents at the terminals connected to it. -/
lemma rowTimes_node (hc : ∀ e ∈ elements, e.Connected nodes)
    (h : assemble elements nodes = .ok s) {x : Nat → R} (hx : x 0 = 0) (env : String → R) {n : Nat}
    (h1 : 1 ≤ n) (hn : n ≤ nodes.count) :
    s.matrix.rowTimes env x n =
      ((elements.zip s.offsets).map fun p => p.1.currentAt env x (p.2.getD 0) n).sum := by
  rw [rowTimes_of_assemble hc h hx env (by omega), (layout_of_assemble hc h).2.1]
  congr 1
  apply List.map_congr_left
  intro p hp
  rw [equationAt_of_le hp hn, add_zero]

/-- The rows behind the offset of an element hold its equations. -/
lemma rowTimes_aux (hc : ∀ e ∈ elements, e.Connected nodes)
    (h : assemble elements nodes = .ok s) {x : Nat → R} (hx : x 0 = 0) (env : String → R) {i : Nat}
    {e : Element R} {k : Nat} (hi : elements[i]? = some e) (hk : s.offsets[i]? = some (some k))
    {j : Nat} {q : R} (hq : (e.equations env x k)[j]? = some q) :
    s.matrix.rowTimes env x (k + j) = q := by
  rw [(layout_of_assemble hc h).2.1] at hk
  have hp : (elements.zip (layoutOf elements nodes).offsets)[i]? = some (e, some k) :=
    List.getElem?_zip_eq_some.2 ⟨hi, hk⟩
  have hkn : nodes.count < k := ((placed_of_mem (List.mem_of_getElem? hp)).of_some k rfl).1
  have hj : j < e.auxCount := by
    rw [← e.length_equations env x k]
    exact (List.getElem?_eq_some_iff.1 hq).1
  have hown : (layoutOf elements nodes).Owns i (k + j) :=
    ⟨e.kind, k, by simp [layoutOf, hi], hk, Nat.le_add_right k j, Nat.add_lt_add_left hj k⟩
  -- no terminal is connected to a row behind the nodes
  have hcur : ∀ p ∈ elements.zip (layoutOf elements nodes).offsets,
      p.1.currentAt env x (p.2.getD 0) (k + j) = 0 := by
    intro p hp
    apply Element.currentAt_eq_zero
    intro n hn
    have := (hc p.1 (List.of_mem_zip hp).1).index_le_count n hn
    omega
  rw [rowTimes_of_assemble hc h hx env (by omega), sum_map_of_unique hp]
  · rw [hcur _ (List.mem_of_getElem? hp), zero_add]
    exact Element.equationAt_add hq
  · intro i' p hp' hne
    rw [hcur p (List.mem_of_getElem? hp'), zero_add]
    by_contra hq'
    exact hne ((owns_of_equationAt hp' hq').unique hown)

/-- Assembling connected elements gives the system of their equations. -/
theorem represents_of_assemble (hc : ∀ e ∈ elements, e.Connected nodes)
    (h : assemble elements nodes = .ok s) : s.Represents elements nodes where
  node_rows env _ hx _ h1 hn := rowTimes_node hc h hx env h1 hn
  aux_rows env _ hx _ _ _ hi hk _ _ hq := rowTimes_aux hc h hx env hi hk hq
  no_others r _ h2 := by
    rcases Nat.lt_or_ge nodes.count r with hlt | hle
    · exact .inr (exists_owner hc h hlt h2)
    · exact .inl hle

end Rows

end LinearSystem

end Nodal
