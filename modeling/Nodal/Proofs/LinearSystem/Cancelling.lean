import Nodal.Proofs.Expr.Opposites
import Nodal.Proofs.LinearSystem.Cells
/-!
# Opposite terms in a cell

A single term and its negation cancel, and leave nothing of them in a matrix that they are written to, unless
the arithmetic of doubles overflowed while the term was built (`Expr.cancels_of_generated`). A sum does not
cancel as a whole, nor does an infinite constant (`Expr.not_cancels_sum`).
-/

namespace Nodal

namespace SparseMatrix

/-- Writing an expression and then its negation to an empty cell leaves the matrix as it was iff they cancel. -/
lemma get?_add_opposite_iff {m : SparseMatrix Float} (hm : m.Ordered) {row col : Nat} (hr : row ≠ 0)
    (hc : col ≠ 0) (he : m.get? row col = none) {a : Expr Float} (ha : a.Normal) :
    (∀ r c, ((m.add ⟨row, col, a⟩).add ⟨row, col, -a⟩).get? r c = m.get? r c) ↔
      (a + -a).isZero = true := by
  by_cases h0 : a.isZero = true
  · have hn : (-a).isZero = true := ha.isZero_neg.trans h0
    have h1 : m.add ⟨row, col, a⟩ = m := if_pos (.inr (.inr h0))
    have h2 : m.add ⟨row, col, -a⟩ = m := if_pos (.inr (.inr hn))
    rw [h1, h2]
    exact ⟨fun _ => Expr.isZero_add_neg_of_isZero h0, fun _ _ _ => rfl⟩
  · have hz : a.isZero = false := Bool.of_not_eq_true h0
    have hnz : (-a).isZero = false := ha.isZero_neg.trans hz
    obtain ⟨hza, hzn⟩ := Expr.isZero_zero_add_add_neg hz
    have hcell : m.cell row col = .zero := by rw [cell, he, Option.getD_none]
    have h1 : (m.add ⟨row, col, a⟩).get? row col = some (.zero + a) := by
      rw [get?_add_self hm hr hc hz, hcell, hza]
      rfl
    have hcell' : (m.add ⟨row, col, a⟩).cell row col = .zero + a := by rw [cell, h1, Option.getD_some]
    have h2 := get?_add_self (hm.add ⟨row, col, a⟩) hr hc hnz
    rw [hcell', hzn] at h2
    -- behind both writes the cell is empty just if the sum of the terms is zero
    constructor
    · intro h
      have hrc := h row col
      rw [h2, he] at hrc
      by_contra hf
      rw [if_neg hf] at hrc
      cases hrc
    · intro h r c
      rw [if_pos h] at h2
      by_cases hrc : row = r ∧ col = c
      · obtain ⟨rfl, rfl⟩ := hrc
        rw [h2, he]
      · rw [get?_add_of_ne hrc, get?_add_of_ne hrc]

end SparseMatrix

namespace Expr

/-- A single term that the operators build cancels with its negation, and then leaves no entry in an empty
cell, unless a constant has overflowed. -/
theorem cancels_of_generated {a : Expr Float} (h : Generated FiniteLeaf a) (hs : a.IsSingle) :
    ((a - a).isZero = true ↔ a.IsDefinite) ∧ ((a + -a).isZero = true ↔ a.IsDefinite) ∧
      ∀ (m : SparseMatrix Float) (row col : Nat), m.Ordered → 1 ≤ row → 1 ≤ col →
        m.get? row col = none →
        ((∀ r c, ((m.add ⟨row, col, a⟩).add ⟨row, col, -a⟩).get? r c = m.get? r c) ↔ a.IsDefinite) := by
  have hn : a.Normal := h.normal fun _ => FiniteLeaf.normal
  have hz : (a + -a).isZero = true ↔ a.IsDefinite := (isZero_add_neg_iff hn).trans (and_iff_right hs)
  refine ⟨hz, hz, fun m row col hm hr hc he => ?_⟩
  rw [SparseMatrix.get?_add_opposite_iff hm (Nat.ne_of_gt hr) (Nat.ne_of_gt hc) he hn, hz]

/-- A product cancels, and leaves the cell of a matrix empty that has another one. -/
theorem cancels_of_generated_product :
    let a : Expr Float := .num 2 * -.sym "g" * .sym "h"
    let m : SparseMatrix Float := ({ size := 2 } : SparseMatrix Float).add ⟨2, 1, .one⟩
    Generated FiniteLeaf a ∧ a.IsSingle ∧ m.Ordered ∧ m.get? 1 2 = none ∧ (a - a).isZero = true ∧
      (a + -a).isZero = true ∧
      ∀ r c, ((m.add ⟨1, 2, a⟩).add ⟨1, 2, -a⟩).get? r c = m.get? r c := by
  intro a m
  have ha : a = .neg (.prod [.num 2, .sym "g", .sym "h"]) := rfl
  have h : Generated FiniteLeaf a :=
    .mul (.mul (.given (.num rfl)) (.neg (.given (.sym "g")))) (.given (.sym "h"))
  have hs : a.IsSingle := by
    rw [ha]
    exact ⟨nofun, nofun⟩
  have hd : a.IsDefinite := by
    rw [ha]
    exact ⟨by decide +kernel, nofun⟩
  have hm : m.Ordered := (SparseMatrix.ordered_empty 2).add _
  have he : m.get? 1 2 = none := rfl
  obtain ⟨h1, h2, h3⟩ := cancels_of_generated h hs
  exact ⟨h, hs, hm, he, h1.2 hd, h2.2 hd, (h3 m 1 2 hm (by decide) (by decide) he).2 hd⟩

/-- A sum of two symbols does not cancel with its negation, and neither does a constant that has overflowed.
-/
theorem not_cancels_sum :
    let s : Expr Float := .sym "x" + .sym "y"
    let d : Expr Float := .num 1e308 * .num 10
    let m : SparseMatrix Float := { size := 1 }
    (Generated FiniteLeaf s ∧ (s - s).isZero = false ∧ (s + -s).isZero = false ∧
      (((m.add ⟨1, 1, s⟩).add ⟨1, 1, -s⟩).get? 1 1).isSome = true) ∧
    Generated FiniteLeaf d ∧ (d - d).isZero = false ∧ (d + -d).isZero = false ∧
      (((m.add ⟨1, 1, d⟩).add ⟨1, 1, -d⟩).get? 1 1).isSome = true := by
  intro s d m
  have hx : FiniteLeaf (.num 1e308) := .num (by decide +kernel)
  have hy : FiniteLeaf (.num 10) := .num (by decide +kernel)
  exact ⟨⟨.add (.given (.sym "x")) (.given (.sym "y")), by decide +kernel, by decide +kernel,
    by decide +kernel⟩, .mul (.given hx) (.given hy), by decide +kernel, by decide +kernel,
    by decide +kernel⟩

end Expr

end Nodal
