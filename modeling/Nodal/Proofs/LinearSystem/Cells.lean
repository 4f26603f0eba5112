import Nodal.Proofs.LinearSystem.Matrix
/-!
# The cells of a matrix

What a write leaves in the cells. The cell that is written to holds what it held and the new term added to
it, or nothing if that is zero (`SparseMatrix.get?_add_self`); all other cells are as before
(`SparseMatrix.get?_add_of_ne`). No cell that is stored is zero (`SparseMatrix.IsSparse`).
-/

namespace Nodal

namespace SparseMatrix

variable {K : Type}

/-- What stands in a cell, zero where nothing is stored. -/
def cell [Zero K] (m : SparseMatrix K) (row col : Nat) : Expr K :=
  (m.get? row col).getD .zero

/-- A place without a cell is empty. -/
lemma get?_eq_none_of_ne {m : SparseMatrix K} {row col : Nat}
    (h : ∀ c ∈ m.cells, ¬(c.row = row ∧ c.col = col)) : m.get? row col = none := by
  have hf : m.cells.find? (isAt row col) = none :=
    List.find?_eq_none.2 fun c hc => mt isAt_iff.1 (h c hc)
  rw [get?, hf, Option.map_none]

/-- No cell stands at a place that comes before all of them. -/
lemma find?_isAt_eq_none {row col : Nat} {t : Expr K} {cells : List (Entry K)}
    (h : ∀ c ∈ cells, Before ⟨row, col, t⟩ c) : cells.find? (isAt row col) = none := by
  rw [List.find?_eq_none]
  intro c hc ha
  obtain ⟨hr, hl⟩ := isAt_iff.1 ha
  have hb := h c hc
  simp only [Before] at hb
  omega

variable [BEq K] [Zero K]

/-- Whether no stored cell is zero. -/
def IsSparse (m : SparseMatrix K) : Prop :=
  ∀ c ∈ m.cells, c.term.isZero = false

/-- An empty matrix stores no zero. -/
lemma isSparse_empty (n : Nat) : IsSparse ({ size := n } : SparseMatrix K) :=
  fun _ h => nomatch h

/-- A cell that is kept is not zero. -/
lemma isZero_of_mem_kept {e x : Entry K} (h : x ∈ kept e) : x.term.isZero = false := by
  unfold kept at h
  split at h
  · cases h
  · rename_i hz
    rw [List.mem_singleton.1 h]
    exact Bool.of_not_eq_true hz

/-- A cell is not found at another place. -/
lemma find?_kept_append_of_ne {row col : Nat} {e : Entry K} (h : ¬(e.row = row ∧ e.col = col))
    (cells : List (Entry K)) :
    (kept e ++ cells).find? (isAt row col) = cells.find? (isAt row col) := by
  have ha : isAt row col e = false := Bool.eq_false_iff.2 (mt isAt_iff.1 h)
  unfold kept
  split
  · rfl
  · simp [ha]

/-- At its own place a new cell is found if it was kept. -/
lemma find?_kept_append (e : Entry K) {cells : List (Entry K)}
    (h : cells.find? (isAt e.row e.col) = none) :
    (kept e ++ cells).find? (isAt e.row e.col) = (kept e).head? := by
  have ha : isAt e.row e.col e = true := isAt_iff.2 ⟨rfl, rfl⟩
  unfold kept
  split
  · exact h
  · simp [ha]

variable [Add K] [Neg K]

/-- An addition stores no zero. -/
lemma IsSparse.add {m : SparseMatrix K} (h : m.IsSparse) (e : Entry K) : (m.add e).IsSparse := by
  unfold SparseMatrix.add
  split
  · exact h
  · intro x hx
    rcases mem_or_mem_kept_of_mem_addTo hx with hx | ⟨_, hx⟩
    · exact h x hx
    · exact isZero_of_mem_kept hx

/-- Adding to a cell leaves the others as they are. -/
lemma find?_addTo_of_ne {row col r c : Nat} (h : ¬(row = r ∧ col = c)) (t : Expr K)
    (cells : List (Entry K)) :
    (addTo row col t cells).find? (isAt r c) = cells.find? (isAt r c) := by
  induction cells with
  | nil =>
    have hk := find?_kept_append_of_ne (e := ⟨row, col, .zero + t⟩) h []
    rwa [List.append_nil] at hk
  | cons e es ih =>
    unfold addTo
    split
    · rename_i ha
      obtain ⟨rfl, rfl⟩ := isAt_iff.1 ha
      have ha' : isAt r c e = false := Bool.eq_false_iff.2 (mt isAt_iff.1 h)
      rw [find?_kept_append_of_ne (e := ⟨e.row, e.col, e.term + t⟩) h, List.find?_cons, ha']
    · split
      · rw [List.find?_cons, List.find?_cons, ih]
      · exact find?_kept_append_of_ne (e := ⟨row, col, .zero + t⟩) h _

/-- The cell that a term is added to holds the sum, unless that is zero. -/
lemma find?_addTo_self {row col : Nat} {t : Expr K} {cells : List (Entry K)}
    (h : cells.Pairwise Before) :
    (addTo row col t cells).find? (isAt row col) =
      (kept ⟨row, col, ((cells.find? (isAt row col)).map Entry.term).getD .zero + t⟩).head? := by
  induction cells with
  | nil =>
    have hk := find?_kept_append (⟨row, col, .zero + t⟩ : Entry K) List.find?_nil
    rwa [List.append_nil] at hk
  | cons e es ih =>
    obtain ⟨he, hes⟩ := List.pairwise_cons.1 h
    unfold addTo
    split
    · -- the cell is there, and no other one behind it
      rename_i ha
      obtain ⟨rfl, rfl⟩ := isAt_iff.1 ha
      have hn : es.find? (isAt e.row e.col) = none := find?_isAt_eq_none he
      rw [find?_kept_append (⟨e.row, e.col, e.term + t⟩ : Entry K) hn, List.find?_cons, ha]
      rfl
    · rename_i ha
      have ha' : isAt row col e = false := Bool.eq_false_iff.2 ha
      split
      · rw [List.find?_cons, List.find?_cons, ha']
        exact ih hes
      · -- the cells from here on come behind the place
        rename_i hp
        rw [isAt_iff] at ha
        rw [precedes_iff] at hp
        have hb : Before ⟨row, col, .zero + t⟩ e := by
          simp only [Before]
          omega
        have hn : (e :: es).find? (isAt row col) = none := by
          refine find?_isAt_eq_none (t := .zero + t) fun c hc => ?_
          rcases List.mem_cons.1 hc with rfl | hc
          · exact hb
          · have hc := he c hc
            simp only [Before] at hb hc ⊢
            omega
        rw [find?_kept_append (⟨row, col, .zero + t⟩ : Entry K) hn, hn]
        rfl

/-- An entry changes no other cell. -/
lemma get?_add_of_ne {m : SparseMatrix K} {e : Entry K} {row col : Nat}
    (h : ¬(e.row = row ∧ e.col = col)) : (m.add e).get? row col = m.get? row col := by
  unfold add
  split
  · rfl
  · rw [get?, get?, find?_addTo_of_ne h]

/-- A cell that a term is written to holds what it held and the term, if that is not zero. -/
theorem get?_add_self {m : SparseMatrix K} (h : m.Ordered) {row col : Nat} {t : Expr K} (hr : row ≠ 0)
    (hc : col ≠ 0) (ht : t.isZero = false) :
    (m.add ⟨row, col, t⟩).get? row col =
      if (m.cell row col + t).isZero then none else some (m.cell row col + t) := by
  have hz : ¬(row = 0 ∨ col = 0 ∨ t.isZero = true) := by simp [hr, hc, ht]
  rw [add, if_neg hz, get?, find?_addTo_self h]
  change ((kept ⟨row, col, m.cell row col + t⟩).head?).map Entry.term = _
  unfold kept
  split <;> rfl

end SparseMatrix

end Nodal
