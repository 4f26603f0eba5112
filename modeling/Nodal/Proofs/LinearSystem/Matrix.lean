import Mathlib.Algebra.BigOperators.Group.List.Basic
import Mathlib.Tactic.Lemma
import Nodal.LinearSystem.Meaning
import Nodal.Proofs.Expr.Meaning
/-!
# Writing to a matrix

Writing entries to a matrix that admits them keeps its cells within the matrix (`InRange`) and in
order (`Ordered`). Over a commutative ring of constants the value of a cell is then what it was
before and the `total` of the terms written to it (`SparseMatrix.value_foldl_add`).
-/

namespace Nodal

namespace SparseMatrix

section Cells

variable {K : Type}

/-- Whether an entry comes before another, by rows and within a row by columns. -/
def Before (a b : Entry K) : Prop :=
  a.row < b.row ∨ a.row = b.row ∧ a.col < b.col

/-- Whether the cells are stored in their order, each once. -/
def Ordered (m : SparseMatrix K) : Prop :=
  m.cells.Pairwise Before

/-- Whether all stored cells lie in the rows and columns of the matrix. -/
def InRange (m : SparseMatrix K) : Prop :=
  ∀ c ∈ m.cells, (1 ≤ c.row ∧ c.row ≤ m.size) ∧ 1 ≤ c.col ∧ c.col ≤ m.size

/-- An empty matrix is in order. -/
lemma ordered_empty (n : Nat) : Ordered ({ size := n } : SparseMatrix K) :=
  .nil

/-- The cells of an empty matrix are in range. -/
lemma inRange_empty (n : Nat) : InRange ({ size := n } : SparseMatrix K) :=
  fun _ h => nomatch h

/-- A cell is found at a place iff it is at its row and column. -/
lemma isAt_iff {row col : Nat} {e : Entry K} : isAt row col e = true ↔ e.row = row ∧ e.col = col := by
  simp [isAt]

/-- A cell precedes a place iff its row does, or its column in the same row. -/
lemma precedes_iff {row col : Nat} {e : Entry K} :
    precedes e row col = true ↔ e.row < row ∨ e.row = row ∧ e.col < col := by
  simp [precedes]

/-- A matrix admits an entry iff its row and column are at most the size. -/
lemma admits_iff {m : SparseMatrix K} {e : Entry K} :
    m.admits e = true ↔ e.row ≤ m.size ∧ e.col ≤ m.size := by
  simp [admits]

variable [BEq K] [Zero K]

/-- What is kept of an entry is the entry. -/
lemma mem_kept {e x : Entry K} (h : x ∈ kept e) : x = e := by
  unfold kept at h
  split at h
  · cases h
  · exact List.mem_singleton.1 h

/-- An entry that is kept can stand before those behind it. -/
lemma pairwise_kept_append {e : Entry K} {es : List (Entry K)} (h : es.Pairwise Before)
    (he : ∀ x ∈ es, Before e x) : (kept e ++ es).Pairwise Before := by
  unfold kept
  split
  · exact h
  · exact List.pairwise_cons.2 ⟨he, h⟩

variable [Add K] [Neg K]

/-- A cell that is there after adding was there before, or is what was kept of a sum. -/
lemma mem_or_mem_kept_of_mem_addTo {row col : Nat} {t : Expr K} {cells : List (Entry K)} {x : Entry K}
    (h : x ∈ addTo row col t cells) : x ∈ cells ∨ ∃ s, x ∈ kept ⟨row, col, s⟩ := by
  induction cells with
  | nil => exact .inr ⟨_, h⟩
  | cons e es ih =>
    unfold addTo at h
    split at h
    · rcases List.mem_append.1 h with h | h
      · exact .inr ⟨_, h⟩
      · exact .inl (List.mem_cons_of_mem e h)
    · split at h
      · rcases List.mem_cons.1 h with rfl | h
        · exact .inl List.mem_cons_self
        · exact (ih h).imp_left (List.mem_cons_of_mem e)
      · rcases List.mem_append.1 h with h | h
        · exact .inr ⟨_, h⟩
        · exact .inl h

/-- Adding to a cell brings in that cell at most. -/
lemma mem_addTo {row col : Nat} {t : Expr K} {cells : List (Entry K)} {x : Entry K}
    (h : x ∈ addTo row col t cells) : x ∈ cells ∨ x.row = row ∧ x.col = col := by
  refine (mem_or_mem_kept_of_mem_addTo h).imp_right ?_
  rintro ⟨s, hs⟩
  rw [mem_kept hs]
  exact ⟨rfl, rfl⟩

/-- Adding to a cell keeps the order. -/
lemma pairwise_addTo {cells : List (Entry K)} (h : cells.Pairwise Before) (row col : Nat)
    (t : Expr K) : (addTo row col t cells).Pairwise Before := by
  induction cells with
  | nil => simpa [addTo] using pairwise_kept_append (e := ⟨row, col, .zero + t⟩) .nil nofun
  | cons e es ih =>
    obtain ⟨he, hes⟩ := List.pairwise_cons.1 h
    unfold addTo
    split
    · rename_i ha
      obtain ⟨rfl, rfl⟩ := isAt_iff.1 ha
      exact pairwise_kept_append hes he
    · split
      · rename_i hp
        refine List.pairwise_cons.2 ⟨fun x hx => ?_, ih hes⟩
        rcases mem_addTo hx with hx | ⟨rfl, rfl⟩
        · exact he x hx
        · exact precedes_iff.1 hp
      · -- the new cell comes in front of all that are left
        rename_i ha hp
        rw [isAt_iff] at ha
        rw [precedes_iff] at hp
        have hb : Before ⟨row, col, .zero + t⟩ e := by
          simp only [Before]
          omega
        refine pairwise_kept_append h fun x hx => ?_
        rcases List.mem_cons.1 hx with rfl | hx
        · exact hb
        · have hx := he x hx
          simp only [Before] at hb hx ⊢
          omega

/-- An addition leaves the size alone. -/
@[simp] lemma size_add (m : SparseMatrix K) (e : Entry K) : (m.add e).size = m.size := by
  unfold add
  split <;> rfl

/-- An addition leaves the order of the cells alone. -/
lemma Ordered.add {m : SparseMatrix K} (h : m.Ordered) (e : Entry K) : (m.add e).Ordered := by
  unfold SparseMatrix.add
  split
  · exact h
  · exact pairwise_addTo h e.row e.col e.term

/-- A cell that a matrix admits is added in range. -/
lemma InRange.add {m : SparseMatrix K} (h : m.InRange) {e : Entry K} (he : m.admits e = true) :
    (m.add e).InRange := by
  rw [admits_iff] at he
  unfold SparseMatrix.add
  split
  · exact h
  · rename_i hz
    intro c hc
    rcases mem_addTo hc with hc | ⟨hr, hl⟩
    · exact h c hc
    · simp only
      omega

/-- Additions leave the size alone. -/
@[simp] lemma size_foldl_add (m : SparseMatrix K) (es : List (Entry K)) :
    (es.foldl SparseMatrix.add m).size = m.size := by
  induction es generalizing m with
  | nil => rfl
  | cons e es ih => rw [List.foldl_cons, ih, size_add]

/-- Cells that a matrix admits are added in range. -/
lemma InRange.foldl_add {m : SparseMatrix K} (h : m.InRange) {es : List (Entry K)}
    (hes : ∀ e ∈ es, m.admits e = true) : (es.foldl SparseMatrix.add m).InRange := by
  induction es generalizing m with
  | nil => exact h
  | cons e es ih =>
    refine ih (h.add (hes e List.mem_cons_self)) fun x hx => ?_
    have := hes x (List.mem_cons_of_mem e hx)
    rwa [admits_iff, size_add, ← admits_iff]

/-- Entries that a matrix admits are all added. -/
lemma addAll_of_admits {m : SparseMatrix K} {es : List (Entry K)}
    (h : ∀ e ∈ es, m.admits e = true) : m.addAll es = (es.foldl SparseMatrix.add m, none) := by
  induction es generalizing m with
  | nil => rfl
  | cons e es ih =>
    rw [addAll, if_pos (h e List.mem_cons_self), List.foldl_cons]
    apply ih
    intro x hx
    have := h x (List.mem_cons_of_mem e hx)
    rwa [admits_iff, size_add, ← admits_iff]

end Cells

section Values

variable {R : Type} [CommRing R] {env : String → R}

/-- What the entries at a cell add up to. -/
def total (env : String → R) (row col : Nat) (es : List (Entry R)) : R :=
  (es.map fun e => if e.row = row ∧ e.col = col then e.term.eval env else 0).sum

/-- Without entries there is nothing to add up. -/
@[simp] lemma total_nil (row col : Nat) : total env row col [] = 0 := rfl

/-- An entry counts towards its own cell only. -/
@[simp] lemma total_cons (row col : Nat) (e : Entry R) (es : List (Entry R)) :
    total env row col (e :: es) =
      (if e.row = row ∧ e.col = col then e.term.eval env else 0) + total env row col es := by
  simp [total]

/-- Totals of entries one behind the other add up. -/
@[simp] lemma total_append (row col : Nat) (es es' : List (Entry R)) :
    total env row col (es ++ es') = total env row col es + total env row col es' := by
  simp [total]

/-- Without an entry at a place the total there is zero. -/
lemma total_eq_zero {row col : Nat} {es : List (Entry R)}
    (h : ∀ e ∈ es, ¬(e.row = row ∧ e.col = col)) : total env row col es = 0 := by
  induction es with
  | nil => rfl
  | cons e es ih =>
    rw [total_cons, if_neg (h e List.mem_cons_self),
      ih fun x hx => h x (List.mem_cons_of_mem e hx), zero_add]

/-- The value of a cell of an ordered matrix is what its cells at that place add up to. -/
lemma value_eq_total {m : SparseMatrix R} (h : m.Ordered) (row col : Nat) :
    m.value env row col = total env row col m.cells := by
  obtain ⟨n, cells⟩ := m
  simp only [Ordered, value, get?] at *
  induction cells with
  | nil => rfl
  | cons e es ih =>
    obtain ⟨he, hes⟩ := List.pairwise_cons.1 h
    -- a cell that is found is the only one at its place, since the cells are in order
    by_cases ha : e.row = row ∧ e.col = col
    · have hz : total env row col es = 0 := by
        apply total_eq_zero
        intro x hx
        have := he x hx
        simp only [Before] at this
        omega
      simp [isAt_iff.2 ha, ha, hz]
    · have hf : isAt row col e = false := Bool.eq_false_iff.2 (mt isAt_iff.1 ha)
      simpa [List.find?_cons, hf, ha] using ih hes

variable [BEq R] [LawfulBEq R]

/-- Whether an entry is kept does not matter to the total. -/
@[simp] lemma total_kept (row col : Nat) (e : Entry R) :
    total env row col (kept e) = if e.row = row ∧ e.col = col then e.term.eval env else 0 := by
  unfold kept
  split
  · rename_i h
    rw [total_nil, Expr.eval_of_isZero h, ite_self]
  · rw [total_cons, total_nil, add_zero]

/-- Adding a term to a cell adds it to what stands there. -/
lemma total_addTo (row col r c : Nat) (t : Expr R) (cells : List (Entry R)) :
    total env r c (addTo row col t cells) =
      total env r c cells + if row = r ∧ col = c then t.eval env else 0 := by
  induction cells with
  | nil => rw [addTo, total_kept, total_nil, zero_add, Expr.eval_add, Expr.eval_zero, zero_add]
  | cons e es ih =>
    unfold addTo
    split
    · rename_i ha
      obtain ⟨rfl, rfl⟩ := isAt_iff.1 ha
      simp only [total_append, total_kept, total_cons, Expr.eval_add]
      split <;> ring
    · split
      · rw [total_cons, total_cons, ih, add_assoc]
      · simp only [total_append, total_kept, total_cons, Expr.eval_add, Expr.eval_zero, zero_add]
        ring

/-- Adding entries adds their terms to the values of their cells. -/
lemma value_foldl_add {m : SparseMatrix R} (h : m.Ordered) (es : List (Entry R)) {row col : Nat}
    (hr : row ≠ 0) (hc : col ≠ 0) :
    (es.foldl SparseMatrix.add m).value env row col = m.value env row col + total env row col es := by
  induction es generalizing m with
  | nil => rw [List.foldl_nil, total_nil, add_zero]
  | cons e es ih =>
    have he : (m.add e).value env row col =
        m.value env row col + if e.row = row ∧ e.col = col then e.term.eval env else 0 := by
      rw [value_eq_total (h.add e), value_eq_total h]
      unfold SparseMatrix.add
      split
      · rename_i hz
        rcases hz with hz | hz | hz
        · simp [hz, hr.symm]
        · simp [hz, hc.symm]
        · simp [Expr.eval_of_isZero hz]
      · exact total_addTo _ _ _ _ _ _
    rw [List.foldl_cons, ih (h.add e), he, total_cons, add_assoc]

/-- The values of a matrix that started empty are the totals of what was written. -/
lemma value_foldl_add_empty (n : Nat) (es : List (Entry R)) {row col : Nat} (hr : row ≠ 0)
    (hc : col ≠ 0) :
    (es.foldl SparseMatrix.add { size := n }).value env row col = total env row col es := by
  have hz : ({ size := n } : SparseMatrix R).value env row col = 0 := rfl
  rw [value_foldl_add (ordered_empty n) es hr hc, hz, zero_add]

end Values

end SparseMatrix

end Nodal
