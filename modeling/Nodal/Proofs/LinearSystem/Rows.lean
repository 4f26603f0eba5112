import Nodal.Proofs.LinearSystem.Assembly
import Nodal.Proofs.LinearSystem.Cells
/-!
# Rows of a matrix

What stands in a row of a matrix is decided by the entries of this row alone
(`SparseMatrix.get?_foldl_add_filter`). In an assembled system the entries in a row behind the nodes are
those of the element that the row belongs to (`LinearSystem.Stamps.filter_flatten`).
-/

namespace Nodal

namespace SparseMatrix

variable {K : Type} [BEq K] [Zero K] [Add K] [Neg K]

/-- What an entry makes of a cell depends on what the cell held. -/
lemma get?_add_congr {m m' : SparseMatrix K} (hm : m.Ordered) (hm' : m'.Ordered) {row col : Nat}
    (h : m.get? row col = m'.get? row col) (e : Entry K) :
    (m.add e).get? row col = (m'.add e).get? row col := by
  by_cases hat : e.row = row ∧ e.col = col
  · obtain ⟨rfl, rfl⟩ := hat
    unfold add
    split
    · exact h
    · simp only [get?] at h ⊢
      rw [find?_addTo_self hm, find?_addTo_self hm', h]
  · rw [get?_add_of_ne hat, get?_add_of_ne hat, h]

/-- The cells of a row hold what the entries of the row make of them. -/
lemma get?_foldl_add_filter {m m' : SparseMatrix K} (hm : m.Ordered) (hm' : m'.Ordered) {row col : Nat}
    (h : m.get? row col = m'.get? row col) (es : List (Entry K)) :
    (es.foldl add m).get? row col = ((es.filter (·.row == row)).foldl add m').get? row col := by
  induction es generalizing m m' with
  | nil => exact h
  | cons e es ih =>
    rw [List.foldl_cons, List.filter_cons]
    split
    · exact ih (hm.add e) (hm'.add e) (get?_add_congr hm hm' h e)
    · rename_i hr
      refine ih (hm.add e) hm' ?_
      rw [get?_add_of_ne (fun hat => hr (beq_iff_eq.2 hat.1)), h]

end SparseMatrix

namespace LinearSystem

variable {K : Type}

/-- The entries in a row, if only one of several lists has any there. -/
lemma filter_flatten_of_unique {stamps : List (List (Entry K))} {stamp : List (Entry K)} {i row : Nat}
    (hi : stamps[i]? = some stamp)
    (h : ∀ (j : Nat) s, stamps[j]? = some s → j ≠ i → ∀ x ∈ s, x.row ≠ row) :
    stamps.flatten.filter (·.row == row) = stamp.filter (·.row == row) := by
  have hnil : ∀ {s : List (Entry K)}, (∀ x ∈ s, x.row ≠ row) → s.filter (·.row == row) = [] :=
    fun hs => List.filter_eq_nil_iff.2 fun x hx => by simpa using hs x hx
  induction stamps generalizing i with
  | nil => cases hi
  | cons s stamps ih =>
    rw [List.flatten_cons, List.filter_append]
    cases i with
    | zero =>
      cases hi
      have hrest : ∀ x ∈ stamps.flatten, x.row ≠ row := by
        intro x hx
        obtain ⟨s', hs', hx⟩ := List.mem_flatten.1 hx
        obtain ⟨j, hj⟩ := List.mem_iff_getElem?.1 hs'
        exact h (j + 1) s' hj (Nat.succ_ne_zero j) x hx
      rw [hnil hrest, List.append_nil]
    | succ i =>
      rw [hnil (h 0 s rfl (Nat.succ_ne_zero i).symm), List.nil_append]
      exact ih hi fun j s' hj hne => h (j + 1) s' hj fun he => hne (Nat.succ.inj he)

variable [One K] [Neg K] {elements : List (Element K)} {nodes : NodeTable}

/-- An element with an entry in a row behind the nodes owns the row. -/
lemma owns_of_mem_stamp (hc : ∀ e ∈ elements, e.Connected nodes) {i : Nat}
    {p : Element K × Option Nat} (hp : (elements.zip (layoutOf elements nodes).offsets)[i]? = some p)
    {stamp : List (Entry K)} (hs : p.1.Stamped p.2 stamp) {x : Entry K} (hx : x ∈ stamp)
    (hr : nodes.count < x.row) : (layoutOf elements nodes).Owns i x.row := by
  obtain ⟨he, ho⟩ := List.getElem?_zip_eq_some.1 hp
  rcases (hs.touches x hx).1 with ⟨n, hn, hnr⟩ | ⟨k, hk, h1, h2⟩
  · have := (hc p.1 (List.mem_of_getElem? he)).index_le_count n hn
    omega
  · exact ⟨p.1.kind, k, by simp [layoutOf, he], hk ▸ ho, h1, h2⟩

/-- The entries in a row that belongs to an element are those of its stamp. -/
lemma Stamps.filter_flatten (hc : ∀ e ∈ elements, e.Connected nodes) {stamps : List (List (Entry K))}
    (h : Stamps (elements.zip (layoutOf elements nodes).offsets) stamps) {i row : Nat}
    {stamp : List (Entry K)} (hi : stamps[i]? = some stamp)
    (ho : (layoutOf elements nodes).Owns i row) :
    stamps.flatten.filter (·.row == row) = stamp.filter (·.row == row) := by
  refine filter_flatten_of_unique hi fun j s hj hne x hx hrow => hne ?_
  have hjl := (List.getElem?_eq_some_iff.1 hj).1
  rw [← List.Forall₂.length_eq h] at hjl
  obtain ⟨s', hj', hs⟩ := h.exists_stamp (List.getElem?_eq_getElem hjl)
  rw [hj] at hj'
  cases hj'
  have hr : nodes.count < x.row := hrow ▸ (Layout.exists_owns_iff.1 ⟨i, ho⟩).1
  have hown := owns_of_mem_stamp hc (List.getElem?_eq_getElem hjl) hs hx hr
  rw [hrow] at hown
  exact hown.unique ho

end LinearSystem

end Nodal
