import Nodal.Proofs.Decimal.Double
import Nodal.Proofs.LinearSystem.Cells
import Nodal.Proofs.LinearSystem.Exact
/-!
# Sequences of writes

A matrix that starts empty and is written to, by single entries or by whole stamps, stays well-formed
(`SparseMatrix.WellFormed`): its cells lie within it, in order, each once, and none is zero. Over a commutative
ring a cell has the sum of all that was written to it as its value (`Write.value_run`). `Write.run_accumulates`
says this of a matrix with doubles and of the one with the rational numbers that they are.
-/

namespace Nodal

variable {K L : Type}

/-- Whether row and column of an entry lie within `n` rows and columns or at ground. -/
def Entry.within (n : Nat) (e : Entry K) : Bool :=
  e.row ≤ n && e.col ≤ n

/-- An entry lies within a matrix iff its row and column do. -/
lemma Entry.within_iff {n : Nat} {e : Entry K} : e.within n = true ↔ e.row ≤ n ∧ e.col ≤ n := by
  simp [within]

/-- An operation that writes to a matrix. -/
inductive Write (K : Type) where
  /-- A single entry is added. -/
  | add (e : Entry K)
  /-- The stamp of an element is added. -/
  | apply (name : String) (stamp : List (Entry K))

namespace Write

/-- Replaces every constant in what is written. -/
def map (f : K → L) : Write K → Write L
  | .add e => .add (e.map f)
  | .apply name stamp => .apply name (stamp.map (Entry.map f))

/-- Whether an operation may be asked of a matrix of `n` rows and columns: a stamp always, and a single entry
within them. -/
def Admitted (n : Nat) : Write K → Prop
  | .add e => e.row ≤ n ∧ e.col ≤ n
  | .apply _ _ => True

/-- The entries that are written to a matrix of `n` rows and columns: of a stamp those before the first that
lies outside. -/
def entries (n : Nat) : Write K → List (Entry K)
  | .add e => [e]
  | .apply _ stamp => stamp.takeWhile (Entry.within n)

/-- The entries of an admitted write lie within the matrix. -/
lemma within_of_mem_entries {n : Nat} {w : Write K} (h : w.Admitted n) {e : Entry K}
    (he : e ∈ w.entries n) : e.within n = true := by
  cases w with
  | add e' =>
    rw [List.mem_singleton.1 he]
    exact Entry.within_iff.2 h
  | apply name stamp => exact List.mem_takeWhile_imp he

/-- The entries of a write with replaced constants are those of the write with them replaced. -/
lemma entries_map (f : K → L) (n : Nat) (w : Write K) :
    (w.map f).entries n = (w.entries n).map (Entry.map f) := by
  cases w with
  | add e => rfl
  | apply name stamp => exact List.takeWhile_map

variable [BEq K] [Zero K] [Add K] [Neg K]

/-- The matrix after an operation. -/
def perform (m : SparseMatrix K) : Write K → SparseMatrix K
  | .add e => m.add e
  | .apply name stamp => (m.apply name stamp).1

/-- The matrix of `n` rows and columns after a sequence of operations. -/
def run (n : Nat) (ws : List (Write K)) : SparseMatrix K :=
  ws.foldl perform { size := n }

end Write

namespace SparseMatrix

section Writing

variable [BEq K] [Zero K] [Add K] [Neg K]

/-- Entries are added up to the first that lies outside. -/
lemma addAll_eq (m : SparseMatrix K) (es : List (Entry K)) :
    m.addAll es = ((es.takeWhile (Entry.within m.size)).foldl add m,
      es.find? fun e => !e.within m.size) := by
  induction es generalizing m with
  | nil => rfl
  | cons e es ih =>
    have ha : m.admits e = e.within m.size := rfl
    rw [addAll, ha, ih, size_add, List.takeWhile_cons, List.find?_cons]
    cases e.within m.size <;> rfl

/-- A stamp is added up to its first entry that lies outside, and that is the error. -/
lemma apply_eq (m : SparseMatrix K) (name : String) (stamp : List (Entry K)) :
    m.apply name stamp = ((stamp.takeWhile (Entry.within m.size)).foldl add m,
      (stamp.find? fun e => !e.within m.size).map fun e =>
        .notStampable name (.outside e.row e.col m.size)) := by
  rw [apply, addAll_eq]
  cases stamp.find? fun e => !e.within m.size <;> rfl

/-- What holds of a matrix of `n` rows and columns that is written to. -/
structure WellFormed (n : Nat) (m : SparseMatrix K) : Prop where
  size_eq : m.size = n
  inRange : m.InRange
  ordered : m.Ordered
  isSparse : m.IsSparse

namespace WellFormed

variable {n : Nat} {m : SparseMatrix K}

omit [Add K] [Neg K] in
/-- An empty matrix is well formed. -/
lemma empty (n : Nat) : WellFormed n ({ size := n } : SparseMatrix K) :=
  ⟨rfl, inRange_empty n, ordered_empty n, isSparse_empty n⟩

/-- An addition within the matrix leaves it well formed. -/
lemma add (h : WellFormed n m) {e : Entry K} (he : e.within n = true) : WellFormed n (m.add e) := by
  have ha : m.admits e = true := by
    rw [← h.size_eq] at he
    exact he
  exact ⟨(size_add m e).trans h.size_eq, h.inRange.add ha, h.ordered.add e, h.isSparse.add e⟩

/-- Additions within the matrix leave it well formed. -/
lemma foldl_add (h : WellFormed n m) {es : List (Entry K)} (hes : ∀ e ∈ es, e.within n = true) :
    WellFormed n (es.foldl SparseMatrix.add m) := by
  induction es generalizing m with
  | nil => exact h
  | cons e es ih =>
    exact ih (h.add (hes e List.mem_cons_self)) fun x hx => hes x (List.mem_cons_of_mem e hx)

omit [Add K] [Neg K] in
/-- Nothing is stored in the row and the column of ground. -/
lemma get?_ground (h : WellFormed n m) {row col : Nat} (hg : row = 0 ∨ col = 0) :
    m.get? row col = none := by
  refine get?_eq_none_of_ne fun c hc hrc => ?_
  have := h.inRange c hc
  omega

end WellFormed

/-- Additions elsewhere leave a cell alone. -/
lemma get?_foldl_add_of_ne {m : SparseMatrix K} {es : List (Entry K)} {row col : Nat}
    (h : ∀ e ∈ es, ¬(e.row = row ∧ e.col = col)) :
    (es.foldl add m).get? row col = m.get? row col := by
  induction es generalizing m with
  | nil => rfl
  | cons e es ih =>
    rw [List.foldl_cons, ih fun x hx => h x (List.mem_cons_of_mem e hx),
      get?_add_of_ne (h e List.mem_cons_self)]

end Writing

end SparseMatrix

namespace Write

section Running

variable [BEq K] [Zero K] [Add K] [Neg K]

/-- A write adds its entries. -/
lemma perform_eq (m : SparseMatrix K) (w : Write K) :
    w.perform m = (w.entries m.size).foldl SparseMatrix.add m := by
  cases w with
  | add e => rfl
  | apply name stamp => rw [perform, SparseMatrix.apply_eq, entries]

/-- Writes add their entries one after another. -/
lemma foldl_perform (m : SparseMatrix K) (ws : List (Write K)) :
    ws.foldl perform m = (ws.flatMap (entries m.size)).foldl SparseMatrix.add m := by
  induction ws generalizing m with
  | nil => rfl
  | cons w ws ih =>
    rw [List.foldl_cons, ih, perform_eq, SparseMatrix.size_foldl_add, List.flatMap_cons,
      List.foldl_append]

/-- Operations write their entries one after another. -/
lemma run_eq (n : Nat) (ws : List (Write K)) :
    run n ws = (ws.flatMap (entries n)).foldl SparseMatrix.add { size := n } :=
  foldl_perform _ ws

/-- An operation keeps a matrix well-formed. -/
lemma wellFormed_perform {n : Nat} {m : SparseMatrix K} (h : m.WellFormed n) {w : Write K}
    (hw : w.Admitted n) : (w.perform m).WellFormed n := by
  rw [perform_eq, h.size_eq]
  exact h.foldl_add fun e he => within_of_mem_entries hw he

/-- Admitted writes leave a matrix well formed. -/
lemma wellFormed_foldl_perform {n : Nat} {m : SparseMatrix K} (h : m.WellFormed n)
    {ws : List (Write K)} (hws : ∀ w ∈ ws, w.Admitted n) : (ws.foldl perform m).WellFormed n := by
  induction ws generalizing m with
  | nil => exact h
  | cons w ws ih =>
    exact ih (wellFormed_perform h (hws w List.mem_cons_self)) fun x hx =>
      hws x (List.mem_cons_of_mem w hx)

/-- An operation leaves the cells as they are that it writes no entry to. -/
lemma get?_perform_of_ne {n : Nat} {m : SparseMatrix K} (h : m.WellFormed n) {w : Write K}
    {row col : Nat} (hw : ∀ e ∈ w.entries n, ¬(e.row = row ∧ e.col = col)) :
    (w.perform m).get? row col = m.get? row col := by
  rw [perform_eq, h.size_eq]
  exact SparseMatrix.get?_foldl_add_of_ne hw

end Running

/-- Over a commutative ring the value of a cell is the sum of all that was written to it. -/
lemma value_run {R : Type} [CommRing R] [BEq R] [LawfulBEq R] (n : Nat) (ws : List (Write R))
    (env : String → R) {row col : Nat} (hr : row ≠ 0) (hc : col ≠ 0) :
    (run n ws).value env row col = SparseMatrix.total env row col (ws.flatMap (entries n)) := by
  rw [run_eq, SparseMatrix.value_foldl_add_empty n _ hr hc]

/-- Operations with other constants leave a matrix with these constants, if they add no two with a loss. -/
lemma run_map [BEq K] [Zero K] [One K] [Add K] [Neg K] [BEq L] [Zero L] [One L] [Add L] [Neg L]
    {P : K → Prop} {φ : K → L} (h : Expr.Faithful P φ) {n : Nat} {ws : List (Write K)}
    (hws : ∀ e ∈ ws.flatMap (entries n), e.term.All P)
    (hx : ({ size := n } : SparseMatrix K).WritesExactly P φ (ws.flatMap (entries n))) :
    (run n ws).map φ = run n (ws.map (map φ)) := by
  have he : (ws.map (map φ)).flatMap (entries n) = (ws.flatMap (entries n)).map (Entry.map φ) := by
    rw [List.flatMap_map, List.map_flatMap]
    simp only [entries_map]
  rw [run_eq, run_eq, he]
  exact SparseMatrix.foldl_add_map h nofun hws hx

/-- A matrix that is written to in any way stays well formed, holds in each cell the sum of what was written
to it, and refuses a stamp at its first entry outside. -/
theorem run_accumulates {n : Nat} {ws : List (Write Float)} (h : ∀ w ∈ ws, w.Admitted n) :
    let m := run n ws
    let x := run n (ws.map (map Decimal.toRat))
    let written := ws.flatMap (entries n)
    (m.WellFormed n ∧ x.WellFormed n) ∧
    (∀ env row col, 1 ≤ row → 1 ≤ col →
      x.value env row col =
        SparseMatrix.total env row col (written.map (Entry.map Decimal.toRat))) ∧
    ((∀ e ∈ written, e.term.All fun c => c.isFinite = true) →
      ({ size := n } : SparseMatrix Float).WritesExactly (fun c => c.isFinite = true) Decimal.toRat
        written →
      m.map Decimal.toRat = x) ∧
    (∀ row col, row = 0 ∨ col = 0 → m.get? row col = none) ∧
    (∀ (w : Write Float) (row col : Nat),
      (∀ e ∈ w.entries n, ¬(e.row = row ∧ e.col = col)) →
      (w.perform m).get? row col = m.get? row col) ∧
    ∀ name stamp,
      ((m.apply name stamp).2.isSome = true ↔ ∃ e ∈ stamp, n < e.row ∨ n < e.col) ∧
      (m.apply name stamp).2 = (stamp.find? fun e => !e.within n).map (fun e =>
        .notStampable name (.outside e.row e.col n)) ∧
      (m.apply name stamp).1 = (stamp.takeWhile (Entry.within n)).foldl SparseMatrix.add m := by
  intro m x written
  -- an entry of the rational run lies where that of the run with doubles does
  have hadm : ∀ w ∈ ws.map (map Decimal.toRat), w.Admitted n := by
    intro w hw
    obtain ⟨w', hw', rfl⟩ := List.mem_map.1 hw
    cases w' with
    | add e => exact h _ hw'
    | apply name stamp => trivial
  have hm : m.WellFormed n := wellFormed_foldl_perform (.empty n) h
  have hx : x.WellFormed n := wellFormed_foldl_perform (.empty n) hadm
  refine ⟨⟨hm, hx⟩, ?_, ?_, ?_, ?_, ?_⟩
  · intro env row col hr hc
    rw [value_run n _ env (Nat.ne_of_gt hr) (Nat.ne_of_gt hc), List.flatMap_map, List.map_flatMap]
    simp only [entries_map]
  · exact run_map Decimal.faithful_toRat
  · exact fun row col => hm.get?_ground
  · exact fun w row col => get?_perform_of_ne hm
  · intro name stamp
    rw [SparseMatrix.apply_eq, hm.size_eq]
    refine ⟨?_, rfl, rfl⟩
    simp [Entry.within]

/-- A cell that is emptied again, and a stamp whose third entry lies outside. -/
theorem run_accumulates_outside :
    let r : Expr Float := .sym "R"
    let ws : List (Write Float) := [.add ⟨1, 1, r⟩,
      .apply "R1" [⟨2, 2, .num 0.5⟩, ⟨1, 1, -r⟩, ⟨3, 1, .one⟩, ⟨1, 2, .one⟩], .add ⟨2, 2, .num 0.25⟩]
    (∀ w ∈ ws, w.Admitted 2) ∧ (run 2 ws).WellFormed 2 ∧
      (run 2 ws).map Decimal.toRat = run 2 (ws.map (map Decimal.toRat)) ∧
      ((run 2 ws).apply "R1" [⟨3, 1, r⟩]).2 = some (.notStampable "R1" (.outside 3 1 2)) := by
  intro r ws
  have h : ∀ w ∈ ws, w.Admitted 2 := by
    intro w hw
    simp only [ws, List.mem_cons, List.not_mem_nil, or_false] at hw
    rcases hw with rfl | rfl | rfl
    · exact ⟨by decide, by decide⟩
    · trivial
    · exact ⟨by decide, by decide⟩
  obtain ⟨⟨hm, -⟩, -, hmap, -, -, happly⟩ := run_accumulates h
  exact ⟨h, hm, hmap (by decide +kernel) (by decide +kernel), (happly "R1" [⟨3, 1, r⟩]).2.1⟩

end Write

end Nodal
