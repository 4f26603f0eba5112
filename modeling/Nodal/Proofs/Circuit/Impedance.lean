import Nodal.Proofs.Circuit.Assembly
import Nodal.Proofs.Decimal.Double
import Nodal.Proofs.LinearSystem.Equations
import Nodal.Proofs.LinearSystem.Exact
import Nodal.Proofs.LinearSystem.Rows
/-!
# The branch law of an impedance

No other element writes to the row of a resistor, a capacitor or an inductor, and its own terms are added
there without rounding, so that the row of the assembled matrix is known exactly
(`LinearSystem.rowTimes_impedance`). It sets the current of the branch to the value times the voltage. This
is the law of an admittance: a branch whose row is met has the voltage that Ohm's law asks for just if that
is zero or the value is its own inverse (`Circuit.impedance_row`).
-/

namespace Nodal

namespace SparseMatrix

variable {K L : Type}

/-- Other constants leave the size of a matrix alone. -/
@[simp] lemma size_map (φ : K → L) (m : SparseMatrix K) : (m.map φ).size = m.size := rfl

/-- To map the constants of a matrix is to map those of each cell. -/
lemma get?_map (φ : K → L) (m : SparseMatrix K) (row col : Nat) :
    (m.map φ).get? row col = (m.get? row col).map (Expr.map φ) := by
  have hat : isAt row col ∘ Entry.map φ = isAt row col := rfl
  simp only [get?, map, List.find?_map, hat, Option.map_map]
  rfl

/-- What a row of a matrix does to a vector depends on its cells alone. -/
lemma rowTimes_congr {R : Type} [CommRing R] {m m' : SparseMatrix R} {row : Nat}
    (hs : m.size = m'.size) (h : ∀ col, m.get? row col = m'.get? row col) (env : String → R)
    (x : Nat → R) : m.rowTimes env x row = m'.rowTimes env x row := by
  simp only [rowTimes, value, hs, h]

/-- A row whose own entries are written exactly does to a vector what the replaced entries do. -/
lemma rowTimes_map_foldl_add {R : Type} [CommRing R] [BEq K] [Zero K] [One K] [Add K] [Neg K] [BEq R]
    [LawfulBEq R] {P : K → Prop} {φ : K → R} (h : Expr.Faithful P φ) {n row : Nat}
    {es own : List (Entry K)} (ho : es.filter (·.row == row) = own) (hall : ∀ c ∈ own, c.term.All P)
    (hw : ({ size := n } : SparseMatrix K).WritesExactly P φ own) (hcol : ∀ c ∈ own, c.col ≤ n)
    (hr : row ≠ 0) {x : Nat → R} (hx : x 0 = 0) (env : String → R) :
    ((es.foldl SparseMatrix.add { size := n }).map φ).rowTimes env x row =
      Element.rowSum env x row (own.map (Entry.map φ)) := by
  have hm := foldl_add_map h (m := { size := n }) nofun hall hw
  have hrow : ∀ col, ((es.foldl SparseMatrix.add { size := n }).map φ).get? row col =
      ((own.map (Entry.map φ)).foldl SparseMatrix.add { size := n }).get? row col := by
    intro col
    rw [get?_map, get?_foldl_add_filter (ordered_empty n) (ordered_empty n) rfl, ho, ← get?_map, hm]
    rfl
  have hsize : ((es.foldl SparseMatrix.add { size := n }).map φ).size =
      ((own.map (Entry.map φ)).foldl SparseMatrix.add { size := n }).size := by
    rw [size_map, size_foldl_add, size_foldl_add]
  rw [rowTimes_congr hsize hrow, rowTimes_foldl_add hx (fun c hc => ?_) env hr]
  obtain ⟨c', hc', rfl⟩ := List.mem_map.1 hc
  exact hcol c' hc'

/-- A cell that is there after an addition was there before or is the one written to. -/
lemma mem_cells_add [BEq K] [Zero K] [Add K] [Neg K] {m : SparseMatrix K} {e c : Entry K}
    (h : c ∈ (m.add e).cells) : c ∈ m.cells ∨ c.row = e.row ∧ c.col = e.col := by
  unfold add at h
  split at h
  · exact .inl h
  · exact mem_addTo h

end SparseMatrix

namespace Expr

/-- A value and its opposite are added exactly. -/
lemma addsExactly_neg {z : Expr Float} (hz : z.All fun x => x.isFinite = true) :
    (zero + z).AddsExactly (fun x : Float => x.isFinite = true) Decimal.toRat (-z) := by
  cases z with
  | num x =>
    obtain ⟨h0, hr⟩ := Decimal.zero_add_of_isFinite hz
    have ho : Decimal.toRat (0 + x) + Decimal.toRat (-x) = 0 := by
      rw [hr, Decimal.toRat_zero, Decimal.toRat_neg, zero_add, add_neg_cancel]
    obtain ⟨h1, h2⟩ := Decimal.add_of_opposite h0 (Decimal.isFinite_neg hz) ho
    exact ⟨h1, h2.trans ho.symm⟩
  | sym _ | neg _ | sum _ | prod _ => trivial

end Expr

namespace LinearSystem

/-- The terms that an impedance writes to its row. -/
def impedanceRow {K : Type} [One K] [Neg K] (n m k : Nat) (z : Expr K) : List (Entry K) :=
  [⟨k, n, z⟩, ⟨k, m, -z⟩, ⟨k, k, -.one⟩]

/-- A row of an impedance is written to an empty matrix without a rounded sum. -/
lemma writesExactly_impedanceRow {n m k size : Nat} {z : Expr Float}
    (hz : z.All fun x => x.isFinite = true) (hn : n ≠ k) (hm : m ≠ k) :
    ({ size } : SparseMatrix Float).WritesExactly (fun x => x.isFinite = true) Decimal.toRat
      (impedanceRow n m k z) := by
  refine ⟨nofun, fun c hc _ _ => ?_, fun c hc _ hk => ?_, trivial⟩
  · unfold SparseMatrix.add at hc
    split at hc
    · cases hc
    · rw [SparseMatrix.mem_kept hc]
      exact Expr.addsExactly_neg hz
  · -- the other terms stand in the columns of nodes
    rcases SparseMatrix.mem_cells_add hc with hc | ⟨-, hcol⟩
    · rcases SparseMatrix.mem_cells_add hc with hc | ⟨-, hcol⟩
      · cases hc
      · exact absurd (hcol.symm.trans hk) hn
    · exact absurd (hcol.symm.trans hk) hm

/-- The terms in the row mean the value times the voltage, less the current. -/
lemma rowSum_impedanceRow {R : Type} [CommRing R] (n m k : Nat) (z : Expr R) (env : String → R)
    (x : Nat → R) :
    Element.rowSum env x k (impedanceRow n m k z) = z.eval env * (x n - x m) - x k := by
  simp only [Element.rowSum, impedanceRow, List.map_cons, List.map_nil, if_true, List.sum_cons,
    List.sum_nil, Expr.eval_neg, Expr.eval_one]
  ring

/-- The row of an impedance with rational constants is that of its rational value. -/
lemma map_impedanceRow (n m k : Nat) {z : Expr Float} (hz : z.All fun x => x.isFinite = true) :
    (impedanceRow n m k z).map (Entry.map Decimal.toRat) =
      impedanceRow n m k (z.map Decimal.toRat) := by
  have h1 : (Expr.one : Expr Float).All fun x => x.isFinite = true := Decimal.faithful_toRat.one
  have hone : (-(Expr.one : Expr Float)).map Decimal.toRat = -Expr.one := by
    rw [Decimal.faithful_toRat.map_neg h1, Decimal.faithful_toRat.map_one]
  simp only [impedanceRow, List.map_cons, List.map_nil, Entry.map, hone,
    Decimal.faithful_toRat.map_neg hz]

/-- A finite value makes a row of finite constants. -/
lemma all_impedanceRow (n m k : Nat) {z : Expr Float} (hz : z.All fun x => x.isFinite = true) :
    ∀ c ∈ impedanceRow n m k z, c.term.All fun x => x.isFinite = true := by
  simp only [impedanceRow, List.forall_mem_cons]
  exact ⟨hz, Decimal.faithful_toRat.all_neg hz,
    Decimal.faithful_toRat.all_neg Decimal.faithful_toRat.one, nofun⟩

/-- The row of an impedance stays within its nodes and its own unknown. -/
lemma col_le_of_mem_impedanceRow {K : Type} [One K] [Neg K] {n m k size : Nat} {z : Expr K}
    (hn : n ≤ size) (hm : m ≤ size) (hk : k ≤ size) : ∀ c ∈ impedanceRow n m k z, c.col ≤ size := by
  simp only [impedanceRow, List.forall_mem_cons]
  exact ⟨hn, hm, hk, nofun⟩

/-- Of the stamp of an impedance, just these entries stand in its row. -/
lemma filter_impedance {K : Type} [Zero K] [One K] [Neg K] {n m k : Nat} {z : Expr K} (hn : n ≠ k)
    (hm : m ≠ k) : (Stamp.impedance n m z k).filter (·.row == k) = impedanceRow n m k z := by
  simp [Stamp.impedance, impedanceRow, hn, hm]

variable {elements : List (Element Float)} {nodes : NodeTable} {f : LinearSystem Float}

/-- The row of an impedance gives the value times the voltage, less the current. -/
lemma rowTimes_impedance (hc : ∀ e ∈ elements, e.Connected nodes) (hf : assemble elements nodes = .ok f)
    {i : Nat} {e : Element Float} (he : elements[i]? = some e)
    (hk : e.kind.family? = some .impedance) (hz : e.value.All fun x => x.isFinite = true) :
    ∃ k n m, f.offsets[i]? = some (some k) ∧ e.nodes = [n, m] ∧
      ∀ env x, x 0 = 0 → (f.map Decimal.toRat).matrix.rowTimes env x k =
        (e.value.map Decimal.toRat).eval env * (x n.index - x m.index) - x k := by
  obtain ⟨labels, stamps, -, -, hs, -, ha⟩ := assemble_eq_ok hc
  rw [ha] at hf
  cases hf
  have hkind : (layoutOf elements nodes).kinds[i]? = some e.kind := by simp [layoutOf, he]
  have ho := Layout.offset_of_family? hkind hk
  generalize (layoutOf elements nodes).start .impedance +
    (layoutOf elements nodes).before .impedance i * Family.impedance.width = k at ho
  have hp : (elements.zip (layoutOf elements nodes).offsets)[i]? = some (e, some k) :=
    List.getElem?_zip_eq_some.2 ⟨he, ho⟩
  obtain ⟨stamp, hi, hstamp⟩ := hs.exists_stamp hp
  obtain ⟨n, m, hnodes, rfl⟩ := hstamp.eq_impedance hk
  refine ⟨k, n, m, ho, hnodes, fun env x hx => ?_⟩
  -- the row stands behind the nodes, and its terms within the system
  have hown : (layoutOf elements nodes).Owns i k :=
    ⟨e.kind, k, hkind, ho, Nat.le_refl k, Nat.lt_add_of_pos_right (by
      rw [Kind.auxCount_of_family? hk]
      exact Family.width_pos _)⟩
  obtain ⟨hpos, hsize⟩ : nodes.count < k ∧ k ≤ (layoutOf elements nodes).size :=
    Layout.exists_owns_iff.1 ⟨i, hown⟩
  have hle := (hc e (List.mem_of_getElem? he)).index_le_count
  have hnle := hle n (hnodes ▸ List.mem_cons_self)
  have hmle := hle m (hnodes ▸ List.mem_cons_of_mem _ List.mem_cons_self)
  have hnk : n.index ≠ k := by omega
  have hmk : m.index ≠ k := by omega
  have hfilter := hs.filter_flatten hc hi hown
  rw [filter_impedance hnk hmk] at hfilter
  have hcol := col_le_of_mem_impedanceRow (n := n.index) (m := m.index) (z := e.value) (by omega)
    (by omega) hsize
  change SparseMatrix.rowTimes (SparseMatrix.map _ _) env x k = _
  rw [SparseMatrix.rowTimes_map_foldl_add Decimal.faithful_toRat hfilter (all_impedanceRow _ _ _ hz)
    (writesExactly_impedanceRow hz hnk hmk) hcol (by omega) hx, map_impedanceRow _ _ _ hz,
    rowSum_impedanceRow]

end LinearSystem

namespace Circuit

variable {o : Options} {text : String}

/-- The row that an impedance has in the system of a circuit is its value times the voltage, less the current.
-/
lemma rowTimes_of_read (h : (read o text).error? = none) {i : Nat} {e : Element Float}
    (he : (read o text).circuit.elements[i]? = some e) (hk : e.kind.family? = some .impedance)
    (hz : e.value.All fun x => x.isFinite = true) :
    ∃ f k n m, (read o text).circuit.assemble = .ok f ∧ f.offsets[i]? = some (some k) ∧
      e.nodes = [n, m] ∧
      ∀ env x, x 0 = 0 → (f.map Decimal.toRat).matrix.rowTimes env x k =
        (e.value.map Decimal.toRat).eval env * (x n.index - x m.index) - x k := by
  obtain ⟨f, ha, -⟩ := assemble_of_read h
  have hf := (assemble_eq_of_read h).symm.trans ha
  obtain ⟨k, n, m, ho, hnodes, hrow⟩ := LinearSystem.rowTimes_impedance (connected_of_read h) hf he hk hz
  exact ⟨f, k, n, m, ha, ho, hnodes, hrow⟩

/-- The row of an impedance is met just if the current is the value times the voltage, where Ohm's law wants
the voltage to be the value times the current. -/
theorem impedance_row (h : (read o text).error? = none) {i : Nat} {e : Element Float}
    (he : (read o text).circuit.elements[i]? = some e) (hk : e.kind.family? = some .impedance)
    (hz : e.value.All fun x => x.isFinite = true) :
    ∃ f k n m, (read o text).circuit.assemble = .ok f ∧ f.offsets[i]? = some (some k) ∧
      e.nodes = [n, m] ∧
      ∀ env x, x 0 = 0 →
        let row := (f.map Decimal.toRat).matrix.rowTimes env x k
        let value := (e.value.map Decimal.toRat).eval env
        let voltage := x n.index - x m.index
        (row = 0 ↔ x k = value * voltage) ∧
          (row = 0 → (voltage = value * x k ↔ voltage = 0 ∨ value * value = 1)) := by
  obtain ⟨f, k, n, m, ha, ho, hnodes, hrow⟩ := rowTimes_of_read h he hk hz
  refine ⟨f, k, n, m, ha, ho, hnodes, fun env x hx => ?_⟩
  intro row value voltage
  have hr : row = 0 ↔ x k = value * voltage := by
    change SparseMatrix.rowTimes _ env x k = 0 ↔ _
    rw [hrow env x hx, sub_eq_zero, eq_comm]
  refine ⟨hr, fun h0 => ?_⟩
  rw [hr.1 h0, ← mul_assoc, eq_comm, mul_left_eq_self₀, or_comm]

/-- A resistor, a capacitor and an inductor, of which the resistor is looked at. -/
theorem impedance_row_ladder :
    let text := "V1 a 0 v\nR1 a b 2\nC1 b 0 C\nL1 b 0 L\n"
    (read {} text).error? = none ∧
      ∃ e, (read {} text).circuit.elements[1]? = some e ∧ e.kind.family? = some .impedance ∧
        (e.value.All fun x => x.isFinite = true) ∧
        ∃ f k n m, (read {} text).circuit.assemble = .ok f ∧ f.offsets[1]? = some (some k) ∧
          e.nodes = [n, m] ∧
          ∀ env x, x 0 = 0 →
            let row := (f.map Decimal.toRat).matrix.rowTimes env x k
            let value := (e.value.map Decimal.toRat).eval env
            let voltage := x n.index - x m.index
            (row = 0 ↔ x k = value * voltage) ∧
              (row = 0 → (voltage = value * x k ↔ voltage = 0 ∨ value * value = 1)) := by
  intro text
  have h : (read {} text).error? = none := by decide +kernel
  have hf : ∀ e ∈ (read {} text).circuit.elements, e.value.All fun x => x.isFinite = true := by
    decide +kernel
  have hk : ((read {} text).circuit.elements[1]?.bind fun e => e.kind.family?) = some .impedance := by
    decide +kernel
  obtain ⟨e, he, hk⟩ := Option.bind_eq_some_iff.1 hk
  have hz := hf e (List.mem_of_getElem? he)
  exact ⟨h, e, he, hk, hz, impedance_row h he hk hz⟩

/-- A resistor of two with one volt across it: its row is met by a current of two, where Ohm's law asks
for a half. -/
theorem impedance_row_resistor :
    let text := "R1 a 0 R\n"
    (read {} text).error? = none ∧
      ∃ e f, (read {} text).circuit.elements[0]? = some e ∧ e.kind = .resistor ∧
        e.nodes = [⟨1⟩, ⟨0⟩] ∧ (read {} text).circuit.assemble = .ok f ∧
        f.offsets[0]? = some (some 2) ∧
        ∃ env x, x 0 = 0 ∧ (f.map Decimal.toRat).matrix.rowTimes env x 2 = 0 ∧
          x 1 - x 0 ≠ (e.value.map Decimal.toRat).eval env * x 2 := by
  intro text
  have h : (read {} text).error? = none := by decide +kernel
  let e : Element Float :=
    { kind := .resistor, name := "R1", nets := ["a", "0"], value := .sym "R", nodes := [⟨1⟩, ⟨0⟩] }
  have he : (read {} text).circuit.elements[0]? = some e := by
    simp only [text]
    rfl
  obtain ⟨f, k, n, m, ha, ho, hnodes, hrow⟩ := rowTimes_of_read h he rfl trivial
  cases hnodes
  obtain rfl : k = 2 := by
    have hoffsets : (read {} text).circuit.assemble.toOption.bind (·.offsets[0]?) = some (some 2) := by
      decide +kernel
    rw [ha] at hoffsets
    rw [Except.toOption, Option.bind_some, ho] at hoffsets
    exact Option.some.inj (Option.some.inj hoffsets)
  refine ⟨h, e, f, he, rfl, rfl, ha, ho, fun _ => 2, fun n => n, by norm_num, ?_, ?_⟩
  · rw [hrow _ _ (by norm_num)]
    norm_num [e, Expr.map, Expr.eval]
  · norm_num [e, Expr.map, Expr.eval]

end Circuit

end Nodal
