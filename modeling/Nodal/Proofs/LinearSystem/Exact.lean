import Nodal.Proofs.Expr.Exact
import Nodal.Proofs.LinearSystem.Assembly
/-!
# Assembly with other constants

Where the unknowns of a system stand and what they are called does not depend on the constants of its
elements. The matrix is that of the replaced constants as well, if the replacement is faithful and no
two constants are added with a loss while the stamps are written (`LinearSystem.assemble_map`).
-/

namespace Nodal

variable {K L : Type}

/-- Replaces every constant in an entry. -/
def Entry.map (f : K → L) (e : Entry K) : Entry L :=
  { row := e.row, col := e.col, term := e.term.map f }

def SparseMatrix.map (f : K → L) (m : SparseMatrix K) : SparseMatrix L :=
  { size := m.size, cells := m.cells.map (Entry.map f) }

def LinearSystem.map (f : K → L) (s : LinearSystem K) : LinearSystem L :=
  { matrix := s.matrix.map f, offsets := s.offsets, labels := s.labels, layout := s.layout }

namespace LinearSystem

/-- Whether an element is connected does not depend on constants. -/
lemma connected_map {e : Element K} {nodes : NodeTable} (h : e.Connected nodes) (f : K → L) :
    (e.map f).Connected nodes :=
  ⟨h.length_nodes, h.index_le_count⟩

/-- Whether elements are connected does not depend on constants. -/
lemma forall_connected_map {elements : List (Element K)} {nodes : NodeTable}
    (h : ∀ e ∈ elements, e.Connected nodes) (f : K → L) :
    ∀ e ∈ elements.map (Element.map f), e.Connected nodes := by
  intro e he
  obtain ⟨e', he', rfl⟩ := List.mem_map.1 he
  exact connected_map (h e' he') f

/-- The layout of elements does not depend on constants. -/
@[simp] lemma layoutOf_map (f : K → L) (elements : List (Element K)) (nodes : NodeTable) :
    layoutOf (elements.map (Element.map f)) nodes = layoutOf elements nodes := by
  have h : Element.kind ∘ Element.map f = (Element.kind : Element K → Kind) := rfl
  rw [layoutOf, List.map_map, h, layoutOf]

/-- Where labels are written does not depend on constants. -/
lemma placeAll_map (f : K → L) (places : List String) (elements : List (Element K))
    (offsets : List (Option Nat)) :
    placeAll places ((elements.map (Element.map f)).zip offsets) =
      placeAll places (elements.zip offsets) := by
  induction elements generalizing places offsets with
  | nil => rfl
  | cons e elements ih =>
    cases offsets with
    | nil => rfl
    | cons offset offsets =>
      cases offset with
      | none => exact ih places offsets
      | some k =>
        have ha : (e.map f).auxLabels = e.auxLabels := rfl
        simp only [List.map_cons, List.zip_cons_cons, placeAll, ha]
        cases place? places k e.auxLabels with
        | none => rfl
        | some places => exact ih places offsets

/-- The labels of unknowns do not depend on constants. -/
lemma unknownLabels_map (f : K → L) (elements : List (Element K)) (nodes : NodeTable) :
    unknownLabels (elements.map (Element.map f)) nodes = unknownLabels elements nodes := by
  simp only [unknownLabels, layoutOf_map, placeAll_map]

end LinearSystem

variable [BEq K] [Zero K] [One K] [Add K] [Neg K] [BEq L] [Zero L] [One L] [Add L] [Neg L]
variable {P : K → Prop} {φ : K → L}

namespace SparseMatrix

/-- Whether entries are written to a matrix one after another without adding two constants with a
loss. -/
def WritesExactly (P : K → Prop) (φ : K → L) (m : SparseMatrix K) : List (Entry K) → Prop
  | [] => True
  | e :: es =>
    (∀ c ∈ m.cells, c.row = e.row → c.col = e.col → c.term.AddsExactly P φ e.term) ∧
      WritesExactly P φ (m.add e) es

instance decidableWritesExactly [DecidableEq L] (P : K → Prop) [DecidablePred P] (φ : K → L)
    (m : SparseMatrix K) : (es : List (Entry K)) → Decidable (m.WritesExactly P φ es)
  | [] => .isTrue trivial
  | e :: es =>
    have := decidableWritesExactly P φ (m.add e) es
    inferInstanceAs (Decidable ((∀ c ∈ m.cells, c.row = e.row → c.col = e.col →
      c.term.AddsExactly P φ e.term) ∧ WritesExactly P φ (m.add e) es))

/-- A cell is kept iff the one with replaced constants is. -/
lemma kept_map (h : Expr.Faithful P φ) {e : Entry K} (he : e.term.All P) :
    (kept e).map (Entry.map φ) = kept (e.map φ) := by
  have hz : (e.map φ).term.isZero = e.term.isZero := h.isZero_map he
  unfold kept
  rw [hz]
  split <;> rfl

omit [One K] [Add K] [Neg K] in
/-- A cell that is kept has the property of its constants. -/
lemma all_kept {e : Entry K} (he : e.term.All P) : ∀ c ∈ kept e, c.term.All P := by
  intro c hc
  rwa [mem_kept hc]

/-- Adding a term to a cell keeps the property of the constants and the image of all cells. -/
lemma addTo_map (h : Expr.Faithful P φ) {row col : Nat} {t : Expr K} {cells : List (Entry K)}
    (ht : t.All P) (hc : ∀ c ∈ cells, c.term.All P)
    (hx : ∀ c ∈ cells, c.row = row → c.col = col → c.term.AddsExactly P φ t) :
    (∀ c ∈ addTo row col t cells, c.term.All P) ∧
      (addTo row col t cells).map (Entry.map φ) =
        addTo row col (t.map φ) (cells.map (Entry.map φ)) := by
  have h0 : (Expr.zero : Expr K).All P := h.zero
  have ha0 : (Expr.zero + t).All P := h.all_add h0 ht (h.addsExactly_zero ht)
  have hm0 : (Expr.zero + t).map φ = Expr.zero + t.map φ := by
    rw [h.map_add h0 ht (h.addsExactly_zero ht), h.map_zero]
  have hk0 : (kept ⟨row, col, Expr.zero + t⟩).map (Entry.map φ) =
      kept ⟨row, col, Expr.zero + t.map φ⟩ := by
    rw [← hm0]
    exact kept_map h ha0
  induction cells with
  | nil => exact ⟨all_kept ha0, hk0⟩
  | cons e es ih =>
    have he : e.term.All P := hc e List.mem_cons_self
    have hes : ∀ c ∈ es, c.term.All P := fun c hm => hc c (List.mem_cons_of_mem e hm)
    obtain ⟨ih1, ih2⟩ := ih hes fun c hm => hx c (List.mem_cons_of_mem e hm)
    -- where a cell stands is not touched by its constants
    have hat : isAt row col (e.map φ) = isAt row col e := rfl
    have hpr : precedes (e.map φ) row col = precedes e row col := rfl
    simp only [addTo, List.map_cons, hat, hpr]
    split
    · rename_i hi
      obtain ⟨hr, hl⟩ := isAt_iff.1 hi
      have hxe := hx e List.mem_cons_self hr hl
      have ha : (e.term + t).All P := h.all_add he ht hxe
      have hk : (kept ⟨row, col, e.term + t⟩).map (Entry.map φ) =
          kept ⟨row, col, (e.map φ).term + t.map φ⟩ := by
        have hm : (e.map φ).term + t.map φ = (e.term + t).map φ := (h.map_add he ht hxe).symm
        rw [hm]
        exact kept_map h ha
      refine ⟨fun c hm => ?_, by rw [List.map_append, hk]⟩
      rcases List.mem_append.1 hm with hm | hm
      · exact all_kept ha c hm
      · exact hes c hm
    · split
      · refine ⟨fun c hm => ?_, by rw [List.map_cons, ih2]⟩
        rcases List.mem_cons.1 hm with rfl | hm
        · exact he
        · exact ih1 c hm
      · refine ⟨fun c hm => ?_, by rw [List.map_append, hk0, List.map_cons]⟩
        rcases List.mem_append.1 hm with hm | hm
        · exact all_kept ha0 c hm
        · exact hc c hm

/-- An exact addition to a matrix is replaced cell by cell. -/
lemma add_map (h : Expr.Faithful P φ) {m : SparseMatrix K} {e : Entry K}
    (hm : ∀ c ∈ m.cells, c.term.All P) (he : e.term.All P)
    (hx : ∀ c ∈ m.cells, c.row = e.row → c.col = e.col → c.term.AddsExactly P φ e.term) :
    (∀ c ∈ (m.add e).cells, c.term.All P) ∧ (m.add e).map φ = (m.map φ).add (e.map φ) := by
  have hz : (e.map φ).term.isZero = e.term.isZero := h.isZero_map he
  have hr : (e.map φ).row = e.row := rfl
  have hl : (e.map φ).col = e.col := rfl
  obtain ⟨h1, h2⟩ := addTo_map h he hm hx
  simp only [add, hz, hr, hl]
  split
  · exact ⟨hm, rfl⟩
  · exact ⟨h1, congrArg (SparseMatrix.mk m.size) h2⟩

/-- Adding entries exactly keeps the image of the matrix. -/
lemma foldl_add_map (h : Expr.Faithful P φ) {m : SparseMatrix K} {es : List (Entry K)}
    (hm : ∀ c ∈ m.cells, c.term.All P) (hes : ∀ e ∈ es, e.term.All P)
    (hx : m.WritesExactly P φ es) :
    (es.foldl add m).map φ = (es.map (Entry.map φ)).foldl add (m.map φ) := by
  induction es generalizing m with
  | nil => rfl
  | cons e es ih =>
    obtain ⟨hxe, hxes⟩ := hx
    obtain ⟨h1, h2⟩ := add_map h hm (hes e List.mem_cons_self) hxe
    rw [List.map_cons, List.foldl_cons, List.foldl_cons, ← h2]
    exact ih h1 (fun c hc => hes c (List.mem_cons_of_mem e hc)) hxes

end SparseMatrix

namespace Element

/-- The stamp of an element with other constants. -/
lemma Stamped.map (h : Expr.Faithful P φ) {e : Element K} {offset : Option Nat}
    {es : List (Entry K)} (hs : e.Stamped offset es) (he : e.value.All P) :
    (e.map φ).Stamped offset (es.map (Entry.map φ)) ∧ ∀ x ∈ es, x.term.All P := by
  have h1 : (Expr.one : Expr K).All P := h.one
  have hm1 : (Expr.one : Expr K).map φ = Expr.one := h.map_one
  have hn1 : (-(Expr.one : Expr K)).map φ = -Expr.one := by rw [h.map_neg h1, hm1]
  have hnv : (-e.value).map φ = -e.value.map φ := h.map_neg he
  have ha1 : (-(Expr.one : Expr K)).All P := h.all_neg h1
  have hav : (-e.value).All P := h.all_neg he
  -- every stamp is made of one, the value and their negations
  cases hs with
  | @impedance n m k hf hn =>
    have hs : (Stamp.impedance n.index m.index e.value k).map (Entry.map φ) =
        Stamp.impedance n.index m.index (e.map φ).value k := by
      simp [Stamp.impedance, Entry.map, Element.map, hm1, hn1, hnv]
    rw [hs]
    refine ⟨.impedance hf hn, ?_⟩
    simp [Stamp.impedance, h1, ha1, he, hav]
  | @voltageSource n m k hk hn =>
    have hs : (Stamp.voltageSource n.index m.index k).map (Entry.map φ) =
        Stamp.voltageSource n.index m.index k := by
      simp [Stamp.voltageSource, Entry.map, hm1, hn1]
    rw [hs]
    refine ⟨.voltageSource hk hn, ?_⟩
    simp [Stamp.voltageSource, h1, ha1]
  | currentSource hk hn =>
    refine ⟨.currentSource hk hn, fun x hx => ?_⟩
    cases hx
  | @opamp n m o k hk hn =>
    have hs : (Stamp.opamp n.index m.index o.index k).map (Entry.map φ) =
        Stamp.opamp n.index m.index o.index k := by
      simp [Stamp.opamp, Entry.map, hm1, hn1]
    rw [hs]
    refine ⟨.opamp hk hn, ?_⟩
    simp [Stamp.opamp, h1, ha1]
  | @vcvs n m p q k hk hn =>
    have hs : (Stamp.vcvs n.index m.index p.index q.index e.value k).map (Entry.map φ) =
        Stamp.vcvs n.index m.index p.index q.index (e.map φ).value k := by
      simp [Stamp.vcvs, Entry.map, Element.map, hm1, hn1, hnv]
    rw [hs]
    refine ⟨.vcvs hk hn, ?_⟩
    simp [Stamp.vcvs, h1, ha1, he, hav]
  | @ccvs n m p q k hk hn =>
    have hs : (Stamp.ccvs n.index m.index p.index q.index e.value k).map (Entry.map φ) =
        Stamp.ccvs n.index m.index p.index q.index (e.map φ).value k := by
      simp [Stamp.ccvs, Entry.map, Element.map, hm1, hn1, hnv]
    rw [hs]
    refine ⟨.ccvs hk hn, ?_⟩
    simp [Stamp.ccvs, h1, ha1, hav]
  | @vccs n m p q _ hk hn =>
    have hs : (Stamp.vccs n.index m.index p.index q.index e.value).map (Entry.map φ) =
        Stamp.vccs n.index m.index p.index q.index (e.map φ).value := by
      simp [Stamp.vccs, Entry.map, Element.map, hnv]
    rw [hs]
    refine ⟨.vccs hk hn, ?_⟩
    simp [Stamp.vccs, he, hav]
  | @cccs n m p q k hk hn =>
    have hs : (Stamp.cccs n.index m.index p.index q.index e.value k).map (Entry.map φ) =
        Stamp.cccs n.index m.index p.index q.index (e.map φ).value k := by
      simp [Stamp.cccs, Entry.map, Element.map, hm1, hn1, hnv]
    rw [hs]
    refine ⟨.cccs hk hn, ?_⟩
    simp [Stamp.cccs, h1, ha1, he, hav]
  | port hk hn =>
    refine ⟨.port hk hn, fun x hx => ?_⟩
    cases hx

end Element

namespace LinearSystem

/-- The entries of the stamps of elements, in the order in which they are written. -/
def entriesOf (ps : List (Element K × Option Nat)) : List (Entry K) :=
  ps.flatMap fun p => (p.1.stamp p.2).toOption.getD []

omit [BEq K] [Zero K] [Add K] in
/-- The entries of elements are those of their stamps, in order. -/
lemma Stamps.entriesOf_eq {ps : List (Element K × Option Nat)} {stamps : List (List (Entry K))}
    (h : Stamps ps stamps) : entriesOf ps = stamps.flatten := by
  induction h with
  | nil => rfl
  | @cons p stamp ps stamps hp _ ih =>
    have hs : p.1.stamp p.2 = .ok stamp := Element.stamp_eq_ok_iff.2 hp
    rw [entriesOf, List.flatMap_cons, hs, List.flatten_cons, ← ih]
    rfl

/-- Whether elements are assembled without adding two constants with a loss. -/
def AssemblesExactly (P : K → Prop) (φ : K → L) (elements : List (Element K)) (nodes : NodeTable) :
    Prop :=
  let l := layoutOf elements nodes
  ({ size := l.size } : SparseMatrix K).WritesExactly P φ (entriesOf (elements.zip l.offsets))

instance [DecidableEq L] (P : K → Prop) [DecidablePred P] (φ : K → L) (elements : List (Element K))
    (nodes : NodeTable) : Decidable (AssemblesExactly P φ elements nodes) :=
  SparseMatrix.decidableWritesExactly P φ _ _

/-- Replaced constants make stamps with replaced constants. -/
lemma Stamps.map (h : Expr.Faithful P φ) {elements : List (Element K)}
    {offsets : List (Option Nat)} {stamps : List (List (Entry K))}
    (hs : Stamps (elements.zip offsets) stamps) (he : ∀ e ∈ elements, e.value.All P) :
    Stamps ((elements.map (Element.map φ)).zip offsets) (stamps.map (List.map (Entry.map φ))) ∧
      ∀ x ∈ stamps.flatten, x.term.All P := by
  induction elements generalizing offsets stamps with
  | nil =>
    cases hs
    exact ⟨.nil, nofun⟩
  | cons e elements ih =>
    cases offsets with
    | nil =>
      cases hs
      exact ⟨.nil, nofun⟩
    | cons offset offsets =>
      obtain _ | ⟨hp, hps⟩ := hs
      obtain ⟨h1, h2⟩ := hp.map h (he e List.mem_cons_self)
      obtain ⟨ih1, ih2⟩ := ih hps fun e' he' => he e' (List.mem_cons_of_mem e he')
      refine ⟨.cons h1 ih1, fun x hx => ?_⟩
      rcases List.mem_append.1 hx with hx | hx
      · exact h2 x hx
      · exact ih2 x hx

/-- The system of elements with other constants has these constants in place of the others, if the
elements are assembled exactly. -/
theorem assemble_map (h : Expr.Faithful P φ) {elements : List (Element K)} {nodes : NodeTable}
    (hc : ∀ e ∈ elements, e.Connected nodes) (he : ∀ e ∈ elements, e.value.All P)
    (hx : AssemblesExactly P φ elements nodes) {s : LinearSystem K}
    (hs : assemble elements nodes = .ok s) :
    assemble (elements.map (Element.map φ)) nodes = .ok (s.map φ) := by
  obtain ⟨labels, stamps, hl, -, hst, hr, ha⟩ := assemble_eq_ok hc
  rw [ha] at hs
  cases hs
  obtain ⟨hst', hall⟩ := hst.map h he
  have hf : (stamps.map (List.map (Entry.map φ))).flatten = stamps.flatten.map (Entry.map φ) :=
    List.map_flatten.symm
  have hm := SparseMatrix.foldl_add_map h (m := { size := (layoutOf elements nodes).size }) nofun
    hall (hst.entriesOf_eq ▸ hx)
  have ha' := stampAll_eq_ok (m := { size := (layoutOf elements nodes).size }) hst' fun x hx' => by
    rw [hf] at hx'
    obtain ⟨y, hy, rfl⟩ := List.mem_map.1 hx'
    exact SparseMatrix.admits_iff.2 (hr y hy)
  rw [hf] at ha'
  simp only [assemble, layoutOf_map, unknownLabels_map, hl, ha', LinearSystem.map, hm]
  rfl

end LinearSystem

end Nodal
