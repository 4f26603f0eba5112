import Nodal.Proofs.Decimal.Double
import Nodal.Proofs.LinearSystem.Exact
import Nodal.Proofs.LinearSystem.Renumbering
/-!
# Systems of rearranged elements

Elements in another order have the same stamps, but for the numbers of the unknowns
(`Element.Stamped.reindex`). So the entries that are written to a cell come in another order, and over a
commutative ring they add up to the same (`LinearSystem.value_of_rearranged`). What is assembled does not
depend on the order of the elements otherwise (`LinearSystem.assemble_rearranged`).
-/

namespace Nodal

variable {K : Type}

/-- Renumbers the row and the column of an entry. -/
def Entry.reindex (φ : Nat → Nat) (x : Entry K) : Entry K :=
  { row := φ x.row, col := φ x.col, term := x.term }

namespace Element

/-- Whether a renumbering keeps the nodes of an element, and the auxiliary unknowns behind its offset in
their order. -/
structure KeptBy (φ : Nat → Nat) (offset : Option Nat) (e : Element K) : Prop where
  node : ∀ n ∈ e.nodes, φ n.index = n.index
  aux : ∀ k, offset = some k → ∀ j < e.auxCount, φ (k + j) = φ k + j

variable [One K] [Neg K]

/-- A stamp goes with the unknowns of its element. -/
lemma Stamped.reindex {φ : Nat → Nat} {e : Element K} {offset : Option Nat} {stamp : List (Entry K)}
    (h : e.Stamped offset stamp) (hφ : e.KeptBy φ offset) :
    e.Stamped (offset.map φ) (stamp.map (Entry.reindex φ)) := by
  have hi := hφ.node
  cases h with
  | @impedance n m k hf hn =>
    simp only [hn, List.forall_mem_cons] at hi
    have hs : (Stamp.impedance n.index m.index e.value k).map (Entry.reindex φ) =
        Stamp.impedance n.index m.index e.value (φ k) := by
      simp [Stamp.impedance, Entry.reindex, hi]
    rw [hs]
    exact .impedance hf hn
  | @voltageSource n m k hk hn =>
    simp only [hn, List.forall_mem_cons] at hi
    have hs : (Stamp.voltageSource n.index m.index k : List (Entry K)).map (Entry.reindex φ) =
        Stamp.voltageSource n.index m.index (φ k) := by
      simp [Stamp.voltageSource, Entry.reindex, hi]
    rw [hs]
    exact .voltageSource hk hn
  | currentSource hk hn => exact .currentSource hk hn
  | @opamp n m o k hk hn =>
    simp only [hn, List.forall_mem_cons] at hi
    have hs : (Stamp.opamp n.index m.index o.index k : List (Entry K)).map (Entry.reindex φ) =
        Stamp.opamp n.index m.index o.index (φ k) := by
      simp [Stamp.opamp, Entry.reindex, hi]
    rw [hs]
    exact .opamp hk hn
  | @vcvs n m p q k hk hn =>
    simp only [hn, List.forall_mem_cons] at hi
    have hs : (Stamp.vcvs n.index m.index p.index q.index e.value k).map (Entry.reindex φ) =
        Stamp.vcvs n.index m.index p.index q.index e.value (φ k) := by
      simp [Stamp.vcvs, Entry.reindex, hi]
    rw [hs]
    exact .vcvs hk hn
  | @ccvs n m p q k hk hn =>
    simp only [hn, List.forall_mem_cons] at hi
    -- the only element with two auxiliary unknowns
    have h1 : φ (k + 1) = φ k + 1 := hφ.aux k rfl 1 (by rw [auxCount, hk]; decide)
    have hs : (Stamp.ccvs n.index m.index p.index q.index e.value k).map (Entry.reindex φ) =
        Stamp.ccvs n.index m.index p.index q.index e.value (φ k) := by
      simp [Stamp.ccvs, Entry.reindex, hi, h1]
    rw [hs]
    exact .ccvs hk hn
  | @vccs n m p q _ hk hn =>
    simp only [hn, List.forall_mem_cons] at hi
    have hs : (Stamp.vccs n.index m.index p.index q.index e.value).map (Entry.reindex φ) =
        Stamp.vccs n.index m.index p.index q.index e.value := by
      simp [Stamp.vccs, Entry.reindex, hi]
    rw [hs]
    exact .vccs hk hn
  | @cccs n m p q k hk hn =>
    simp only [hn, List.forall_mem_cons] at hi
    have hs : (Stamp.cccs n.index m.index p.index q.index e.value k).map (Entry.reindex φ) =
        Stamp.cccs n.index m.index p.index q.index e.value (φ k) := by
      simp [Stamp.cccs, Entry.reindex, hi]
    rw [hs]
    exact .cccs hk hn
  | port hk hn => exact .port hk hn

end Element

namespace SparseMatrix

variable {R : Type} [CommRing R] {env : String → R}

/-- The total of stamps is the sum of their totals. -/
lemma total_flatten (row col : Nat) (stamps : List (List (Entry R))) :
    total env row col stamps.flatten = (stamps.map (total env row col)).sum := by
  induction stamps with
  | nil => rfl
  | cons stamp stamps ih => rw [List.flatten_cons, total_append, ih, List.map_cons, List.sum_cons]

/-- Entries add up at a cell to what they add up to where the cell moves. -/
lemma total_reindex {φ : Nat → Nat} {row col : Nat} {es : List (Entry R)}
    (hr : ∀ x ∈ es, φ x.row = φ row ↔ x.row = row) (hc : ∀ x ∈ es, φ x.col = φ col ↔ x.col = col) :
    total env (φ row) (φ col) (es.map (Entry.reindex φ)) = total env row col es := by
  rw [total, total, List.map_map]
  congr 1
  apply List.map_congr_left
  intro x hx
  simp only [Function.comp, Entry.reindex, hr x hx, hc x hx]

end SparseMatrix

namespace LinearSystem

variable {n : Nat} {σ : Equiv.Perm (Fin n)} {nodes : NodeTable} {φ : Nat → Nat}

/-- Every element has an offset, which may be none. -/
lemma length_offsets (elements : List (Element K)) (nodes : NodeTable) :
    (layoutOf elements nodes).offsets.length = elements.length := by
  simp [Layout.offsets, layoutOf]

/-- There is a stamp for each element. -/
lemma Stamps.length_eq [One K] [Neg K] {elements : List (Element K)} {stamps : List (List (Entry K))}
    (h : Stamps (elements.zip (layoutOf elements nodes).offsets) stamps) :
    stamps.length = elements.length := by
  rw [← List.Forall₂.length_eq h, List.length_zip, length_offsets, Nat.min_self]

/-- A renumbering of the unknowns keeps each element and moves its offset. -/
lemma keptBy_of_renumbers {elements elements' : List (Element K)} (h : Rearranges σ elements elements')
    (hc : ∀ e ∈ elements, e.Connected nodes)
    (hφ : Layout.Renumbers σ (layoutOf elements nodes) (layoutOf elements' nodes) φ) {i : Fin n}
    {e : Element K} {offset : Option Nat} (he : elements[(σ i).val]? = some e)
    (ho : (layoutOf elements nodes).offsets[(σ i).val]? = some offset) :
    e.KeptBy φ offset ∧ (layoutOf elements' nodes).offsets[i.val]? = some (offset.map φ) := by
  have hk : (layoutOf elements nodes).kinds[(σ i).val]? = some e.kind := by simp [layoutOf, he]
  have hk' : (layoutOf elements' nodes).kinds[i.val]? = some e.kind := by
    rw [(reorders_layoutOf h).kinds.getElem?_eq, hk]
  have hnode : ∀ n ∈ e.nodes, φ n.index = n.index := fun n hn =>
    hφ.apply_node ((hc e (List.mem_of_getElem? he)).index_le_count n hn)
  cases offset with
  | none =>
    refine ⟨⟨hnode, fun k hn => absurd hn.symm (Option.some_ne_none k)⟩, ?_⟩
    rw [Layout.getElem?_offsets, hk] at ho
    rw [Layout.getElem?_offsets, hk']
    simpa using ho
  | some k =>
    -- the unknowns of an element move as one block with its offset
    obtain ⟨f, hf, -⟩ := Layout.family?_of_offset hk ho
    have ho' := Layout.offset_of_family? hk' hf
    have haux : ∀ j < e.auxCount, φ (k + j) = _ + j := fun j hj =>
      hφ _ _ (.aux hk ho ho' hj rfl rfl)
    have h0 : φ k = _ := haux 0 (by
      rw [Element.auxCount, Kind.auxCount_of_family? hf]
      exact f.width_pos)
    refine ⟨⟨hnode, fun k' hk' j hj => ?_⟩, ?_⟩
    · cases hk'
      rw [haux j hj, h0, Nat.add_zero]
    · rw [ho', Option.map_some, h0, Nat.add_zero]

/-- Rearranged elements have the same stamps, renumbered, in their new order. -/
lemma Stamps.reindex [One K] [Neg K] {elements elements' : List (Element K)}
    (h : Rearranges σ elements elements') (hc : ∀ e ∈ elements, e.Connected nodes)
    (hφ : Layout.Renumbers σ (layoutOf elements nodes) (layoutOf elements' nodes) φ)
    {stamps stamps' : List (List (Entry K))}
    (hs : Stamps (elements.zip (layoutOf elements nodes).offsets) stamps)
    (hs' : Stamps (elements'.zip (layoutOf elements' nodes).offsets) stamps') :
    Rearranges σ (stamps.map (List.map (Entry.reindex φ))) stamps' := by
  refine ⟨by rw [List.length_map, hs.length_eq, h.length_eq], by rw [hs'.length_eq, h.length_eq'],
    fun i => ?_⟩
  have hi : (σ i).val < elements.length := by
    rw [h.length_eq]
    exact (σ i).isLt
  obtain ⟨e, he⟩ : ∃ e, elements[(σ i).val]? = some e := ⟨_, List.getElem?_eq_getElem hi⟩
  obtain ⟨offset, ho⟩ : ∃ offset, (layoutOf elements nodes).offsets[(σ i).val]? = some offset :=
    ⟨_, List.getElem?_eq_getElem (by rwa [length_offsets])⟩
  obtain ⟨hk, ho'⟩ := keptBy_of_renumbers h hc hφ he ho
  have he' : elements'[i.val]? = some e := by rw [h.getElem?_eq, he]
  obtain ⟨stamp, hi, hst⟩ := hs.exists_stamp (p := (e, offset)) (List.getElem?_zip_eq_some.2 ⟨he, ho⟩)
  obtain ⟨stamp', hi', hst'⟩ := hs'.exists_stamp (p := (e, offset.map φ))
    (List.getElem?_zip_eq_some.2 ⟨he', ho'⟩)
  rw [hi', List.getElem?_map, hi, Option.map_some, hst'.unique (hst.reindex hk)]

section Values

variable {R : Type} [CommRing R] [BEq R] [LawfulBEq R] {elements elements' : List (Element R)}
  {s s' : LinearSystem R}

/-- The cells of a system of rearranged elements hold what the cells that move there hold. -/
theorem value_of_rearranged (h : Rearranges σ elements elements')
    (hc : ∀ e ∈ elements, e.Connected nodes) (hs : assemble elements nodes = .ok s)
    (hs' : assemble elements' nodes = .ok s')
    (hφ : Layout.Renumbers σ (layoutOf elements nodes) (layoutOf elements' nodes) φ)
    (env : String → R) {r c : Nat} (hr : 1 ≤ r) (hr' : r ≤ s.size) (hcol : 1 ≤ c) (hcol' : c ≤ s.size) :
    s'.matrix.value env (φ r) (φ c) = s.matrix.value env r c := by
  have hl : Layout.Reorders σ (layoutOf elements nodes) (layoutOf elements' nodes) :=
    reorders_layoutOf h
  have hc' : ∀ e ∈ elements', e.Connected nodes := fun e he => hc e (h.mem he)
  obtain ⟨labels, stamps, -, -, hst, hle, ha⟩ := assemble_eq_ok hc
  obtain ⟨labels', stamps', -, -, hst', -, ha'⟩ := assemble_eq_ok hc'
  have hsize := (layout_of_assemble hc hs).2.2
  rw [hsize] at hr' hcol'
  rw [ha] at hs
  rw [ha'] at hs'
  cases hs
  cases hs'
  have hpos : φ r ≠ 0 := Nat.ne_of_gt ((hφ.bijOn hl).mapsTo ⟨hr, hr'⟩).1
  have hpos' : φ c ≠ 0 := Nat.ne_of_gt ((hφ.bijOn hl).mapsTo ⟨hcol, hcol'⟩).1
  -- the totals of both systems are sums over the same stamps, which addition does not tell apart
  have htotal : SparseMatrix.total env (φ r) (φ c) stamps'.flatten =
      SparseMatrix.total env r c stamps.flatten := by
    rw [SparseMatrix.total_flatten, ((hst.reindex h hc hφ hst').map _).sum_eq,
      ← SparseMatrix.total_flatten, ← List.map_flatten]
    exact SparseMatrix.total_reindex (fun x hx => hφ.eq_iff hl (hle x hx).1 hr')
      (fun x hx => hφ.eq_iff hl (hle x hx).2 hcol')
  rw [SparseMatrix.value_foldl_add_empty _ _ hpos hpos',
    SparseMatrix.value_foldl_add_empty _ _ (by omega) (by omega), htotal]

end Values

/-- An unknown of a system of rearranged elements has the label that it had before. -/
lemma label?_of_rearranged [BEq K] [Zero K] [One K] [Add K] [Neg K] {elements elements' : List (Element K)}
    {s s' : LinearSystem K} (h : Rearranges σ elements elements')
    (hc : ∀ e ∈ elements, e.Connected nodes) (hs : assemble elements nodes = .ok s)
    (hs' : assemble elements' nodes = .ok s')
    (hφ : Layout.Renumbers σ (layoutOf elements nodes) (layoutOf elements' nodes) φ) {r : Nat}
    (hr : 1 ≤ r) (hr' : r ≤ s.size) : s'.label? (φ r) = s.label? r := by
  have hl : Layout.Reorders σ (layoutOf elements nodes) (layoutOf elements' nodes) :=
    reorders_layoutOf h
  obtain ⟨hlabels, -, hsize⟩ := layout_of_assemble hc hs
  obtain ⟨hlabels', -, -⟩ := layout_of_assemble (fun e he => hc e (h.mem he)) hs'
  rw [hsize] at hr'
  have hm := hφ.moves hl hr'
  obtain ⟨q, rfl⟩ := Nat.exists_eq_add_one.2 hr
  obtain ⟨q', hq'⟩ := Nat.exists_eq_add_one.2 ((hm.pos_iff hl).2 hr)
  rw [hq'] at hm ⊢
  exact getElem?_unknownLabels_of_moves h hlabels hlabels' hm

/-- Whether elements are assembled to the system `f`, and to `s` if their constants are taken as the
rational numbers that they are. -/
structure AssembledTo (elements : List (Element Float)) (nodes : NodeTable) (f : LinearSystem Float)
    (s : LinearSystem ℚ) : Prop where
  assemble_eq : assemble elements nodes = .ok f
  assemble_exact_eq : assemble (elements.map (Element.map Decimal.toRat)) nodes = .ok s
  offsets_eq : f.offsets = (layoutOf elements nodes).offsets
  offsets_exact_eq : s.offsets = f.offsets
  labels_exact_eq : s.labels = f.labels
  size_exact_eq : s.size = f.size
  /-- The systems are the same if no sum of constants is rounded or becomes infinite. -/
  map_eq : AssemblesExactly (fun x : Float => x.isFinite = true) Decimal.toRat elements nodes →
    f.map Decimal.toRat = s

/-- Connected elements with finite constants are assembled. -/
lemma exists_assembledTo {elements : List (Element Float)} (hc : ∀ e ∈ elements, e.Connected nodes)
    (hf : ∀ e ∈ elements, e.value.All fun x => x.isFinite = true) :
    ∃ f s, AssembledTo elements nodes f s := by
  have hce := forall_connected_map hc Decimal.toRat
  obtain ⟨f, ha⟩ := exists_assemble_eq_ok hc
  obtain ⟨s, hs⟩ := exists_assemble_eq_ok hce
  obtain ⟨h1, h2, h3⟩ := layout_of_assemble hc ha
  obtain ⟨h1', h2', h3'⟩ := layout_of_assemble hce hs
  rw [unknownLabels_map, h1] at h1'
  rw [layoutOf_map, ← h2] at h2'
  rw [layoutOf_map, ← h3] at h3'
  refine ⟨f, s, ha, hs, h2, h2', (Except.ok.inj h1').symm, h3', fun hx => ?_⟩
  exact Except.ok.inj ((assemble_map Decimal.faithful_toRat hc hf hx ha).symm.trans hs)

/-- Elements in another order are assembled to the same system with its unknowns in another order: each has
its label, and each cell its value at rational constants. -/
theorem assemble_rearranged {elements elements' : List (Element Float)}
    (h : Rearranges σ elements elements') (hc : ∀ e ∈ elements, e.Connected nodes)
    (hf : ∀ e ∈ elements, e.value.All fun x => x.isFinite = true) :
    ∃ f s f' s', AssembledTo elements nodes f s ∧ AssembledTo elements' nodes f' s' ∧
      f'.size = f.size ∧
      (∃ φ, Layout.Renumbers σ (layoutOf elements nodes) (layoutOf elements' nodes) φ) ∧
      ∀ φ, Layout.Renumbers σ (layoutOf elements nodes) (layoutOf elements' nodes) φ →
        Set.BijOn φ (Set.Icc 1 f.size) (Set.Icc 1 f'.size) ∧
        (∀ env r c, r ∈ Set.Icc 1 f.size → c ∈ Set.Icc 1 f.size →
          s'.matrix.value env (φ r) (φ c) = s.matrix.value env r c) ∧
        ∀ r ∈ Set.Icc 1 f.size, f'.label? (φ r) = f.label? r := by
  have hl : Layout.Reorders σ (layoutOf elements nodes) (layoutOf elements' nodes) :=
    reorders_layoutOf h
  have hc' : ∀ e ∈ elements', e.Connected nodes := fun e he => hc e (h.mem he)
  obtain ⟨f, s, ha⟩ := exists_assembledTo hc hf
  obtain ⟨f', s', ha'⟩ := exists_assembledTo hc' fun e he => hf e (h.mem he)
  have hsize := (layout_of_assemble hc ha.assemble_eq).2.2
  have hsize' := (layout_of_assemble hc' ha'.assemble_eq).2.2
  refine ⟨f, s, f', s', ha, ha', ?_, Layout.exists_renumbers _ _ _, fun φ hφ => ⟨?_, ?_, ?_⟩⟩
  · rw [hsize', hsize, hl.size_eq]
  · rw [hsize', hsize]
    exact hφ.bijOn hl
  · -- values are compared at rational constants, where the order of a sum does not matter
    intro env r c hr hcol
    rw [← ha.size_exact_eq] at hr hcol
    refine value_of_rearranged (h.map (Element.map Decimal.toRat)) (forall_connected_map hc _)
      ha.assemble_exact_eq ha'.assemble_exact_eq ?_ env hr.1 hr.2 hcol.1 hcol.2
    rw [layoutOf_map, layoutOf_map]
    exact hφ
  · exact fun r hr => label?_of_rearranged h hc ha.assemble_eq ha'.assemble_eq hφ hr.1 hr.2

/-- The first resistor of three elements takes the unknown of the last, as they change places. The source
between them keeps its two unknowns. -/
theorem assemble_rearranged_swap :
    let nodes : NodeTable := { names := ["a", "b"], no_ground := by decide }
    let r₁ : Element Float :=
      { kind := .resistor, name := "R1", nets := ["a", "0"], value := .sym "R", nodes := [⟨1⟩, ⟨0⟩] }
    let f₁ : Element Float :=
      { kind := .ccvs, name := "F1", nets := ["b", "0", "a", "b"], value := .num 2
        nodes := [⟨2⟩, ⟨0⟩, ⟨1⟩, ⟨2⟩] }
    let r₂ : Element Float :=
      { kind := .resistor, name := "R2", nets := ["a", "b"], value := .num 3, nodes := [⟨1⟩, ⟨2⟩] }
    Rearranges (Equiv.swap 0 2 : Equiv.Perm (Fin 3)) [r₁, f₁, r₂] [r₂, f₁, r₁] ∧
      (∀ e ∈ [r₁, f₁, r₂], e.Connected nodes) ∧
      (∀ e ∈ [r₁, f₁, r₂], e.value.All fun x => x.isFinite = true) ∧
      ∃ f s f' s', AssembledTo [r₁, f₁, r₂] nodes f s ∧ AssembledTo [r₂, f₁, r₁] nodes f' s' ∧
        (∀ env, s'.matrix.value env 4 1 = s.matrix.value env 3 1) ∧
        (∀ env, s'.matrix.value env 2 6 = s.matrix.value env 2 6) ∧ f'.label? 4 = f.label? 3 := by
  intro nodes r₁ f₁ r₂
  have h : Rearranges (Equiv.swap 0 2 : Equiv.Perm (Fin 3)) [r₁, f₁, r₂] [r₂, f₁, r₁] := by
    refine ⟨rfl, rfl, fun i => ?_⟩
    fin_cases i <;> rfl
  have hc : ∀ e ∈ [r₁, f₁, r₂], e.Connected nodes := by
    simp only [List.forall_mem_cons, List.not_mem_nil, false_implies, implies_true, and_true]
    exact ⟨⟨rfl, by decide⟩, ⟨rfl, by decide⟩, ⟨rfl, by decide⟩⟩
  have hf : ∀ e ∈ [r₁, f₁, r₂], e.value.All fun x => x.isFinite = true := by
    decide +kernel
  obtain ⟨f, s, f', s', ha, ha', hsize, ⟨φ, hφ⟩, hall⟩ := assemble_rearranged h hc hf
  obtain ⟨-, hv, hlabel⟩ := hall φ hφ
  have hnode : ∀ n ≤ 2, φ n = n := fun n hn => hφ n n (.node hn rfl)
  have h3 : φ 3 = 4 := hφ 3 4 (.aux (i := 2) (k := 3) (j := 0) rfl rfl rfl (by decide) rfl rfl)
  have h6 : φ 6 = 6 := hφ 6 6 (.aux (i := 1) (k := 5) (j := 1) rfl rfl rfl (by decide) rfl rfl)
  have hs : f.size = 6 := by
    rw [(layout_of_assemble hc ha.assemble_eq).2.2]
    rfl
  refine ⟨h, hc, hf, f, s, f', s', ha, ha', fun env => ?_, fun env => ?_, ?_⟩
  · rw [← h3, ← hv env 3 1 (by simp [hs]) (by simp [hs]), hnode 1 (by decide)]
  · rw [← hv env 2 6 (by simp [hs]) (by simp [hs]), hnode 2 (by decide), h6]
  · rw [← h3, hlabel 3 (by simp [hs])]

end LinearSystem

end Nodal
