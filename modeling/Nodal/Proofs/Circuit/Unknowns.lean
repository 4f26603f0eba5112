import Mathlib.Logic.ExistsUnique
import Nodal.Proofs.Circuit.Assembly
import Nodal.Proofs.LinearSystem.Labels
/-!
# The unknowns of a circuit

Three parts of a system say what its unknowns are: the labels, the kind of each index, and the offsets of
the elements. They agree. An index up to the node count is that of a node, labelled with its net; an index
behind is that of one auxiliary unknown of one element (`LinearSystem.existsUnique_isAux`), labelled as the
element labels it (`LinearSystem.label?_of_isAux`). `Circuit.read_labels` states this of every circuit that
was read.
-/

namespace Nodal

namespace LinearSystem

variable {K : Type} {elements : List (Element K)} {nodes : NodeTable} {s : LinearSystem K} {n : Nat}

/-- Whether the unknown with index `n` is auxiliary unknown number `j`, from zero, of element number `i`. -/
def IsAux (s : LinearSystem K) (elements : List (Element K)) (n i j : Nat) : Prop :=
  ∃ e k, elements[i]? = some e ∧ s.offsets[i]? = some (some k) ∧ j < e.auxCount ∧ n = k + j

/-- Every index behind the nodes is that of one auxiliary unknown of one element. -/
lemma existsUnique_isAux (ho : s.offsets = (layoutOf elements nodes).offsets) (hn : nodes.count < n)
    (hs : n ≤ (layoutOf elements nodes).size) : ∃! p : Nat × Nat, s.IsAux elements n p.1 p.2 := by
  obtain ⟨i, hi⟩ := Layout.exists_owns_iff.2 ⟨hn, hs⟩
  obtain ⟨kind, k, hk, hoff, h1, h2⟩ := id hi
  obtain ⟨e, he, rfl⟩ : ∃ e, elements[i]? = some e ∧ e.kind = kind := by
    simpa [layoutOf] using hk
  have hj : n - k < e.kind.auxCount := by omega
  refine ⟨(i, n - k), ⟨e, k, he, ho ▸ hoff, hj, (Nat.add_sub_cancel' h1).symm⟩, ?_⟩
  rintro ⟨i', j'⟩ ⟨e', k', he', hoff', hj', hnk⟩
  -- both elements own the index, so they are one, and it has one offset
  have hk' : (layoutOf elements nodes).kinds[i']? = some e'.kind := by simp [layoutOf, he']
  have hi' : (layoutOf elements nodes).Owns i' n := hnk ▸ Layout.owns_of_offset hk' (ho ▸ hoff') hj'
  obtain rfl := hi'.unique hi
  rw [ho, hoff] at hoff'
  cases hoff'
  rw [hnk, Nat.add_sub_cancel_left]

/-- An auxiliary unknown is labelled as its element labels it. -/
lemma label?_of_isAux (hl : unknownLabels elements nodes = .ok s.labels)
    (ho : s.offsets = (layoutOf elements nodes).offsets) {i j : Nat} (h : s.IsAux elements n i j) :
    ∃ e label, elements[i]? = some e ∧ e.auxLabels[j]? = some label ∧ s.label? n = some label := by
  obtain ⟨e, k, he, hoff, hj, rfl⟩ := h
  have hlabel := List.getElem?_eq_getElem (show j < e.auxLabels.length by
    rw [Element.length_auxLabels]
    exact hj)
  have hk : (layoutOf elements nodes).kinds[i]? = some e.kind := by simp [layoutOf, he]
  have hb := (Layout.exists_owns_iff.1 ⟨i, Layout.owns_of_offset hk (ho ▸ hoff) hj⟩).1
  obtain ⟨q, hq⟩ := Nat.exists_eq_add_of_le' (Nat.le_trans (Nat.le_add_left 1 _) hb)
  refine ⟨e, _, he, hlabel, ?_⟩
  rw [hq]
  exact (getElem?_unknownLabels hl).2 (.inr ⟨he, ho ▸ hoff, k, j, rfl, hq.symm, hlabel⟩)

/-- A node is labelled with its net. -/
lemma label?_of_le_count (hl : unknownLabels elements nodes = .ok s.labels) (h1 : 1 ≤ n)
    (hn : n ≤ nodes.count) :
    ∃ name, nodes.name? ⟨n⟩ = some name ∧ s.label? n = some name := by
  obtain ⟨q, rfl⟩ := Nat.exists_eq_add_of_le' h1
  have hname := List.getElem?_eq_getElem (Nat.lt_of_succ_le hn : q < nodes.names.length)
  exact ⟨_, hname, (getElem?_unknownLabels hl).2 (.inl hname)⟩

/-- What an index of a system is: a node, or behind the nodes an auxiliary unknown. -/
lemma classify?_eq (h1 : 1 ≤ n) (hs : n ≤ s.size) :
    s.classify? n =
      some (if n ≤ s.layout.nodeCount then .node ⟨n⟩ else .aux (n - s.layout.nodeCount - 1)) := by
  rw [classify?, if_neg (Nat.not_lt.2 hs), Unknown.classify?, if_neg (Nat.ne_of_gt h1)]
  split <;> rfl

/-- Nothing is unknown at index zero and beyond the size of the system. -/
lemma classify?_eq_none_iff : s.classify? n = none ↔ n = 0 ∨ s.size < n := by
  constructor
  · intro h
    by_contra hn
    push Not at hn
    rw [classify?_eq (Nat.one_le_iff_ne_zero.2 hn.1) hn.2] at h
    cases h
  · rintro (rfl | hs)
    · simp [classify?, Unknown.classify?]
    · exact if_pos hs

/-- An unknown stands at the index that it is classified from. -/
lemma index_of_classify? {u : Unknown} (h : s.classify? n = some u) : u.index s.layout.nodeCount = n := by
  unfold classify? at h
  split at h
  · cases h
  · exact Unknown.index_of_classify? h

end LinearSystem

namespace Circuit

/-- Every unknown of a circuit that was read has one label, that of its net or the one that the element it
belongs to has for it, and is found again from what it stands for. -/
theorem read_labels {o : Options} {text : String} (h : (read o text).error? = none) :
    let c := (read o text).circuit
    ∃ s, c.assemble = .ok s ∧ s.size = c.size ∧ s.labels.length = s.size ∧
      c.unknownLabels = .ok s.labels ∧
      (∀ n, 1 ≤ n → n ≤ c.nodes.count → s.classify? n = some (.node ⟨n⟩) ∧
        ∃ name, c.nodes.name? ⟨n⟩ = some name ∧ s.label? n = some name) ∧
      (∀ n, c.nodes.count < n → n ≤ s.size →
        s.classify? n = some (.aux (n - c.nodes.count - 1)) ∧
        (∃! p : Nat × Nat, s.IsAux c.elements n p.1 p.2) ∧
        ∀ i j, s.IsAux c.elements n i j →
          ∃ e label, c.elements[i]? = some e ∧ e.auxLabels[j]? = some label ∧
            s.label? n = some label) ∧
      (∀ n, s.classify? n = none ↔ n = 0 ∨ s.size < n) ∧
      ∀ n u, s.classify? n = some u → u.index c.nodes.count = n := by
  intro c
  have hc : ∀ e ∈ c.elements, e.Connected c.nodes := connected_of_read h
  obtain ⟨s, ha, hsize, -⟩ := assemble_of_read h
  have hassemble := (assemble_eq_of_read h).symm.trans ha
  obtain ⟨hl, ho, -⟩ := LinearSystem.layout_of_assemble hc hassemble
  have hcount : s.layout.nodeCount = c.nodes.count := by
    rw [LinearSystem.layout_eq_of_assemble hc hassemble]
    rfl
  have hlen : s.labels.length = s.size := by
    obtain ⟨labels, hl', hlen⟩ := LinearSystem.unknownLabels_eq_ok c.elements c.nodes
    rw [hl] at hl'
    cases hl'
    exact hlen.trans hsize.symm
  have hle : c.nodes.count ≤ s.size := by
    rw [hsize]
    exact Nat.le_add_right _ _
  -- the nodes come first, and what stands behind them are the auxiliary unknowns
  refine ⟨s, ha, hsize, hlen, hl, fun n h1 hn => ?_, fun n hn hs => ?_, fun n => ?_, fun n u hu => ?_⟩
  · refine ⟨?_, LinearSystem.label?_of_le_count hl h1 hn⟩
    rw [LinearSystem.classify?_eq h1 (hn.trans hle), hcount, if_pos hn]
  · refine ⟨?_, LinearSystem.existsUnique_isAux ho hn (hs.trans_eq hsize), fun i j hij => ?_⟩
    · rw [LinearSystem.classify?_eq (Nat.one_le_of_lt hn) hs, hcount, if_neg (Nat.not_le.2 hn)]
    · exact LinearSystem.label?_of_isAux hl ho hij
  · exact LinearSystem.classify?_eq_none_iff
  · rw [← hcount]
    exact LinearSystem.index_of_classify? hu

/-- Four nets, and behind them the current of a resistor, that of an amplifier and the two of a source, in
the order of the families and not of the elements. -/
theorem read_labels_families :
    let text := "F1 o 0 s 0 r\nO1 p n o 1\nI1 s 0 1m\nR1 s p R\n"
    let c := (read {} text).circuit
    (read {} text).error? = none ∧ c.nodes.count = 4 ∧
      ∃ s, c.assemble = .ok s ∧ s.size = 8 ∧
        s.labels = ["o", "s", "p", "n", "R1.p", "O1.out", "F1.p", "F1.cp"] ∧
        s.classify? 4 = some (.node ⟨4⟩) ∧ s.classify? 8 = some (.aux 3) ∧
        (∃! p : Nat × Nat, s.IsAux c.elements 8 p.1 p.2) ∧ s.classify? 9 = none ∧
        (Unknown.aux 3).index c.nodes.count = 8 := by
  intro text c
  have h : (read {} text).error? = none := by decide +kernel
  have hcount : c.nodes.count = 4 := by decide +kernel
  have hsize : c.size = 8 := by decide +kernel
  have hlist : c.unknownLabels =
      .ok ["o", "s", "p", "n", "R1.p", "O1.out", "F1.p", "F1.cp"] := by decide +kernel
  obtain ⟨s, ha, hs, -, hlabels, hnode, haux, hnone, hindex⟩ := read_labels h
  rw [hsize] at hs
  obtain ⟨h8, hunique, -⟩ := haux 8 (by rw [hcount]; decide) (by rw [hs])
  rw [hcount] at h8
  refine ⟨h, hcount, s, ha, hs, ?_, (hnode 4 (by decide) (by rw [hcount])).1, h8, hunique, ?_, hindex 8 _ h8⟩
  · exact Except.ok.inj (hlabels.symm.trans hlist)
  · exact (hnone 9).2 (.inr (by rw [hs]; decide))

end Circuit

end Nodal
