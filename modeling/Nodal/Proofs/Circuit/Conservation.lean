import Nodal.Proofs.Circuit.Assembly
import Nodal.Proofs.Circuit.Copies
import Nodal.Proofs.LinearSystem.Conservation
import Nodal.Proofs.LinearSystem.Reordering
/-!
# Conservation laws of a circuit

A circuit whose nets are all other than ground is floating: only differences of its voltages matter, and no
current is lost in it but through its amplifiers (`Circuit.read_conserves`).
-/

namespace Nodal

open Finset (Icc)

/-- Nodes of nets other than ground are numbered from one. -/
lemma Element.Numbered.floating {K : Type} {t : NodeTable} {e : Element K} (h : e.Numbered t)
    (hg : ∀ net ∈ e.nets, net ∉ groundNames) : e.Floating := by
  intro n hn
  obtain ⟨net, hnet, hf⟩ := h.exists_net hn
  by_contra hz
  obtain rfl : n = .ground := by
    obtain ⟨i⟩ := n
    exact congrArg Node.mk (by simpa using hz)
  exact hg net hnet (NodeTable.find?_eq_ground_iff.1 hf)

namespace Circuit

variable {o : Options} {text : String}

/-- Each row of the system of a circuit without ground adds up to zero over the nodes, and each column does if
there is no amplifier; with a node the matrix is singular. -/
theorem read_conserves (h : (read o text).error? = none)
    (hg : ∀ e ∈ (read o text).circuit.elements, ∀ net ∈ e.nets, net ∉ groundNames)
    (hf : ∀ e ∈ (read o text).circuit.elements, e.value.All fun x => x.isFinite = true) :
    let c := (read o text).circuit
    ∃ f s, c.assemble = .ok f ∧ LinearSystem.AssembledTo c.elements c.nodes f s ∧
      ∀ env : String → ℚ,
        (∀ row ∈ Icc 1 s.size, ∑ col ∈ Icc 1 c.nodes.count, s.matrix.value env row col = 0) ∧
        (∀ x v, ∀ row ∈ Icc 1 s.size,
          s.matrix.rowTimes env (x + nodeShift c.nodes.count v) row = s.matrix.rowTimes env x row) ∧
        (0 < c.nodes.count → (s.matrix.toMatrix env).det = 0) ∧
        ((∀ e ∈ c.elements, e.kind ≠ .opamp) →
          ∀ col ∈ Icc 1 s.size, ∑ row ∈ Icc 1 c.nodes.count, s.matrix.value env row col = 0) := by
  intro c
  have hc : ∀ e ∈ c.elements, e.Connected c.nodes := connected_of_read h
  obtain ⟨f, s, ha⟩ := LinearSystem.exists_assembledTo hc hf
  have hce := LinearSystem.forall_connected_map hc Decimal.toRat
  have hge : ∀ e ∈ c.elements.map (Element.map Decimal.toRat), e.Floating := by
    intro e he
    obtain ⟨e, hm, rfl⟩ := List.mem_map.1 he
    exact (numbered_of_read h e hm).floating (hg e hm)
  have hpos : ∀ {row : Nat}, row ∈ Icc 1 s.size → row ≠ 0 := by
    intro row hr
    rw [Finset.mem_Icc] at hr
    omega
  refine ⟨f, s, (assemble_eq_of_read h).trans ha.assemble_eq, ha, fun env => ⟨?_, ?_, ?_, ?_⟩⟩
  · exact fun row hr => LinearSystem.sum_node_columns hce hge ha.assemble_exact_eq env (hpos hr)
  · exact fun x v row hr =>
      LinearSystem.rowTimes_add_nodeShift hce hge ha.assemble_exact_eq x v env (hpos hr)
  · exact fun hn => LinearSystem.det_toMatrix_eq_zero hce hge ha.assemble_exact_eq hn env
  · intro ho col hcol
    refine LinearSystem.sum_node_rows hce hge ha.assemble_exact_eq (fun e he => ?_) env hcol
    obtain ⟨e, hm, rfl⟩ := List.mem_map.1 he
    exact ho e hm

/-- A resistor that a controlled source with coinciding terminals stands behind. The matrix is singular, and
the column of the resistor's current adds up to zero. -/
theorem read_conserves_loop :
    let text := "R1 a b 2\nG1 a b b a 0.5\nF1 b a a a r\n"
    let c := (read {} text).circuit
    (read {} text).error? = none ∧ (∀ e ∈ c.elements, ∀ net ∈ e.nets, net ∉ groundNames) ∧
      (∀ e ∈ c.elements, e.value.All fun x => x.isFinite = true) ∧
      0 < c.nodes.count ∧ (∀ e ∈ c.elements, e.kind ≠ .opamp) ∧
      ∃ f s, c.assemble = .ok f ∧ LinearSystem.AssembledTo c.elements c.nodes f s ∧ s.size = 5 ∧
        ∀ env : String → ℚ, (s.matrix.toMatrix env).det = 0 ∧
          ∑ row ∈ Icc 1 c.nodes.count, s.matrix.value env row 3 = 0 := by
  intro text c
  have h : (read {} text).error? = none := by decide +kernel
  have hg : ∀ e ∈ c.elements, ∀ net ∈ e.nets, net ∉ groundNames := by decide +kernel
  have hf : ∀ e ∈ c.elements, e.value.All fun x => x.isFinite = true := by decide +kernel
  have hn : 0 < c.nodes.count := by decide +kernel
  have ho : ∀ e ∈ c.elements, e.kind ≠ .opamp := by decide +kernel
  obtain ⟨f, s, ha, hs, hall⟩ := read_conserves h hg hf
  have hsize : s.size = 5 := by
    have hl : (LinearSystem.layoutOf c.elements c.nodes).size = 5 := by decide +kernel
    rw [hs.size_exact_eq, (LinearSystem.layout_of_assemble (connected_of_read h) hs.assemble_eq).2.2, hl]
  refine ⟨h, hg, hf, hn, ho, f, s, ha, hs, hsize, fun env => ?_⟩
  obtain ⟨-, -, hdet, hcol⟩ := hall env
  exact ⟨hdet hn, hcol ho 3 (Finset.mem_Icc.2 ⟨by decide, by rw [hsize]; decide⟩)⟩

end Circuit

end Nodal
