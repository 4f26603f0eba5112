import Nodal.Proofs.Circuit.Assembly
import Nodal.Proofs.Decimal.Double
import Nodal.Proofs.LinearSystem.Equations
import Nodal.Proofs.LinearSystem.Exact
/-!
# The equations of a circuit

The system of a circuit that was read is made of the equations of its elements, when their constants
are taken as the rational numbers that they are (`Circuit.read_represents`). The system that is
assembled with doubles has the same unknowns, and the same numbers wherever the sums of its constants
are exact.
-/

namespace Nodal

namespace Circuit

/-- The elements of a circuit with rational constants. -/
def exactElements (c : Circuit) : List (Element ℚ) :=
  c.elements.map (Element.map Decimal.toRat)

/-- Whether no sum of constants is rounded or becomes infinite while a circuit is assembled. -/
def SumsExactly (c : Circuit) : Prop :=
  LinearSystem.AssemblesExactly (fun x : Float => x.isFinite = true) Decimal.toRat c.elements c.nodes

instance (c : Circuit) : Decidable c.SumsExactly :=
  inferInstanceAs (Decidable (LinearSystem.AssemblesExactly _ _ _ _))

/-- A circuit that was read has a system with rational constants that is made of the equations of its
elements, and it is the assembled one where sums are exact. -/
theorem read_represents {o : Options} {text : String} (h : (read o text).error? = none)
    (hf : ∀ e ∈ (read o text).circuit.elements, e.value.All fun x => x.isFinite = true) :
    let c := (read o text).circuit
    ∃ f s, c.assemble = .ok f ∧ LinearSystem.assemble c.exactElements c.nodes = .ok s ∧
      s.labels = f.labels ∧ s.offsets = f.offsets ∧ s.size = f.size ∧
      s.Represents c.exactElements c.nodes ∧ (c.SumsExactly → f.map Decimal.toRat = s) := by
  intro c
  have hc : ∀ e ∈ c.elements, e.Connected c.nodes := connected_of_read h
  have hce : ∀ e ∈ c.exactElements, e.Connected c.nodes := by
    intro e he
    obtain ⟨e', he', rfl⟩ := List.mem_map.1 he
    exact LinearSystem.connected_map (hc e' he') Decimal.toRat
  obtain ⟨f, ha, -⟩ := assemble_of_read h
  have hl : LinearSystem.assemble c.elements c.nodes = .ok f := by
    have hv : c.valid = true := (valid_read o text).2 h
    rw [← ha, assemble, if_pos hv]
  obtain ⟨s, hs⟩ : ∃ s, LinearSystem.assemble c.exactElements c.nodes = .ok s := by
    obtain ⟨labels, stamps, -, -, -, -, hs⟩ := LinearSystem.assemble_eq_ok hce
    exact ⟨_, hs⟩
  obtain ⟨h1, h2, h3⟩ := LinearSystem.layout_of_assemble hc hl
  obtain ⟨h1', h2', h3'⟩ := LinearSystem.layout_of_assemble hce hs
  rw [exactElements, LinearSystem.unknownLabels_map, h1] at h1'
  rw [exactElements, LinearSystem.layoutOf_map, ← h2] at h2'
  rw [exactElements, LinearSystem.layoutOf_map, ← h3] at h3'
  refine ⟨f, s, ha, hs, (Except.ok.inj h1').symm, h2', h3',
    LinearSystem.represents_of_assemble hce hs, fun hx => ?_⟩
  have hm := LinearSystem.assemble_map Decimal.faithful_toRat hc hf hx hl
  exact Except.ok.inj (hm.symm.trans hs)

/-- The gains of two sources in parallel are added, here exactly, so that the system with doubles is
made of the equations. The terminals of the resistor coincide. -/
theorem read_represents_parallel :
    let text := "G1 a 0 a b 2\nG2 a 0 a b 0.5\nR1 b b 5k\n"
    let c := (read {} text).circuit
    (read {} text).error? = none ∧ (∀ e ∈ c.elements, e.value.All fun x => x.isFinite = true) ∧
      c.SumsExactly ∧ ∃ f, c.assemble = .ok f ∧
        (f.map Decimal.toRat).Represents c.exactElements c.nodes := by
  intro text c
  have h : (read {} text).error? = none := by decide +kernel
  have hf : ∀ e ∈ c.elements, e.value.All fun x => x.isFinite = true := by decide +kernel
  have hx : c.SumsExactly := by decide +kernel
  obtain ⟨f, s, ha, -, -, -, -, hs, hm⟩ := read_represents h hf
  exact ⟨h, hf, hx, f, ha, hm hx ▸ hs⟩

/-- A tenth and two tenths are not added exactly. -/
example : ¬(read {} "G1 a 0 a b 0.1\nG2 a 0 a b 0.2\n").circuit.SumsExactly := by
  decide +kernel

end Circuit

end Nodal
