import Nodal.Proofs.Circuit.Unknowns
import Nodal.Proofs.Element.Columns
/-!
# The currents of a circuit

The labels of auxiliary unknowns name currents: `.p` that of a branch, `.out` what an amplifier delivers,
and `.cp` beside `.p` the controlling current of a current-controlled source. In every stamp the column under
such a label is that of the current that it names, but for the current-controlled sources, whose two columns
stand under each other's labels (`Circuit.read_currents`, `Circuit.read_currents_exchanged`).
-/

namespace Nodal

namespace LinearSystem

variable {K : Type} {elements : List (Element K)} {nodes : NodeTable} {s : LinearSystem K} {i k j : Nat}
  {e : Element K}

/-- The labels of an element stand at its offset and behind it. -/
lemma label?_of_offset (hl : unknownLabels elements nodes = .ok s.labels)
    (ho : s.offsets = (layoutOf elements nodes).offsets) (he : elements[i]? = some e)
    (hoff : s.offsets[i]? = some (some k)) {suffix : String} (hs : e.kind.auxSuffixes[j]? = some suffix) :
    s.label? (k + j) = some (e.name ++ suffix) := by
  have hj : j < e.auxCount := by
    rw [Element.auxCount, ← Kind.length_auxSuffixes]
    exact (List.getElem?_eq_some_iff.1 hs).1
  obtain ⟨e', label, he', hlabel, h⟩ := label?_of_isAux hl ho ⟨e, k, he, hoff, hj, rfl⟩
  rw [he] at he'
  cases he'
  rw [Element.auxLabels, List.getElem?_map, hs] at hlabel
  cases hlabel
  exact h

/-- A connected element of a kind with auxiliary unknowns has an offset behind the nodes, and a stamp. -/
lemma exists_stamped_of_family? [One K] [Neg K] (hc : e.Connected nodes) (he : elements[i]? = some e)
    (ho : s.offsets = (layoutOf elements nodes).offsets) :
    ∃ offset es, s.offsets[i]? = some offset ∧ e.Stamped offset es ∧
      ∀ f, e.kind.family? = some f → ∃ k, offset = some k ∧ nodes.count < k := by
  have hk : (layoutOf elements nodes).kinds[i]? = some e.kind := by simp [layoutOf, he]
  have hoff := (layoutOf elements nodes).getElem?_offsets i
  rw [hk, Option.map_some] at hoff
  have hi : (elements.zip (layoutOf elements nodes).offsets)[i]? = some (e, _) :=
    List.getElem?_zip_eq_some.2 ⟨he, hoff⟩
  have hp := placed_of_mem (List.mem_of_getElem? hi)
  obtain ⟨es, hs⟩ := Element.exists_stamped hc.length_nodes hp.of_none
  refine ⟨_, es, ho ▸ hoff, hs, fun f hf => ?_⟩
  rw [hf] at hp ⊢
  exact ⟨_, rfl, (hp.of_some _ rfl).1⟩

end LinearSystem

namespace Circuit

/-- The label of an auxiliary unknown names the current that the stamp has in its column, but for the two
labels of a current-controlled voltage source, which are exchanged. -/
theorem read_currents {o : Options} {text : String} (h : (read o text).error? = none) :
    let c := (read o text).circuit
    ∃ s, c.assemble = .ok s ∧
      ∀ (i : Nat) e, c.elements[i]? = some e →
        ∃ offset stamp, s.offsets[i]? = some offset ∧ e.stamp offset = .ok stamp ∧
          (e.kind.isBranch = true → ∃ k n m rest, offset = some k ∧
            s.label? k = some (e.name ++ ".p") ∧ e.nodes = n :: m :: rest ∧
            FlowsThrough c.nodes.count stamp k n m) ∧
          (e.kind = .opamp → ∃ k n m out, offset = some k ∧
            s.label? k = some (e.name ++ ".out") ∧ e.nodes = [n, m, out] ∧
            nodeColumn c.nodes.count stamp k = [⟨out.index, k, .one⟩]) ∧
          (e.kind = .ccvs → ∃ k n m p q, offset = some k ∧
            s.label? k = some (e.name ++ ".p") ∧ s.label? (k + 1) = some (e.name ++ ".cp") ∧
            e.nodes = [n, m, p, q] ∧ FlowsThrough c.nodes.count stamp k p q ∧
            FlowsThrough c.nodes.count stamp (k + 1) n m ∧
            stamp.filter (·.row == k) =
              [⟨k, n.index, .one⟩, ⟨k, m.index, -.one⟩, ⟨k, k, -e.value⟩]) := by
  intro c
  have hc : ∀ e ∈ c.elements, e.Connected c.nodes := connected_of_read h
  obtain ⟨s, ha, -⟩ := assemble_of_read h
  obtain ⟨hl, ho, -⟩ := LinearSystem.layout_of_assemble hc ((assemble_eq_of_read h).symm.trans ha)
  refine ⟨s, ha, fun i e he => ?_⟩
  have hconn := hc e (List.mem_of_getElem? he)
  have hn := hconn.index_le_count
  obtain ⟨offset, stamp, hoff, hs, hfam⟩ := LinearSystem.exists_stamped_of_family? hconn he ho
  -- labels and stamp go by the same offset
  have hlabel : ∀ {k j suffix}, offset = some k → e.kind.auxSuffixes[j]? = some suffix →
      s.label? (k + j) = some (e.name ++ suffix) := fun hk hsuffix =>
    LinearSystem.label?_of_offset hl ho he (hk ▸ hoff) hsuffix
  refine ⟨offset, stamp, hoff, Element.stamp_eq_ok_iff.2 hs, fun hb => ?_, fun hkind => ?_, fun hkind => ?_⟩
  · obtain ⟨hsuffix, f, hf⟩ : e.kind.auxSuffixes[0]? = some ".p" ∧ ∃ f, e.kind.family? = some f := by
      cases hk : e.kind <;> simp [hk, Kind.isBranch] at hb <;> simp [Kind.auxSuffixes, Kind.family?]
    obtain ⟨k, rfl, hk⟩ := hfam f hf
    obtain ⟨n, m, rest, hnodes, hflow⟩ := hs.flowsThrough hn hk hb
    exact ⟨k, n, m, rest, rfl, hlabel rfl hsuffix, hnodes, hflow⟩
  · obtain ⟨k, rfl, hk⟩ := hfam .opamp (by rw [hkind]; rfl)
    obtain ⟨n, m, out, hnodes, hcol⟩ := hs.nodeColumn_opamp hn hk hkind
    exact ⟨k, n, m, out, rfl, hlabel (j := 0) rfl (by rw [hkind]; rfl), hnodes, hcol⟩
  · obtain ⟨k, rfl, hk⟩ := hfam .ccvs (by rw [hkind]; rfl)
    obtain ⟨n, m, p, q, hnodes, hcontrol, hout, hrow⟩ := hs.flowsThrough_ccvs hn hk hkind
    exact ⟨k, n, m, p, q, rfl, hlabel (j := 0) rfl (by rw [hkind]; rfl),
      hlabel (j := 1) rfl (by rw [hkind]; rfl), hnodes, hcontrol, hout, hrow⟩

/-- A resistor, an amplifier, and a source that the current through a short circuit controls. -/
theorem read_currents_three :
    let text := "R1 a b R\nO1 a 0 o A\nF1 o 0 b 0 r\n"
    let c := (read {} text).circuit
    let r : Element Float :=
      { kind := .resistor, name := "R1", nets := ["a", "b"], value := .sym "R", nodes := [⟨1⟩, ⟨2⟩] }
    let a : Element Float :=
      { kind := .opamp, name := "O1", nets := ["a", "0", "o"], value := .sym "A"
        nodes := [⟨1⟩, ⟨0⟩, ⟨3⟩] }
    let f : Element Float :=
      { kind := .ccvs, name := "F1", nets := ["o", "0", "b", "0"], value := .sym "r"
        nodes := [⟨3⟩, ⟨0⟩, ⟨2⟩, ⟨0⟩] }
    (read {} text).error? = none ∧ c.elements = [r, a, f] ∧
      ∃ s, c.assemble = .ok s ∧
        (∃ k stamp, s.label? k = some "R1.p" ∧ r.stamp (some k) = .ok stamp ∧
          FlowsThrough 3 stamp k ⟨1⟩ ⟨2⟩) ∧
        (∃ k stamp, s.label? k = some "O1.out" ∧ a.stamp (some k) = .ok stamp ∧
          nodeColumn 3 stamp k = [⟨3, k, .one⟩]) ∧
        ∃ k stamp, s.label? k = some "F1.p" ∧ s.label? (k + 1) = some "F1.cp" ∧
          f.stamp (some k) = .ok stamp ∧ FlowsThrough 3 stamp k ⟨2⟩ ⟨0⟩ ∧
          FlowsThrough 3 stamp (k + 1) ⟨3⟩ ⟨0⟩ := by
  intro text c r a f
  have h : (read {} text).error? = none := by decide +kernel
  have he : c.elements = [r, a, f] := by
    simp only [c, text]
    rfl
  have hcount : (read {} text).circuit.nodes.count = 3 := by decide +kernel
  obtain ⟨s, ha, hall⟩ := read_currents h
  change ∀ (i : Nat) e, c.elements[i]? = some e → _ at hall
  rw [he] at hall
  obtain ⟨_, _, -, hr, hbranch, -⟩ := hall 0 r rfl
  obtain ⟨_, _, -, hs, -, hopamp, -⟩ := hall 1 a rfl
  obtain ⟨_, _, -, hf, -, -, hccvs⟩ := hall 2 f rfl
  obtain ⟨k, n, m, rest, rfl, hlabel, hnodes, hflow⟩ := hbranch rfl
  obtain ⟨k', n', m', out, rfl, hlabel', hnodes', hcol⟩ := hopamp rfl
  obtain ⟨k₂, n₂, m₂, p, q, rfl, hp, hcp, hnodes₂, hcontrol, hout, -⟩ := hccvs rfl
  cases hnodes
  cases hnodes'
  cases hnodes₂
  rw [hcount] at hflow hcol hcontrol hout
  exact ⟨h, he, s, ha, ⟨k, _, hlabel, hr, hflow⟩, ⟨k', _, hlabel', hs, hcol⟩,
    k₂, _, hp, hcp, hf, hcontrol, hout⟩

/-- The column under the label of the output current has nothing in the rows of the output, and the one under
that of the controlling current nothing in those of the controlling pair. -/
theorem read_currents_exchanged :
    let text := "F1 a b c d r\n"
    let c := (read {} text).circuit
    (read {} text).error? = none ∧
      ∃ e s stamp, c.elements = [e] ∧ e.kind = .ccvs ∧ e.nodes = [⟨1⟩, ⟨2⟩, ⟨3⟩, ⟨4⟩] ∧
        c.assemble = .ok s ∧ s.offsets = [some 5] ∧ e.stamp (some 5) = .ok stamp ∧
        s.label? 5 = some (e.name ++ ".p") ∧ (∀ x ∈ stamp, x.col = 5 → x.row ≠ 1 ∧ x.row ≠ 2) ∧
        s.label? 6 = some (e.name ++ ".cp") ∧ ∀ x ∈ stamp, x.col = 6 → x.row ≠ 3 ∧ x.row ≠ 4 := by
  intro text c
  have h : (read {} text).error? = none := by decide +kernel
  let e : Element Float :=
    { kind := .ccvs, name := "F1", nets := ["a", "b", "c", "d"], value := .sym "r"
      nodes := [⟨1⟩, ⟨2⟩, ⟨3⟩, ⟨4⟩] }
  have he : c.elements = [e] := by
    simp only [c, text]
    rfl
  have hcount : c.nodes.count = 4 := by decide +kernel
  obtain ⟨s, ha, -⟩ := assemble_of_read h
  obtain ⟨hl, ho, -⟩ :=
    LinearSystem.layout_of_assemble (connected_of_read h) ((assemble_eq_of_read h).symm.trans ha)
  change LinearSystem.unknownLabels c.elements c.nodes = _ at hl
  change s.offsets = (LinearSystem.layoutOf c.elements c.nodes).offsets at ho
  have hoffsets : s.offsets = [some 5] := by
    rw [ho, LinearSystem.layoutOf, he, hcount]
    rfl
  have h0 : c.elements[0]? = some e := by rw [he]; rfl
  have hoff : s.offsets[0]? = some (some 5) := by rw [hoffsets]; rfl
  refine ⟨h, e, s, Stamp.ccvs 1 2 3 4 (.sym "r") 5, he, rfl, rfl, ha, hoffsets, rfl, ?_, ?_, ?_, ?_⟩
  · exact LinearSystem.label?_of_offset (j := 0) hl ho h0 hoff rfl
  · simp [Stamp.ccvs]
  · exact LinearSystem.label?_of_offset (j := 1) hl ho h0 hoff rfl
  · simp [Stamp.ccvs]

end Circuit

end Nodal
