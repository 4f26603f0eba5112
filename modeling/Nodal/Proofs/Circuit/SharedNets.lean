import Nodal.Proofs.Circuit.Copies
/-!
# Nets that copies share

In the body of a subcircuit, ground and the nets that hold the mark `!` are the same net in every copy,
apart from one exception: a port may have such a name as well, and then the net that the call puts in
place of the port counts. `Circuit.read_shared` says which node such a net has in the circuit.
-/

namespace Nodal

/-- What is true of a marked net or of ground is true of the net that it becomes, if and only if it is
true of the net that stands in its place when it is a port. -/
lemma renameNet_iff_of_shared {s : Subcircuit} {c : Call} {net : String}
    (hs : '!' ∈ net.toList ∨ net ∈ groundNames) {P : String → Prop} (hp : P net) :
    P (renameNet s c net) ↔ ∀ actual ∈ actualNet? s.ports c.nets net, P actual := by
  unfold renameNet
  cases actualNet? s.ports c.nets net with
  | some actual =>
    constructor
    · intro h actual' ha
      cases ha
      exact h
    · intro h
      exact h actual rfl
  | none =>
    have hb : (isGlobalNet net || isGroundName net) = true := by
      simpa [isGlobalNet, isGroundName] using hs
    rw [if_pos hb]
    refine iff_of_true hp fun actual ha => ?_
    cases ha

namespace Circuit

variable {o : Options} {text : String} {n : Netlist} {c : Call} {s : Subcircuit}

/-- Ground and marked nets in a called body are those of the circuit under the same name, unless a port has
this name and the call puts another net in its place. -/
theorem read_shared (h : (read o text).error? = none) (hn : Netlist.read o.dialect text = .ok n)
    (hc : n.Calls c s) {l : ElementLine} (hl : l ∈ s.elementLines) (hk : l.known = true)
    {net : String} (hnet : net ∈ l.nets) :
    (∃ name node, (read o text).circuit.Connects c s net name node) ∧
      ∀ name node, (read o text).circuit.Connects c s net name node →
        (read o text).circuit.nodes.find? name = some node ∧
        (net ∈ groundNames →
          (node = .ground ↔ ∀ actual ∈ actualNet? s.ports c.nets net, actual ∈ groundNames)) ∧
        ('!' ∈ net.toList →
          (name = net ↔ ∀ actual ∈ actualNet? s.ports c.nets net, actual = net)) := by
  refine ⟨exists_connects h hn hc hl hk hnet, fun name node hx => ?_⟩
  obtain ⟨rfl, hf⟩ := hx.spec h hn hc
  refine ⟨hf, fun hg => ?_, fun hm => ?_⟩
  · have hground : node = .ground ↔ renameNet s c net ∈ groundNames := by
      rw [← NodeTable.find?_eq_ground_iff (t := (read o text).circuit.nodes), hf, Option.some_inj]
    exact hground.trans (renameNet_iff_of_shared (.inr hg) hg)
  · exact renameNet_iff_of_shared (P := (· = net)) (.inl hm) rfl

/-- A body that uses ground and a marked net, neither of them a port. -/
theorem read_shared_mark :
    let text := ".subckt S p\nR1 vdd! gnd R\n.ends\nX1 n S\n"
    let l : ElementLine :=
      { letter := 'R', name := "R1", nets := ["vdd!", "gnd"], value := "R", line := 2 }
    let s : Subcircuit :=
      { name := "S", ports := ["p"], body := [.element l], line := 1, lastLine := 3 }
    let c : Call := { label := "X1", nets := ["n"], subcircuit := "S", line := 4 }
    let n : Netlist := { records := [.subcircuit s, .call c], dialect := .spice }
    (read {} text).error? = none ∧ Netlist.read .spice text = .ok n ∧ n.Calls c s ∧
      l ∈ s.elementLines ∧ l.known = true ∧ "vdd!" ∈ l.nets ∧
      ((∃ name node, (read {} text).circuit.Connects c s "vdd!" name node) ∧
        ∀ name node, (read {} text).circuit.Connects c s "vdd!" name node →
          (read {} text).circuit.nodes.find? name = some node ∧
          ("vdd!" ∈ groundNames →
            (node = .ground ↔ ∀ actual ∈ actualNet? s.ports c.nets "vdd!", actual ∈ groundNames)) ∧
          ('!' ∈ "vdd!".toList →
            (name = "vdd!" ↔ ∀ actual ∈ actualNet? s.ports c.nets "vdd!", actual = "vdd!"))) := by
  intro text l s c n
  have h : (read {} text).error? = none := by decide +kernel
  have hn : Netlist.read .spice text = .ok n := by
    simp only [text]
    rfl
  have hc : n.Calls c s := ⟨[.subcircuit s], [], rfl, [], [], rfl, rfl, nofun⟩
  have hl : l ∈ s.elementLines := List.mem_singleton.2 rfl
  have hk : l.known = true := by decide
  have hnet : "vdd!" ∈ l.nets := by decide
  exact ⟨h, hn, hc, hl, hk, hnet, read_shared h hn hc hl hk hnet⟩

/-- Where a port is called `gnd`, the ground of the body is the net that the call puts in its place. -/
theorem read_ground_port :
    let text := ".subckt S gnd\nR1 gnd 0 R\n.ends\nX1 n S\n"
    let l : ElementLine := { letter := 'R', name := "R1", nets := ["gnd", "0"], value := "R", line := 2 }
    let s : Subcircuit :=
      { name := "S", ports := ["gnd"], body := [.element l], line := 1, lastLine := 3 }
    let c : Call := { label := "X1", nets := ["n"], subcircuit := "S", line := 4 }
    let n : Netlist := { records := [.subcircuit s, .call c], dialect := .spice }
    (read {} text).error? = none ∧ Netlist.read .spice text = .ok n ∧ n.Calls c s ∧
      l ∈ s.elementLines ∧ "gnd" ∈ l.nets ∧ "gnd" ∈ groundNames ∧
      (read {} text).circuit.elements.map Element.nets = [["n", "0"]] ∧
      (read {} text).circuit.elements.map Element.nodes = [[⟨1⟩, .ground]] := by
  intro text l s c n
  have h : (read {} text).error? = none := by decide +kernel
  have hn : Netlist.read .spice text = .ok n := by
    simp only [text]
    rfl
  have hc : n.Calls c s := ⟨[.subcircuit s], [], rfl, [], [], rfl, rfl, nofun⟩
  exact ⟨h, hn, hc, List.mem_singleton.2 rfl, by decide, by decide, by decide +kernel,
    by decide +kernel⟩

end Circuit

end Nodal
