import Nodal.Proofs.Circuit.Copies
import Nodal.Proofs.Node.Discovery
/-!
# The nodes of a circuit

Nets are numbered while elements are taken in, and nothing else is ever numbered. So the table of a circuit
that was read is known from its elements: it lists their nets in the order of discovery, and a net that is
connected to no element is not found (`Circuit.read_discovers`).
-/

namespace Nodal

namespace NodeTable

variable {t : NodeTable}

/-- A net that is not listed is not found, unless it is ground. -/
lemma find_eq_error_iff {name : String} :
    t.find name = .error (.nodeNotFound name) ↔ name ∉ groundNames ∧ name ∉ t.names := by
  cases hf : t.find? name with
  | some n =>
    refine iff_of_false (by simp [find, hf]) fun ⟨hg, hm⟩ => ?_
    exact hm (mem_names_of_find? hf (by simpa [isGroundName] using hg))
  | none =>
    have hg := isGroundName_of_find?_eq_none hf
    refine iff_of_true (by simp [find, hf]) ⟨?_, not_mem_of_find?_eq_none hf⟩
    simpa [isGroundName] using hg

/-- Where every net is found in a table, looking the nets up succeeds. -/
lemma map_find_of_map_find? {nets : List String} {nodes : List Node}
    (h : nets.map t.find? = nodes.map some) : nets.map t.find = nodes.map .ok := by
  induction nets generalizing nodes with
  | nil =>
    cases nodes with
    | nil => rfl
    | cons n nodes => cases h
  | cons net nets ih =>
    cases nodes with
    | nil => cases h
    | cons n nodes =>
      obtain ⟨hn, hs⟩ := List.cons.inj h
      rw [List.map_cons, List.map_cons, find_eq_ok_iff_find?.2 hn, ih hs]

end NodeTable

namespace Circuit

variable {o : Options} {text : String}

/-- The table of a circuit that was read lists the nets of its elements. -/
lemma names_of_read (h : (read o text).error? = none) :
    (read o text).circuit.nodes.names =
      NodeTable.discovered ((read o text).circuit.elements.flatMap Element.nets) := by
  obtain ⟨-, x, -, -, he, ht, -⟩ := read_eq_ok h
  -- numbering leaves the nets of the elements as they were
  have hu := congrArg (List.flatMap Element.nets) (NodeTable.map_unresolved_resolveAll .empty x.elements)
  simp only [List.flatMap_map] at hu
  have hnets : (NodeTable.empty.resolveAll x.elements).1.flatMap Element.nets =
      x.elements.flatMap Element.nets := hu
  rw [he, ht, hnets, NodeTable.names_resolveAll_empty]

/-- The nodes of a circuit that was read are the nets of its elements other than ground, numbered from one on
in the order in which they are first named. -/
theorem read_discovers (h : (read o text).error? = none) :
    let c := (read o text).circuit
    let nets := NodeTable.discovered (c.elements.flatMap Element.nets)
    c.nodes.names = nets ∧ nets.Nodup ∧
      (∀ (i : Nat) net, nets[i]? = some net → c.findNode net = .ok ⟨i + 1⟩) ∧
      (∀ e ∈ c.elements, e.nets.map c.findNode = e.nodes.map .ok) ∧
      ∀ net, c.findNode net = .error (.nodeNotFound net) ↔
        net ∉ groundNames ∧ ∀ e ∈ c.elements, net ∉ e.nets := by
  intro c nets
  have hnames : c.nodes.names = nets := names_of_read h
  refine ⟨hnames, hnames ▸ c.nodes.nodup, fun i net hi => ?_, fun e he => ?_, fun net => ?_⟩
  · rw [← hnames] at hi
    exact NodeTable.find_eq_ok_iff_find?.2 (NodeTable.find?_of_name? hi)
  · exact NodeTable.map_find_of_map_find? (numbered_of_read h e he)
  · rw [findNode, NodeTable.find_eq_error_iff, hnames, NodeTable.mem_discovered]
    refine and_congr_right fun hg => ?_
    simp [hg]

/-- A port that the body does not use, a net on a line of an unknown kind and the nets of a subcircuit that is
never called are no nets of the circuit. -/
theorem read_discovers_used :
    let text := ".subckt S p unused\nR1 p m R\nQ1 m lost x\n.ends\n.subckt T t\nR1 t never 1\n.ends\n" ++
      "Q2 gone 0 x\nX1 a b S\nR2 0 a 1\n"
    let c := (read {} text).circuit
    (read {} text).error? = none ∧ c.nodes.names = ["a", "X1:m"] ∧ c.findNode "X1:m" = .ok ⟨2⟩ ∧
      (∀ e ∈ c.elements, e.nets.map c.findNode = e.nodes.map .ok) ∧
      ∀ net ∈ ["b", "unused", "m", "lost", "t", "never", "gone"],
        c.findNode net = .error (.nodeNotFound net) := by
  intro text c
  have h : (read {} text).error? = none := by decide +kernel
  have hnets : NodeTable.discovered (c.elements.flatMap Element.nets) = ["a", "X1:m"] := by
    decide +kernel
  obtain ⟨hnames, -, hfind, hnodes, hnone⟩ := read_discovers h
  rw [hnets] at hnames hfind
  refine ⟨h, hnames, hfind 1 _ rfl, hnodes, fun net hnet => (hnone net).2 ?_⟩
  have hall : ∀ net ∈ ["b", "unused", "m", "lost", "t", "never", "gone"],
      net ∉ groundNames ∧ ∀ e ∈ c.elements, net ∉ e.nets := by decide +kernel
  exact hall net hnet

end Circuit

end Nodal
