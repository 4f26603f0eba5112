import Nodal.Proofs.Circuit.Flattening
/-!
# The copies in a circuit

A netlist `Calls` a subcircuit where a call has it as the last definition of its name. The circuit that
was read holds a copy of each element line of that subcircuit (`Circuit.exists_copies`), so each net of
the body is connected somewhere (`Circuit.exists_connects`), and where it is connected, the net of the
circuit is the one that renaming gives and the node is the one that the table has for it
(`Circuit.Connects.spec`).
-/

namespace Nodal

namespace Call

variable {c : Call} {s : Subcircuit} {net name name' : String}

/-- A net of a subcircuit becomes one net of the circuit. -/
lemma Wires.unique (h : c.Wires s net name) (h' : c.Wires s net name') : name = name' := by
  cases h with
  | @port i _ hp hlast ha =>
    cases h' with
    | @port j _ hp' hlast' ha' =>
      -- both places are the last one
      have hij : i = j := by
        rcases Nat.lt_trichotomy i j with hlt | heq | hgt
        · exact absurd hp' (hlast j hlt)
        · exact heq
        · exact absurd hp (hlast' i hgt)
      subst hij
      rw [ha] at ha'
      exact Option.some.inj ha'
    | shared hn => exact absurd (List.mem_of_getElem? hp) hn
    | own hn => exact absurd (List.mem_of_getElem? hp) hn
  | shared hn hs =>
    cases h' with
    | port hp => exact absurd (List.mem_of_getElem? hp) hn
    | shared => rfl
    | own _ hm hg => exact absurd hs (by simp [hm, hg])
  | own hn hm hg =>
    cases h' with
    | port hp => exact absurd (List.mem_of_getElem? hp) hn
    | shared _ hs => exact absurd hs (by simp [hm, hg])
    | own => rfl

end Call

namespace Record

/-- Records have one last definition of a name. -/
lemma Latest.unique {rs : List Record} {name : String} {s s' : Subcircuit}
    (h : Latest rs name s) (h' : Latest rs name s') : s = s' := by
  obtain ⟨front, back, hrs, hs, hb⟩ := h
  obtain ⟨front', back', hrs', hs', hb'⟩ := h'
  rw [hrs] at hrs'
  rcases List.append_eq_append_iff.1 hrs' with ⟨between, -, he⟩ | ⟨between, -, he⟩
  · cases between with
    | nil =>
      cases he
      rfl
    | cons r between =>
      cases he
      exact absurd hs' (hb s' (List.mem_append_right _ List.mem_cons_self))
  · cases between with
    | nil =>
      cases he
      rfl
    | cons r between =>
      cases he
      exact absurd hs (hb' s (List.mem_append_right _ List.mem_cons_self))

end Record

namespace Netlist

/-- Whether a netlist calls `s` by `c`: of the subcircuits that are defined under the name before the
call, `s` is the last. -/
def Calls (n : Netlist) (c : Call) (s : Subcircuit) : Prop :=
  ∃ front back, n.records = front ++ .call c :: back ∧ Record.Latest front c.subcircuit s

end Netlist

namespace Library

/-- Among the elements that records contribute are the copies that each call makes. -/
lemma exists_copies_of_flatten {rs : List Record} {x : Expansion}
    (hx : Library.flatten {} rs = .ok x) {front back : List Record} {c : Call} {s : Subcircuit}
    (hrs : rs = front ++ .call c :: back) (hs : Record.Latest front c.subcircuit s) :
    s.ports.length = c.nets.length ∧
      ∃ es, es <:+: x.elements ∧
        List.Forall₂ (c.Copies s) (s.elementLines.filter (·.known)) es := by
  obtain ⟨parts, hparts, -, hes, -⟩ := exists_parts_of_flatten hx
  obtain ⟨p, hm, hy⟩ := hparts front _ back hrs
  cases hy with
  | call hs' hports hc _ =>
    rw [hs'.unique hs] at hports hc
    refine ⟨hports, p.elements, ?_, hc⟩
    obtain ⟨parts₁, parts₂, hsplit⟩ := List.append_of_mem hm
    rw [hes, hsplit, List.flatMap_append, List.flatMap_cons]
    exact ⟨_, _, List.append_assoc _ _ _⟩

end Library

namespace Circuit

variable {o : Options} {text : String} {n : Netlist} {c : Call} {s : Subcircuit}

/-- A circuit that was read holds a copy of each element line that a call refers to, and the nets of
all its elements are numbered. -/
lemma exists_copies (h : (read o text).error? = none) (hn : Netlist.read o.dialect text = .ok n)
    (hc : n.Calls c s) :
    s.ports.length = c.nets.length ∧
      ∃ es, es <:+: (read o text).circuit.elements ∧
        List.Forall₂ (fun l e => c.Copies s l e.unresolved)
          (s.elementLines.filter (·.known)) es := by
  obtain ⟨n', x, hn', hx, he, -, -⟩ := read_eq_ok h
  rw [hn] at hn'
  cases hn'
  obtain ⟨front, back, hrs, hs⟩ := hc
  obtain ⟨hports, es, ⟨es₁, es₂, hes⟩, hcopies⟩ := Library.exists_copies_of_flatten hx hrs hs
  refine ⟨hports, ?_⟩
  -- numbering the nets leaves all else of the contributed elements as it was
  have hu : es₁.map Element.unresolved ++ es.map Element.unresolved ++ es₂.map Element.unresolved =
      (read o text).circuit.elements.map Element.unresolved := by
    rw [he, NodeTable.map_unresolved_resolveAll, ← hes, List.map_append, List.map_append]
  obtain ⟨fs₁₂, fs₂, hfs, hfs₁₂, -⟩ := List.map_eq_append_iff.1 hu.symm
  obtain ⟨fs₁, fs, rfl, -, hfs'⟩ := List.map_eq_append_iff.1 hfs₁₂
  refine ⟨fs, ⟨fs₁, fs₂, hfs.symm⟩, ?_⟩
  have hes' : es.map Element.unresolved = es := by
    refine (List.map_congr_left fun e hm => ?_).trans (List.map_id es)
    rw [Element.unresolved, Element.setNets, ← Call.nodes_of_copies hcopies e hm]
    rfl
  rw [hes'] at hfs'
  rw [← hfs'] at hcopies
  exact List.forall₂_map_right_iff.1 hcopies

/-- The elements of a circuit that was read have the nodes that its table has for their nets. -/
lemma numbered_of_read (h : (read o text).error? = none) :
    ∀ e ∈ (read o text).circuit.elements, e.Numbered (read o text).circuit.nodes := by
  obtain ⟨-, x, -, -, he, hnodes, -⟩ := read_eq_ok h
  rw [he, hnodes]
  exact NodeTable.numbered_resolveAll _ x.elements

/-- A terminal of a copy that `c` makes of `s`: where the body names `net`, the circuit has the net
`name`, which is numbered `node`. -/
inductive Connects (x : Circuit) (c : Call) (s : Subcircuit) (net name : String) (node : Node) :
    Prop where
  | terminal {l e} {t : Nat} :
    l ∈ s.elementLines →
    l.known = true →
    e ∈ x.elements →
    c.Copies s l e.unresolved →
    l.nets[t]? = some net →
    e.nets[t]? = some name →
    e.nodes[t]? = some node →
    Connects x c s net name node

/-- Each net in a line of a known kind is connected by each call. -/
lemma exists_connects (h : (read o text).error? = none) (hn : Netlist.read o.dialect text = .ok n)
    (hc : n.Calls c s) {l : ElementLine} (hl : l ∈ s.elementLines) (hk : l.known = true)
    {net : String} (hnet : net ∈ l.nets) :
    ∃ name node, (read o text).circuit.Connects c s net name node := by
  obtain ⟨-, es, hes, hcopies⟩ := exists_copies h hn hc
  obtain ⟨i, hi⟩ := List.mem_iff_getElem?.1 (List.mem_filter.2 ⟨hl, hk⟩)
  obtain ⟨hil, hget⟩ := List.getElem?_eq_some_iff.1 hi
  have hie : i < es.length := hcopies.length_eq ▸ hil
  have hcopy : c.Copies s l es[i].unresolved := by
    have hc' := List.Forall₂.get hcopies hil hie
    simpa only [List.get_eq_getElem, hget] using hc'
  have he : es[i] ∈ (read o text).circuit.elements := hes.subset (List.getElem_mem hie)
  obtain ⟨t, ht⟩ := List.mem_iff_getElem?.1 hnet
  have htl := (List.getElem?_eq_some_iff.1 ht).1
  have hte : t < es[i].nets.length := hcopy.nets.length_eq ▸ htl
  have htn : t < es[i].nodes.length := by
    rw [(numbered_of_read h _ he).length_nodes]
    exact hte
  exact ⟨_, _, .terminal hl hk he hcopy ht (List.getElem?_eq_getElem hte)
    (List.getElem?_eq_getElem htn)⟩

/-- Where a net is connected, it has become the net that renaming gives, under the number that the
table has for that one. -/
lemma Connects.spec (h : (read o text).error? = none) (hn : Netlist.read o.dialect text = .ok n)
    (hc : n.Calls c s) {net name : String} {node : Node}
    (hx : (read o text).circuit.Connects c s net name node) :
    name = renameNet s c net ∧ (read o text).circuit.nodes.find? name = some node := by
  obtain ⟨hports, -⟩ := exists_copies h hn hc
  cases hx with
  | @terminal l e t _ _ he hcopy ht htn htd =>
    constructor
    · have hw : c.Wires s net name := by
        obtain ⟨htl, hget⟩ := List.getElem?_eq_some_iff.1 ht
        obtain ⟨hte, hget'⟩ := List.getElem?_eq_some_iff.1 htn
        have hw := List.Forall₂.get hcopy.nets htl hte
        simp only [List.get_eq_getElem, hget] at hw
        rw [← hget']
        exact hw
      exact hw.unique (wires_renameNet hports net)
    · have hm := congrArg (·[t]?) (numbered_of_read h e he)
      simpa [htn, htd] using hm

end Circuit

end Nodal
