import Mathlib.Data.List.Nodup
import Nodal.Proofs.Circuit.Flattening
import Nodal.Proofs.LinearSystem.Labels
import Nodal.Proofs.Netlist.Names
import Nodal.Proofs.Node.Discovery
/-!
# Names in a circuit

In a circuit that was read, the names of elements hold no dot and the nets consist of net characters
(`Circuit.dot_notMem_name`, `Circuit.isNetName_of_mem_names`). If the netlist has distinct names, so has
the circuit: each element is found under its own name, and no label stands for two unknowns
(`Circuit.distinct_names`).
-/

namespace Nodal

namespace Call

variable {c : Call} {s : Subcircuit}

/-- A net of a copy has a name of net characters. -/
lemma isNetName_localNet (hc : c.Named) {net : String} (h : isNetName net = true) :
    isNetName (c.label ++ ":" ++ net) = true := by
  have hcolon : isNetName (c.label ++ ":") = true :=
    isNetName_append hc.isName fun ch hm => by
      rw [List.mem_singleton.1 hm]
      decide
  exact isNetName_append hcolon (isNetName_iff.1 h).2

/-- What the terminals of a copy are connected to has a name of net characters. -/
lemma Wires.isNetName (hc : c.Named) {net name : String} (h : c.Wires s net name)
    (hn : isNetName net = true) : isNetName name = true := by
  cases h with
  | port _ _ ha => exact hc.areNets _ (List.mem_of_getElem? ha)
  | shared => exact hn
  | own => exact isNetName_localNet hc hn

/-- A copy of a line is named after the line, and its nets consist of net characters. -/
lemma Copies.areNets (hc : c.Named) {l : ElementLine} {e : Element Float} (h : c.Copies s l e)
    (hl : l.Named) : ∀ net ∈ e.nets, isNetName net = true := by
  intro net hm
  obtain ⟨i, hi, rfl⟩ := List.mem_iff_getElem.1 hm
  have hil : i < l.nets.length := h.nets.length_eq ▸ hi
  exact (h.nets.get hil hi).isNetName hc (hl.areNets _ (List.getElem_mem hil))

/-- Copies of lines are named like these, behind the label of the call. -/
lemma map_name_of_copies {ls : List ElementLine} {es : List (Element Float)}
    (h : List.Forall₂ (c.Copies s) ls es) :
    es.map Element.name = (ls.map ElementLine.name).map (c.label ++ "/" ++ ·) := by
  induction h with
  | nil => rfl
  | cons hc _ ih => rw [List.map_cons, List.map_cons, List.map_cons, ih, hc.name]

end Call

namespace Record

variable {rs : List Record} {r : Record} {x : Expansion}

/-- A definition that is the latest is among the records. -/
lemma Latest.mem {name : String} {s : Subcircuit} (h : Latest rs name s) : .subcircuit s ∈ rs := by
  obtain ⟨front, back, rfl, -, -⟩ := h
  exact List.mem_append_right _ List.mem_cons_self

/-- The lines of a latest definition have names if those of all records do. -/
lemma Latest.named {name : String} {s : Subcircuit} (h : Latest rs name s)
    (hrs : ∀ r ∈ rs, r.Named) : ∀ l ∈ s.elementLines, l.Named := by
  obtain _ | hbody := hrs _ h.mem
  exact Subcircuit.forall_elementLines hbody

/-- A record comes to elements of the names that it gives, connected to nets of net characters. -/
lemma Yields.gives (h : r.Yields rs x) (hr : r.Named) (hrs : ∀ r ∈ rs, r.Named) :
    ∀ e ∈ x.elements, r.Gives e.name ∧ ∀ net ∈ e.nets, isNetName net = true := by
  cases h with
  | @element l k hk =>
    obtain ⟨hi⟩ := hr
    intro e he
    rw [List.mem_singleton.1 he]
    exact ⟨.element (Option.isSome_iff_exists.2 ⟨k, hk⟩), (hi l rfl).areNets⟩
  | unknownKind _ => nofun
  | directive => nofun
  | comment => nofun
  | definition _ => nofun
  | redefinition _ => nofun
  | call hs _ hcopies _ =>
    obtain _ | _ | hc := hr
    intro e he
    obtain ⟨l, hl, hcopy⟩ := Call.exists_copied hcopies e he
    have hnamed := hs.named hrs l (List.mem_filter.1 hl).1
    rw [hcopy.name]
    exact ⟨.copy hnamed.isName, hcopy.areNets hc hnamed⟩

/-- The elements that a record comes to have distinct names. -/
lemma Yields.nodup_names (h : r.Yields rs x)
    (hrs : ∀ s, .subcircuit s ∈ rs → ((s.elementLines.filter (·.known)).map ElementLine.name).Nodup) :
    (x.elements.map Element.name).Nodup := by
  cases h with
  | element _ => exact List.nodup_singleton _
  | unknownKind _ => exact List.nodup_nil
  | directive => exact List.nodup_nil
  | comment => exact List.nodup_nil
  | definition _ => exact List.nodup_nil
  | redefinition _ => exact List.nodup_nil
  | call hs _ hcopies _ =>
    rw [Call.map_name_of_copies hcopies]
    exact (hrs _ hs.mem).map fun _ _ he => (String.append_right_inj _).1 he

end Record

/-- Records contribute, one after another, what each of them yields behind those before it. -/
lemma Library.exists_yields {rs : List Record} {x : Expansion} (hx : Library.flatten {} rs = .ok x) :
    ∃ parts : List Expansion, parts.length = rs.length ∧
      (∀ (i : Nat) (hi : i < parts.length) (hi' : i < rs.length),
        rs[i].Yields (rs.take i) parts[i]) ∧
      x.elements = parts.flatMap Expansion.elements := by
  obtain ⟨parts, hl, hp, hes, -⟩ := tracks_nil.flatten hx
  exact ⟨parts, hl, fun i hi hi' =>
    hp i _ _ (List.getElem?_eq_getElem hi') (List.getElem?_eq_getElem hi), hes⟩

namespace Netlist

variable {n : Netlist} {x : Expansion}

/-- The elements that named records come to have names without a dot, and nets of net characters. -/
lemma names_of_flatten (hn : ∀ r ∈ n.records, r.Named) (hx : Library.flatten {} n.records = .ok x) :
    ∀ e ∈ x.elements, '.' ∉ e.name.toList ∧ ∀ net ∈ e.nets, isNetName net = true := by
  obtain ⟨parts, -, hp, hes, -⟩ := Library.exists_parts_of_flatten hx
  intro e he
  rw [hes] at he
  obtain ⟨p, hpm, hep⟩ := List.mem_flatMap.1 he
  obtain ⟨front, r, back, hrs, hy⟩ := hp p hpm
  rw [hrs] at hn
  have hr := hn r (List.mem_append_right _ List.mem_cons_self)
  obtain ⟨hg, hnets⟩ := hy.gives hr (fun r' hm => hn r' (List.mem_append_left _ hm)) e hep
  exact ⟨hg.dot_notMem hr, hnets⟩

/-- The elements that records of distinct names come to have distinct names. -/
lemma DistinctNames.nodup_of_flatten (h : n.DistinctNames) (hn : ∀ r ∈ n.records, r.Named)
    (hx : Library.flatten {} n.records = .ok x) : (x.elements.map Element.name).Nodup := by
  obtain ⟨parts, hl, hy, hes⟩ := Library.exists_yields hx
  have hgives : ∀ (i : Nat) (hi : i < parts.length) (hi' : i < n.records.length),
      ∀ e ∈ parts[i].elements, n.records[i].Gives e.name := fun i hi hi' e he =>
    ((hy i hi hi').gives (hn _ (List.getElem_mem hi'))
      (fun r hm => hn r (List.mem_of_mem_take hm)) e he).1
  rw [hes, List.map_flatMap, List.nodup_iff_pairwise_ne, List.pairwise_flatMap]
  constructor
  · intro p hm
    obtain ⟨i, hi, rfl⟩ := List.mem_iff_getElem.1 hm
    exact (hy i hi (hl ▸ hi)).nodup_names fun s hs => h.bodies s (List.mem_of_mem_take hs)
  · rw [List.pairwise_iff_getElem]
    intro i j hi hj hij name hm name' hm' he
    subst he
    obtain ⟨e, hme, rfl⟩ := List.mem_map.1 hm
    obtain ⟨e', hme', hname⟩ := List.mem_map.1 hm'
    have hi' : i < n.records.length := hl ▸ hi
    have hj' : j < n.records.length := hl ▸ hj
    have hapart := List.pairwise_iff_getElem.1 (h.pairwise_gives hn) i j hi' hj' hij
    exact hapart _ (hgives i hi hi' e hme) (hname ▸ hgives j hj hj' e' hme')

end Netlist

namespace Circuit

variable {o : Options} {text : String}

/-- To resolve elements leaves their names as they are. -/
lemma map_name_resolveAll (t : NodeTable) (es : List (Element Float)) :
    (t.resolveAll es).1.map Element.name = es.map Element.name := by
  have h := congrArg (List.map Element.name) (NodeTable.map_unresolved_resolveAll t es)
  rwa [List.map_map, List.map_map] at h

/-- There is no dot in the name of an element. -/
lemma dot_notMem_name (h : (read o text).error? = none) :
    ∀ e ∈ (read o text).circuit.elements, '.' ∉ e.name.toList := by
  obtain ⟨n, x, hn, hx, he, -, -⟩ := read_eq_ok h
  intro e hm
  have hname : e.name ∈ x.elements.map Element.name := by
    rw [← map_name_resolveAll .empty, ← he]
    exact List.mem_map_of_mem hm
  obtain ⟨e', hm', hname⟩ := List.mem_map.1 hname
  rw [← hname]
  exact (Netlist.names_of_flatten (Netlist.named_of_read hn) hx e' hm').1

/-- The nets of a circuit consist of net characters. -/
lemma isNetName_of_mem_names (h : (read o text).error? = none) :
    ∀ name ∈ (read o text).circuit.nodes.names, isNetName name = true := by
  obtain ⟨n, x, hn, hx, -, hnodes, -⟩ := read_eq_ok h
  intro name hm
  rw [hnodes, NodeTable.names_resolveAll_empty, NodeTable.mem_discovered, List.mem_flatMap] at hm
  obtain ⟨⟨e, he, hm⟩, -⟩ := hm
  exact (Netlist.names_of_flatten (Netlist.named_of_read hn) hx e he).2 name hm

/-- A circuit from a netlist of distinct names has elements of distinct names, each found under its own, and
unknowns of distinct labels. -/
theorem distinct_names {n : Netlist} (h : (read o text).error? = none)
    (hn : Netlist.read o.dialect text = .ok n) (hd : n.DistinctNames) :
    ((read o text).circuit.elements.map Element.name).Nodup ∧
      (∀ (i : Nat) e, (read o text).circuit.elements[i]? = some e →
        (read o text).circuit.findElement? e.name = some i) ∧
      ∃ labels, (read o text).circuit.unknownLabels = .ok labels ∧
        labels.length = (read o text).circuit.size ∧ labels.Nodup := by
  have hnames : ((read o text).circuit.elements.map Element.name).Nodup := by
    obtain ⟨n', x, hn', hx, he, -, -⟩ := read_eq_ok h
    rw [hn] at hn'
    cases hn'
    rw [he, map_name_resolveAll]
    exact hd.nodup_of_flatten (Netlist.named_of_read hn) hx
  refine ⟨hnames, fun i e he => ?_, ?_⟩
  · obtain ⟨hi, rfl⟩ := List.getElem?_eq_some_iff.1 he
    rw [findElement?, List.findIdx?_eq_some_iff_getElem]
    refine ⟨hi, beq_self_eq_true _, fun j hj hname => ?_⟩
    -- an earlier element has another name
    have hpair := List.pairwise_iff_getElem.1 (List.pairwise_map.1 hnames) j i (by omega) hi hj
    exact hpair (eq_of_beq hname)
  · obtain ⟨labels, hl, hlen⟩ := LinearSystem.unknownLabels_eq_ok
      (read o text).circuit.elements (read o text).circuit.nodes
    refine ⟨labels, hl, hlen, ?_⟩
    refine LinearSystem.nodup_unknownLabels (dot_notMem_name h) hnames (fun name hm => ?_) hl
    exact notMem_of_isNetName (isNetName_of_mem_names h name hm) (by decide)

/-- A subcircuit with an element of two auxiliary unknowns, called twice, beside an element that is named
like one in its body. -/
theorem distinct_names_two :
    let text := ".subckt S a b\nR1 a m R\nF1 m b a b r\n.ends\nX1 p q S\nX2 q 0 S\nR1 p 0 1\n"
    let r : ElementLine := { letter := 'R', name := "R1", nets := ["a", "m"], value := "R", line := 2 }
    let f : ElementLine :=
      { letter := 'F', name := "F1", nets := ["m", "b", "a", "b"], value := "r", line := 3 }
    let s : Subcircuit :=
      { name := "S", ports := ["a", "b"], body := [.element r, .element f], line := 1, lastLine := 4 }
    let c : Call := { label := "X1", nets := ["p", "q"], subcircuit := "S", line := 5 }
    let c' : Call := { label := "X2", nets := ["q", "0"], subcircuit := "S", line := 6 }
    let r' : ElementLine := { letter := 'R', name := "R1", nets := ["p", "0"], value := "1", line := 7 }
    let n : Netlist :=
      { records := [.subcircuit s, .call c, .call c', .item (.element r')], dialect := .spice }
    (read {} text).error? = none ∧ Netlist.read .spice text = .ok n ∧ n.DistinctNames ∧
      ((read {} text).circuit.elements.map Element.name).Nodup ∧
      (∀ (i : Nat) e, (read {} text).circuit.elements[i]? = some e →
        (read {} text).circuit.findElement? e.name = some i) ∧
      ∃ labels, (read {} text).circuit.unknownLabels = .ok labels ∧
        labels.length = (read {} text).circuit.size ∧ labels.Nodup := by
  intro text r f s c c' r' n
  have h : (read {} text).error? = none := by decide +kernel
  have hn : Netlist.read .spice text = .ok n := by
    simp only [text]
    rfl
  have hd : n.DistinctNames := by
    refine ⟨by decide, by decide, fun s' hs => ?_⟩
    obtain rfl : s' = s := by simpa [n] using hs
    decide
  exact ⟨h, hn, hd, distinct_names h hn hd⟩

end Circuit

end Nodal
