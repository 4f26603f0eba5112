import Nodal.Proofs.Circuit.Copies
/-!
# Nets that belong to one copy

A net in the body of a subcircuit that is no port, holds no mark and is not ground belongs to each
copy of its own, under a name with the label of the call in front. The names of two calls are not
always apart, since labels and nets may hold the separator themselves: the label `X1` before the net
`a:b` reads like the label `X1:a` before the net `b`. `Circuit.ownNodes_disjoint_iff` shows that copies
under different labels share a node of their own nets in just this case.
-/

namespace Nodal

namespace Call

variable {c c' : Call} {net net' : String}

/-- Whether the label of `c'` goes on behind that of `c` with what `net` has in front of `net'`, so that
the name that `c` gives to `net` is the one that `c'` gives to `net'`. -/
def Reaches (c c' : Call) (net net' : String) : Prop :=
  ∃ between, c'.label = c.label ++ ":" ++ between ∧ net = between ++ ":" ++ net'

/-- The name of a net in a copy is the label, a colon and the net. -/
lemma toList_localNet (c : Call) (net : String) :
    (c.localNet net).toList = c.label.toList ++ ':' :: net.toList := by
  simp [localNet]

/-- A net of a copy is never ground. -/
lemma localNet_notMem_groundNames (c : Call) (net : String) : c.localNet net ∉ groundNames := by
  have hg : ∀ name ∈ groundNames, ':' ∉ name.toList := by decide
  intro hm
  apply hg _ hm
  rw [toList_localNet]
  exact List.mem_append_right _ List.mem_cons_self

/-- A net and the one that it reaches have the same name. -/
lemma Reaches.localNet_eq (h : c.Reaches c' net net') : c.localNet net = c'.localNet net' := by
  obtain ⟨between, hl, rfl⟩ := h
  simp only [localNet, hl, String.append_assoc]

/-- A label that goes on behind another one reaches its nets if what is left of the names agrees. -/
lemma reaches_of_append {later : List Char} (hne : c.label ≠ c'.label)
    (hl : c'.label.toList = c.label.toList ++ later)
    (hn : ':' :: net.toList = later ++ ':' :: net'.toList) : c.Reaches c' net net' := by
  cases later with
  | nil =>
    rw [List.append_nil] at hl
    exact absurd (String.toList_inj.1 hl).symm hne
  | cons a between =>
    obtain ⟨rfl, hm⟩ := List.cons.inj hn
    refine ⟨String.ofList between, String.toList_inj.1 ?_, String.toList_inj.1 ?_⟩
    · simp [hl]
    · simp [hm]

/-- Calls under different labels give one name to nets only if one label reaches the other. -/
lemma localNet_eq_iff (hne : c.label ≠ c'.label) :
    c.localNet net = c'.localNet net' ↔ c.Reaches c' net net' ∨ c'.Reaches c net' net := by
  constructor
  · intro h
    have hl := congrArg String.toList h
    rw [toList_localNet, toList_localNet] at hl
    rcases List.append_eq_append_iff.1 hl with ⟨later, hl', hn⟩ | ⟨later, hl', hn⟩
    · exact .inl (reaches_of_append hne hl' hn)
    · exact .inr (reaches_of_append hne.symm hl' hn)
  · rintro (h | h)
    · exact h.localNet_eq
    · exact h.localNet_eq.symm

end Call

namespace Subcircuit

/-- Whether each copy of `s` has a net of its own for `net`: a line of a known kind is connected to
it, and it is no port, not marked and not ground. -/
structure OwnNet (s : Subcircuit) (net : String) : Prop where
  connected : ∃ l ∈ s.elementLines, l.known = true ∧ net ∈ l.nets
  notPort : net ∉ s.ports
  unmarked : '!' ∉ net.toList
  notGround : net ∉ groundNames

end Subcircuit

namespace Circuit

variable {o : Options} {text : String} {n : Netlist} {c c' : Call} {s : Subcircuit}

/-- Whether a node belongs to the copy that `c` makes of `s`: it is that of one of the copy's own
nets. -/
def OwnNode (x : Circuit) (c : Call) (s : Subcircuit) (node : Node) : Prop :=
  ∃ net name, s.OwnNet net ∧ x.Connects c s net name node

/-- A net of the copy's own is connected under the name that the call gives. -/
lemma exists_connects_localNet (h : (read o text).error? = none)
    (hn : Netlist.read o.dialect text = .ok n) (hc : n.Calls c s) {net : String}
    (hnet : s.OwnNet net) :
    ∃ node, (read o text).circuit.Connects c s net (c.localNet net) node ∧
      (read o text).circuit.nodes.find? (c.localNet net) = some node := by
  obtain ⟨l, hl, hk, hm⟩ := hnet.connected
  obtain ⟨name, node, hx⟩ := exists_connects h hn hc hl hk hm
  obtain ⟨hname, hf⟩ := hx.spec h hn hc
  obtain ⟨hports, -⟩ := exists_copies h hn hc
  have hw : name = c.localNet net := by
    rw [hname]
    exact (wires_renameNet hports net).unique (.own hnet.notPort hnet.unmarked hnet.notGround)
  subst hw
  exact ⟨node, hx, hf⟩

/-- The nodes that a copy has of its own are those of the names that the call gives. -/
lemma ownNode_iff (h : (read o text).error? = none) (hn : Netlist.read o.dialect text = .ok n)
    (hc : n.Calls c s) {node : Node} :
    (read o text).circuit.OwnNode c s node ↔
      ∃ net, s.OwnNet net ∧ (read o text).circuit.nodes.find? (c.localNet net) = some node := by
  constructor
  · rintro ⟨net, name, hnet, hx⟩
    obtain ⟨node', hx', hf'⟩ := exists_connects_localNet h hn hc hnet
    refine ⟨net, hnet, ?_⟩
    obtain ⟨hname, hf⟩ := hx.spec h hn hc
    obtain ⟨hname', -⟩ := hx'.spec h hn hc
    rwa [hname', ← hname]
  · rintro ⟨net, hnet, hf⟩
    obtain ⟨node', hx, hf'⟩ := exists_connects_localNet h hn hc hnet
    rw [hf] at hf'
    cases hf'
    exact ⟨net, _, hnet, hx⟩

/-- Copies under different labels share no node of their own, unless one label goes on behind the other with a
separator and the body has two nets to match. -/
theorem ownNodes_disjoint_iff (h : (read o text).error? = none)
    (hn : Netlist.read o.dialect text = .ok n) (hc : n.Calls c s) (hc' : n.Calls c' s)
    (hne : c.label ≠ c'.label) :
    (∀ node, (read o text).circuit.OwnNode c s node → ¬ (read o text).circuit.OwnNode c' s node) ↔
      ∀ net net', s.OwnNet net → s.OwnNet net' →
        ¬ c.Reaches c' net net' ∧ ¬ c'.Reaches c net' net := by
  constructor
  · intro hd net net' hnet hnet'
    -- a name that both calls give has one node, which both copies have
    have hapart : c.localNet net ≠ c'.localNet net' := by
      intro he
      obtain ⟨node, -, hf⟩ := exists_connects_localNet h hn hc hnet
      apply hd node ((ownNode_iff h hn hc).2 ⟨net, hnet, hf⟩)
      rw [he] at hf
      exact (ownNode_iff h hn hc').2 ⟨net', hnet', hf⟩
    rw [Ne, Call.localNet_eq_iff hne, not_or] at hapart
    exact hapart
  · intro hapart node hm hm'
    obtain ⟨net, hnet, hf⟩ := (ownNode_iff h hn hc).1 hm
    obtain ⟨net', hnet', hf'⟩ := (ownNode_iff h hn hc').1 hm'
    -- and a node that both copies have is that of one name
    have he : c.localNet net = c'.localNet net' :=
      NodeTable.eq_of_find?_eq_some hf hf' (c.localNet_notMem_groundNames net)
    obtain ⟨hr, hr'⟩ := hapart net net' hnet hnet'
    exact ((Call.localNet_eq_iff hne).1 he).elim hr hr'

/-- Two copies whose body has a net of its own. -/
theorem ownNodes_disjoint_two :
    let text := ".subckt S p\nR1 p m R\n.ends\nX1 n S\nX2 n S\n"
    let l : ElementLine := { letter := 'R', name := "R1", nets := ["p", "m"], value := "R", line := 2 }
    let s : Subcircuit :=
      { name := "S", ports := ["p"], body := [.element l], line := 1, lastLine := 3 }
    let c : Call := { label := "X1", nets := ["n"], subcircuit := "S", line := 4 }
    let c' : Call := { label := "X2", nets := ["n"], subcircuit := "S", line := 5 }
    let n : Netlist := { records := [.subcircuit s, .call c, .call c'], dialect := .spice }
    (read {} text).error? = none ∧ Netlist.read .spice text = .ok n ∧ n.Calls c s ∧ n.Calls c' s ∧
      c.label ≠ c'.label ∧
      ((∀ node, (read {} text).circuit.OwnNode c s node →
          ¬ (read {} text).circuit.OwnNode c' s node) ↔
        ∀ net net', s.OwnNet net → s.OwnNet net' →
          ¬ c.Reaches c' net net' ∧ ¬ c'.Reaches c net' net) := by
  intro text l s c c' n
  have h : (read {} text).error? = none := by decide +kernel
  have hn : Netlist.read .spice text = .ok n := by
    simp only [text]
    rfl
  have hs : Record.Latest [.subcircuit s] "S" s := ⟨[], [], rfl, rfl, nofun⟩
  have hc : n.Calls c s := ⟨[.subcircuit s], [.call c'], rfl, hs⟩
  have hs' : Record.Latest [.subcircuit s, .call c] "S" s := hs.concat nofun
  have hc' : n.Calls c' s := ⟨[.subcircuit s, .call c], [], rfl, hs'⟩
  have hne : c.label ≠ c'.label := by decide
  exact ⟨h, hn, hc, hc', hne, ownNodes_disjoint_iff h hn hc hc' hne⟩

/-- The labels `X1` and `X1:a` give one name, and so one node, to the nets `a:b` and `b`. -/
theorem ownNodes_meet :
    let text := ".subckt S p\nR1 a:b b R\n.ends\nX1 n S\nX1:a n S\n"
    let l : ElementLine :=
      { letter := 'R', name := "R1", nets := ["a:b", "b"], value := "R", line := 2 }
    let s : Subcircuit :=
      { name := "S", ports := ["p"], body := [.element l], line := 1, lastLine := 3 }
    let c : Call := { label := "X1", nets := ["n"], subcircuit := "S", line := 4 }
    let c' : Call := { label := "X1:a", nets := ["n"], subcircuit := "S", line := 5 }
    let n : Netlist := { records := [.subcircuit s, .call c, .call c'], dialect := .spice }
    (read {} text).error? = none ∧ Netlist.read .spice text = .ok n ∧ n.Calls c s ∧ n.Calls c' s ∧
      c.label ≠ c'.label ∧
      ∃ node, (read {} text).circuit.OwnNode c s node ∧ (read {} text).circuit.OwnNode c' s node := by
  intro text l s c c' n
  have h : (read {} text).error? = none := by decide +kernel
  have hn : Netlist.read .spice text = .ok n := by
    simp only [text]
    rfl
  have hs : Record.Latest [.subcircuit s] "S" s := ⟨[], [], rfl, rfl, nofun⟩
  have hc : n.Calls c s := ⟨[.subcircuit s], [.call c'], rfl, hs⟩
  have hs' : Record.Latest [.subcircuit s, .call c] "S" s := hs.concat nofun
  have hc' : n.Calls c' s := ⟨[.subcircuit s, .call c], [], rfl, hs'⟩
  have hl : ∀ net ∈ l.nets, ∃ l ∈ s.elementLines, l.known = true ∧ net ∈ l.nets := fun net hnet =>
    ⟨l, List.mem_singleton.2 rfl, by decide, hnet⟩
  have hab : s.OwnNet "a:b" := ⟨hl _ (by decide), by decide, by decide, by decide⟩
  have hb : s.OwnNet "b" := ⟨hl _ (by decide), by decide, by decide, by decide⟩
  have hm : (read {} text).circuit.OwnNode c s ⟨1⟩ :=
    (ownNode_iff h hn hc).2 ⟨"a:b", hab, by decide +kernel⟩
  have hm' : (read {} text).circuit.OwnNode c' s ⟨1⟩ :=
    (ownNode_iff h hn hc').2 ⟨"b", hb, by decide +kernel⟩
  exact ⟨h, hn, hc, hc', by decide, ⟨1⟩, hm, hm'⟩

end Circuit

end Nodal
